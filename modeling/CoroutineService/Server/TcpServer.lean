import Mathlib.Data.List.Basic
import Mathlib.Data.Nat.Notation

/-!
# Binding a server

`TcpServer::bind` creates a socket for each of its addresses, keeps those that listen, and counts
the others as failed. If there are any, it clears `m_socks`, in which the sockets of other calls
may be kept as well.

## Main definitions

* `Attempt`: an address, and what `bind` and `listen` answer for it
* `TcpServer.bind`: the loop and what follows it
* `AllOrNothing`: every address is listened to, or nothing has changed

## Main results

* `allOrNothing_iff`: a call that fails must be the first to keep sockets
* `not_allOrNothing`: a second address that is in use
-/

set_option autoImplicit false

namespace CoroutineService.Server

variable {Addr : Type}

/-- A `Socket`, or an `SSLSocket`. -/
structure Socket (Addr : Type) where
  id : ℕ
  ssl : Bool
  localAddress : Option Addr
  listening : Bool
  deriving DecidableEq, Repr

/-- An address, and the results of `sock->bind(addr)` and `sock->listen()`. -/
structure Attempt (Addr : Type) where
  addr : Addr
  binds : Bool
  listens : Bool
  deriving DecidableEq, Repr

/-- The members of a `TcpServer` that `bind` changes; `created` counts the sockets that have been
created so far. -/
structure TcpServer (Addr : Type) where
  mSocks : List (Socket Addr)
  mSsl : Bool
  created : ℕ
  deriving DecidableEq, Repr

/-- `CreateTCP`. -/
def Socket.createTCP (id : ℕ) (ssl : Bool) : Socket Addr := ⟨id, ssl, none, false⟩

namespace Attempt

/-- Both calls succeed. -/
def Succeeds (a : Attempt Addr) : Prop := a.binds = true ∧ a.listens = true

instance (a : Attempt Addr) : Decidable a.Succeeds := inferInstanceAs (Decidable (_ ∧ _))

/-- The socket that listens at the address. -/
def listener (a : Attempt Addr) (id : ℕ) (ssl : Bool) : Socket Addr := ⟨id, ssl, some a.addr, true⟩

end Attempt

namespace TcpServer

/-- One iteration of the loop of `bind`. -/
def bindOne (ssl : Bool) (a : Attempt Addr) (s : TcpServer Addr) (fails : List Addr) :
    TcpServer Addr × List Addr :=
  let sock : Socket Addr := .createTCP s.created ssl
  let s := { s with created := s.created + 1 }
  if a.binds = false then (s, fails ++ [a.addr])
  else
    let sock := { sock with localAddress := some a.addr }
    if a.listens = false then (s, fails ++ [a.addr])
    else ({ s with mSocks := s.mSocks ++ [{ sock with listening := true }] }, fails)

/-- The loop of `bind`. -/
def bindAll (ssl : Bool) :
    List (Attempt Addr) → TcpServer Addr → List Addr → TcpServer Addr × List Addr
  | [], s, fails => (s, fails)
  | a :: addrs, s, fails =>
    let (s, fails) := bindOne ssl a s fails
    bindAll ssl addrs s fails

/-- `TcpServer::bind`: the server, `fails` and the result. -/
def bind (s : TcpServer Addr) (addrs : List (Attempt Addr)) (fails : List Addr) (ssl : Bool) :
    TcpServer Addr × List Addr × Bool :=
  let (s, fails) := bindAll ssl addrs { s with mSsl := ssl } fails
  if fails ≠ [] then ({ s with mSocks := [] }, fails, false) else (s, fails, true)

end TcpServer

/-- The sockets that listen after a loop that starts when `id` sockets have been created. -/
def listeners (ssl : Bool) : ℕ → List (Attempt Addr) → List (Socket Addr)
  | _, [] => []
  | id, a :: addrs =>
    if a.Succeeds then a.listener id ssl :: listeners ssl (id + 1) addrs
    else listeners ssl (id + 1) addrs

/-- The addresses that fail. -/
def failed (addrs : List (Attempt Addr)) : List Addr :=
  (addrs.filter fun a => ¬a.Succeeds).map Attempt.addr

/-- If every address succeeds, one new socket for each of them listens, in order, behind those
there were; if not, the failed addresses are listed, and the sockets are the same as before. -/
def AllOrNothing (s : TcpServer Addr) (addrs : List (Attempt Addr)) (ssl : Bool) : Prop :=
  let (s', fails, result) := s.bind addrs [] ssl
  ((∀ a ∈ addrs, a.Succeeds) → result = true ∧ fails = [] ∧
      ∃ new, s'.mSocks = s.mSocks ++ new ∧
        new.map Socket.localAddress = addrs.map (fun a => some a.addr) ∧
          ∀ sock ∈ new, sock.listening = true ∧ sock.ssl = ssl ∧ s.created ≤ sock.id) ∧
    ((∃ a ∈ addrs, ¬a.Succeeds) → result = false ∧ fails = failed addrs ∧ s'.mSocks = s.mSocks)

/-! ### The loop -/

section

variable {s : TcpServer Addr} {addrs : List (Attempt Addr)} {fails : List Addr} {ssl : Bool}

theorem bindOne_of_succeeds {a : Attempt Addr} (succeeds : a.Succeeds) :
    s.bindOne ssl a fails =
      ({ s with
        mSocks := s.mSocks ++ [a.listener s.created ssl]
        created := s.created + 1 }, fails) := by
  obtain ⟨binds, listens⟩ := succeeds
  rw [TcpServer.bindOne, binds, listens]
  rfl

theorem bindOne_of_fails {a : Attempt Addr} (failure : ¬a.Succeeds) :
    s.bindOne ssl a fails = ({ s with created := s.created + 1 }, fails ++ [a.addr]) := by
  unfold TcpServer.bindOne
  cases binds : a.binds with
  | false => rfl
  | true =>
    cases listens : a.listens with
    | false => rfl
    | true => exact absurd ⟨binds, listens⟩ failure

/-- The loop keeps the sockets that listen, and lists the addresses that fail. -/
theorem bindAll_eq : TcpServer.bindAll ssl addrs s fails =
    ({ s with
      mSocks := s.mSocks ++ listeners ssl s.created addrs
      created := s.created + addrs.length }, fails ++ failed addrs) := by
  induction addrs generalizing s fails with
  | nil => simp [TcpServer.bindAll, listeners, failed]
  | cons a addrs ih =>
    rw [TcpServer.bindAll]
    by_cases succeeds : a.Succeeds
    · rw [bindOne_of_succeeds succeeds]
      dsimp only
      rw [ih]
      simp [listeners, failed, succeeds, Nat.add_assoc, Nat.add_comm 1]
    · rw [bindOne_of_fails succeeds]
      dsimp only
      rw [ih]
      simp [listeners, failed, succeeds, Nat.add_assoc, Nat.add_comm 1]

theorem failed_eq_nil_iff : failed addrs = [] ↔ ∀ a ∈ addrs, a.Succeeds := by
  simp [failed]

/-- What `bind` leaves, with all or none of the sockets. -/
theorem bind_eq : s.bind addrs [] ssl =
    ({ s with
      mSocks := if failed addrs = [] then s.mSocks ++ listeners ssl s.created addrs else []
      mSsl := ssl
      created := s.created + addrs.length }, failed addrs, decide (failed addrs = [])) := by
  rw [TcpServer.bind, bindAll_eq]
  dsimp only
  rw [List.nil_append]
  by_cases none : failed addrs = []
  · simp [none]
  · simp [none]

/-- All addresses are listened to, in order. -/
theorem localAddress_listeners (succeed : ∀ a ∈ addrs, a.Succeeds) (id : ℕ) :
    (listeners ssl id addrs).map Socket.localAddress = addrs.map fun a => some a.addr := by
  induction addrs generalizing id with
  | nil => rfl
  | cons a addrs ih =>
    obtain ⟨now, later⟩ := List.forall_mem_cons.mp succeed
    rw [listeners, if_pos now, List.map_cons, List.map_cons, ih later]
    rfl

/-- The sockets are new. -/
theorem of_mem_listeners {id : ℕ} {sock : Socket Addr} (mem : sock ∈ listeners ssl id addrs) :
    sock.listening = true ∧ sock.ssl = ssl ∧ id ≤ sock.id := by
  induction addrs generalizing id with
  | nil => exact absurd mem List.not_mem_nil
  | cons a addrs ih =>
    have later (mem : sock ∈ listeners ssl (id + 1) addrs) :
        sock.listening = true ∧ sock.ssl = ssl ∧ id ≤ sock.id := by
      obtain ⟨listening, kind, new⟩ := ih mem
      exact ⟨listening, kind, Nat.le_of_succ_le new⟩
    rw [listeners] at mem
    split at mem
    · rcases List.mem_cons.mp mem with rfl | mem
      · exact ⟨rfl, rfl, Nat.le_refl id⟩
      · exact later mem
    · exact later mem

end

/-- A call is all or nothing if all of its addresses succeed, or there are no sockets of other
calls. -/
theorem allOrNothing_iff (s : TcpServer Addr) (addrs : List (Attempt Addr)) (ssl : Bool) :
    AllOrNothing s addrs ssl ↔ (∀ a ∈ addrs, a.Succeeds) ∨ s.mSocks = [] := by
  unfold AllOrNothing
  rw [bind_eq]
  dsimp only
  by_cases succeed : ∀ a ∈ addrs, a.Succeeds
  · have none := failed_eq_nil_iff.mpr succeed
    rw [none, if_pos rfl]
    refine iff_of_true ⟨fun _ => ⟨rfl, rfl, _, rfl, localAddress_listeners succeed _, ?_⟩, ?_⟩
      (.inl succeed)
    · exact fun sock mem => of_mem_listeners mem
    · rintro ⟨a, mem, failure⟩
      exact absurd (succeed a mem) failure
  · have some := mt failed_eq_nil_iff.mp succeed
    rw [if_neg some]
    push Not at succeed
    constructor
    · rintro ⟨-, nothing⟩
      exact .inr (nothing succeed).2.2.symm
    · rintro (all | empty)
      · obtain ⟨a, mem, failure⟩ := succeed
        exact absurd (all a mem) failure
      · rw [empty]
        refine ⟨fun all => ?_, fun _ => ⟨decide_eq_false some, rfl, rfl⟩⟩
        obtain ⟨a, mem, failure⟩ := succeed
        exact absurd (all a mem) failure

/-- A server that listens to one address loses it when the next is in use. -/
theorem not_allOrNothing : ¬ ∀ (s : TcpServer ℕ) (addrs : List (Attempt ℕ)),
    AllOrNothing s addrs false := by
  intro all
  obtain ⟨-, nothing⟩ := all ⟨[⟨0, false, some 80, true⟩], false, 1⟩ [⟨81, false, false⟩]
  exact absurd (nothing ⟨_, List.mem_singleton_self _, by decide⟩).2.2 (by decide)

end CoroutineService.Server
