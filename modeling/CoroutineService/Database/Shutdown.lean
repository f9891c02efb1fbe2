import CoroutineService.Database.ConnectionPool

/-!
# Destroying the pool of connections

`destroy_pool` closes the connections in the list and empties it, under the lock. What the
clients hold is not closed, and comes back into the list later. The semaphore is not reset: it
goes on counting the connections that were closed, so that it may let a client through to an
empty list.

## Main definitions

* `ClosingPool`, `shutdownMachine`: the pool with `destroy_pool` among the steps
* `Rested`: nobody holds a connection or is about to get one
* `Shut`: the connections, and the counters, once some are closed

## Main results

* `closedOnce_of_reachable`: no connection is closed twice, or used after it is closed; `front`
  is called on an empty list only after the pool was destroyed under its clients
-/

set_option autoImplicit false

namespace CoroutineService.Database

open CoroutineService.Transition

/-- Neither with a connection nor inside `get_connection`. -/
def Client.apart : Client → Bool
  | idle | holding none | posting => true
  | sized | granted | holding (some _) => false

/-- Holds a connection. -/
def Client.busy (c : Client) : Bool := c.connection.isSome

/-- The pool together with the connections that `mysql_close` was called with. `disturbed` tells
that some were closed while a client had a connection or was getting one. -/
structure ClosingPool (Cid : Type*) where
  pool : ConnectionPool Cid
  closed : List ℕ
  disturbed : Bool

/-- The steps of the clients, and of the thread that destroys the pool. -/
inductive ShutdownMove (Cid : Type*)
  | client (a : PoolMove Cid)
  | destroy

/-- `destroy_pool`, with the connections that it closes. -/
def ConnectionPool.destroyPool {Cid : Type*} (s : ConnectionPool Cid) :
    ConnectionPool Cid × List ℕ :=
  if s.connList.length > 0 then
    ({ s with curConn := 0, freeConn := 0, connList := [] }, s.connList)
  else (s, [])

/-- All clients are apart from the pool. -/
def Rested {Cid : Type*} (clients : Finset Cid) (s : ConnectionPool Cid) : Prop :=
  ∀ p ∈ clients, (s.client p).apart = true

instance {Cid : Type*} (clients : Finset Cid) (s : ConnectionPool Cid) :
    Decidable (Rested clients s) :=
  inferInstanceAs (Decidable (∀ p ∈ clients, (s.client p).apart = true))

/-- `destroy_pool`, in any state of the clients. -/
def ClosingPool.destroy {Cid : Type*} (clients : Finset Cid) (s : ClosingPool Cid) :
    ClosingPool Cid where
  pool := s.pool.destroyPool.1
  closed := s.closed ++ s.pool.destroyPool.2
  disturbed := s.disturbed ||
    (!s.pool.destroyPool.2.isEmpty && !decide (Rested clients s.pool))

section Machine

variable {Cid : Type*} [DecidableEq Cid]

/-- The clients share a pool that may be destroyed at any time, also more than once. The run
ends where `front` is called on an empty list. -/
def shutdownMachine (clients : Finset Cid) (n : ℕ) :
    Machine (ClosingPool Cid) (ShutdownMove Cid) where
  init s := s = ⟨.init n, [], false⟩
  enabled s
    | .client a => s.pool.faulted = false ∧ (poolMachine clients n).enabled s.pool a
    | .destroy => s.pool.faulted = false
  next s
    | .client a => { s with pool := (poolMachine clients n).next s.pool a }
    | .destroy => s.destroy clients

instance (clients : Finset Cid) (n : ℕ) (s : ClosingPool Cid) (a : ShutdownMove Cid) :
    Decidable ((shutdownMachine clients n).enabled s a) := by
  induction a using ShutdownMove.casesOn <;> (dsimp only [shutdownMachine]; infer_instance)

end Machine

section Shut

variable {Cid : Type*} {clients : Finset Cid} {n : ℕ} {s : ClosingPool Cid} {p : Cid}

/-- The connections that are not closed are in the list or with one client each; the semaphore
counts the closed ones too. As long as only pools at rest were destroyed, nothing is closed yet
or nothing is left. -/
structure Shut (clients : Finset Cid) (n : ℕ) (s : ClosingPool Cid) : Prop where
  leased : Leased Client.connection (fun con => con < n ∧ con ∉ s.closed) s.pool.connList
    s.pool.client
  nodup : s.closed.Nodup
  reserve : s.pool.reserve + census clients Client.popping s.pool.client +
    census clients Client.returning s.pool.client = s.pool.connList.length + s.closed.length
  free : s.pool.freeConn = s.pool.connList.length
  current : s.pool.curConn ≤ census clients Client.busy s.pool.client
  orderly : s.disturbed = false →
    (s.closed = [] ∨ s.pool.connList = [] ∧ Rested clients s.pool) ∧ s.pool.faulted = false

theorem shut_init (clients : Finset Cid) (n : ℕ) : Shut clients n ⟨.init n, [], false⟩ := by
  have accounted := accounted_init clients n
  refine ⟨?_, List.nodup_nil, ?_, accounted.free, ?_, fun _ => ⟨.inl rfl, accounted.safe⟩⟩
  · simpa only [List.not_mem_nil, not_false_eq_true, and_true] using accounted.leased
  · exact accounted.reserve
  · have free := accounted.free
    have total := accounted.total
    obtain ⟨list, -⟩ := connList_connect (n := 0) n
      (⟨[], 0, 0, 0, fun _ => .idle, false⟩ : ConnectionPool Cid) rfl
    have length : (ConnectionPool.init n : ConnectionPool Cid).connList.length = n := by
      show (ConnectionPool.connect n _).connList.length = n
      rw [list, List.length_range, Nat.zero_add]
    rw [length] at free
    show (ConnectionPool.init n : ConnectionPool Cid).curConn ≤ _
    omega

namespace Shut

/-- A connection is closed, in the list, or with one client, and in one place only. -/
theorem one_place (shut : Shut clients n s) {con : ℕ} (made : con < n) :
    (s.closed.count con = 1 ∧ con ∉ s.pool.connList ∧
        ∀ p, s.pool.client p ≠ .holding (some con)) ∨
      (con ∉ s.closed ∧ s.pool.connList.count con = 1 ∧
        ∀ p, s.pool.client p ≠ .holding (some con)) ∨
      (con ∉ s.closed ∧ con ∉ s.pool.connList ∧
        ∃! p, s.pool.client p = .holding (some con)) := by
  have holds : ∀ c : Client, c.connection = some con ↔ c = .holding (some con) := by
    intro c
    cases c <;> simp [Client.connection, Client.held]
  by_cases shutDown : con ∈ s.closed
  · refine .inl ⟨List.count_eq_one_of_mem shut.nodup shutDown, fun listed => ?_, fun p mine => ?_⟩
    · exact (shut.leased.stocked con listed).2 shutDown
    · exact (shut.leased.held p con ((holds _).mpr mine)).1.2 shutDown
  · have place := shut.leased.one_place ⟨made, shutDown⟩
    simp only [holds, ne_eq] at place
    exact .inr (place.imp (⟨shutDown, ·⟩) (⟨shutDown, ·⟩))

theorem destroy (shut : Shut clients n s) (safe : s.pool.faulted = false) :
    Shut clients n (s.destroy clients) := by
  by_cases filled : s.pool.connList.length > 0
  · have parts : s.pool.destroyPool =
        ({ s.pool with curConn := 0, freeConn := 0, connList := [] }, s.pool.connList) :=
      if_pos filled
    have fresh : ∀ con ∈ s.pool.connList, con ∉ s.closed := fun con mem =>
      (shut.leased.stocked con mem).2
    unfold ClosingPool.destroy
    rw [parts]
    refine ⟨?_, ?_, ?_, rfl, ?_, fun undisturbed => ?_⟩
    · have left := shut.leased.discard
      simpa only [List.mem_append, not_or, and_assoc] using left
    · refine shut.nodup.append shut.leased.nodup fun con old new => ?_
      exact fresh con new old
    · have balance := shut.reserve
      show s.pool.reserve + census clients Client.popping s.pool.client +
        census clients Client.returning s.pool.client =
          0 + (s.closed ++ s.pool.connList).length
      rw [List.length_append]
      omega
    · exact Int.natCast_nonneg _
    · obtain ⟨-, calm⟩ := Bool.or_eq_false_iff.mp undisturbed
      have some : s.pool.connList.isEmpty = false := by
        rw [List.isEmpty_eq_false_iff]
        exact List.ne_nil_of_length_pos filled
      rw [some] at calm
      have rested : Rested clients s.pool := by simpa using calm
      exact ⟨.inr ⟨rfl, rested⟩, safe⟩
  · have parts : s.pool.destroyPool = (s.pool, []) := if_neg filled
    unfold ClosingPool.destroy
    rw [parts]
    simpa using shut

variable [DecidableEq Cid]

/-- The order is kept when a client goes on, if it stays apart from an empty list. -/
theorem orderly_update (shut : Shut clients n s) (member : p ∈ clients) {pool : ConnectionPool Cid}
    {v : Client} (client : pool.client = Function.update s.pool.client p v)
    (faulted : pool.faulted = s.pool.faulted)
    (stays : s.pool.connList = [] → (s.pool.client p).apart = true →
      pool.connList = [] ∧ v.apart = true) (undisturbed : s.disturbed = false) :
    (s.closed = [] ∨ pool.connList = [] ∧ Rested clients pool) ∧ pool.faulted = false := by
  obtain ⟨kept, safe⟩ := shut.orderly undisturbed
  refine ⟨kept.imp_right fun ⟨empty, rested⟩ => ?_, faulted.trans safe⟩
  obtain ⟨empty', apart⟩ := stays empty (rested p member)
  refine ⟨empty', fun q there => ?_⟩
  rw [client]
  by_cases here : q = p
  · rw [here, Function.update_self]
    exact apart
  · rw [Function.update_of_ne here]
    exact rested q there

/-- A client without a connection goes on without one, and the semaphore does not count it. -/
theorem turn (shut : Shut clients n s) (member : p ∈ clients) {v : Client}
    (before : s.pool.client p = .idle ∨ s.pool.client p = .holding none)
    (after : v = .idle ∨ v = .sized ∨ v = .holding none)
    (stays : s.pool.connList = [] → v.apart = true) :
    Shut clients n { s with pool := s.pool.become p v } := by
  have quiet : ∀ c : Client, c = .idle ∨ c = .sized ∨ c = .holding none →
      c.connection = none ∧ c.popping = false ∧ c.returning = false ∧ c.busy = false := by
    rintro c (rfl | rfl | rfl) <;> exact ⟨rfl, rfl, rfl, rfl⟩
  obtain ⟨nothing, notPopping, notReturning, notBusy⟩ := quiet _ (before.imp_right .inr)
  obtain ⟨nothing', notPopping', notReturning', notBusy'⟩ := quiet _ after
  refine ⟨shut.leased.turn nothing nothing', shut.nodup, ?_, shut.free, ?_,
    shut.orderly_update member rfl rfl fun empty _ => ⟨empty, stays empty⟩⟩
  · show s.pool.reserve + census clients Client.popping (Function.update s.pool.client p v) +
      census clients Client.returning (Function.update s.pool.client p v) = _
    rw [census_update_same (by rw [notPopping, notPopping']),
      census_update_same (by rw [notReturning, notReturning'])]
    exact shut.reserve
  · show s.pool.curConn ≤ census clients Client.busy (Function.update s.pool.client p v)
    rw [census_update_same (by rw [notBusy, notBusy'])]
    exact shut.current

theorem size (shut : Shut clients n s) (member : p ∈ clients) (idle : s.pool.client p = .idle) :
    Shut clients n { s with pool := s.pool.size p } := by
  unfold ConnectionPool.size
  split
  case isTrue => exact shut.turn member (.inl idle) (.inr (.inr rfl)) fun _ => rfl
  case isFalse filled =>
    refine shut.turn member (.inl idle) (.inr (.inl rfl)) fun empty => ?_
    exact absurd (List.length_eq_zero_iff.mpr empty) filled

theorem wait (shut : Shut clients n s) (member : p ∈ clients) (sized : s.pool.client p = .sized)
    (positive : 0 < s.pool.reserve) : Shut clients n { s with pool := s.pool.wait p } := by
  refine ⟨shut.leased.turn (by rw [sized]; rfl) rfl, shut.nodup, ?_, shut.free, ?_,
    shut.orderly_update member rfl rfl fun _ apart => ?_⟩
  · show s.pool.reserve - 1 +
      census clients Client.popping (Function.update s.pool.client p .granted) +
      census clients Client.returning (Function.update s.pool.client p .granted) = _
    rw [census_update_enter member (by rw [sized]; rfl) rfl,
      census_update_same (by rw [sized]; rfl)]
    have balance := shut.reserve
    show _ = s.pool.connList.length + s.closed.length
    omega
  · show s.pool.curConn ≤ census clients Client.busy (Function.update s.pool.client p .granted)
    rw [census_update_same (by rw [sized]; rfl)]
    exact shut.current
  · rw [sized] at apart
    cases apart

/-- `front` finds the list empty only after the order was disturbed: until then the semaphore
has let the client through for a connection that is still there. -/
theorem pop (shut : Shut clients n s) (member : p ∈ clients)
    (granted : s.pool.client p = .granted) : Shut clients n { s with pool := s.pool.pop p } := by
  have waiting : 0 < census clients Client.popping s.pool.client :=
    census_pos member (by rw [granted]; rfl)
  have balance := shut.reserve
  have free := shut.free
  have current := shut.current
  have leased := shut.leased
  unfold ConnectionPool.pop
  split
  case h_1 empty =>
    refine ⟨shut.leased, shut.nodup, shut.reserve, shut.free, shut.current, fun undisturbed => ?_⟩
    rcases (shut.orderly undisturbed).1 with open' | ⟨-, rested⟩
    · rw [empty, open'] at balance
      simp only [List.length_nil] at balance
      omega
    · have apart := rested p member
      rw [granted] at apart
      cases apart
  case h_2 con rest whole =>
    rw [whole] at leased balance free
    simp only [List.length_cons] at balance free
    refine ⟨leased.take (by rw [granted]; rfl) rfl, shut.nodup, ?_, ?_, ?_,
      shut.orderly_update member rfl rfl fun empty => ?_⟩
    · show s.pool.reserve + census clients Client.popping
        (Function.update s.pool.client p (.holding (some con))) + census clients Client.returning
        (Function.update s.pool.client p (.holding (some con))) = rest.length + s.closed.length
      rw [census_update_leave member (by rw [granted]; rfl) rfl,
        census_update_same (by rw [granted]; rfl)]
      omega
    · show s.pool.freeConn - 1 = rest.length
      omega
    · show s.pool.curConn + 1 ≤ census clients Client.busy
        (Function.update s.pool.client p (.holding (some con)))
      rw [census_update_enter member (by rw [granted]; rfl) rfl]
      omega
    · rw [whole] at empty
      cases empty

theorem release (shut : Shut clients n s) (member : p ∈ clients) {con : Option ℕ}
    (holding : s.pool.client p = .holding con) :
    Shut clients n { s with pool := s.pool.release p con } := by
  cases con with
  | none => exact shut.turn member (.inr holding) (.inl rfl) fun _ => rfl
  | some con =>
    have balance := shut.reserve
    have free := shut.free
    have current := shut.current
    have holder : 0 < census clients Client.busy s.pool.client :=
      census_pos member (by rw [holding]; rfl)
    refine ⟨shut.leased.giveBack (by rw [holding]; rfl) rfl, shut.nodup, ?_, ?_, ?_,
      shut.orderly_update member rfl rfl fun _ apart => ?_⟩
    · show s.pool.reserve +
        census clients Client.popping (Function.update s.pool.client p .posting) +
        census clients Client.returning (Function.update s.pool.client p .posting) =
          (s.pool.connList ++ [con]).length + s.closed.length
      rw [census_update_same (by rw [holding]; rfl),
        census_update_enter member (by rw [holding]; rfl) rfl, List.length_append,
        List.length_singleton]
      omega
    · show s.pool.freeConn + 1 = ((s.pool.connList ++ [con]).length : ℤ)
      rw [List.length_append, List.length_singleton]
      omega
    · show s.pool.curConn - 1 ≤ census clients Client.busy
        (Function.update s.pool.client p .posting)
      rw [census_update_leave member (by rw [holding]; rfl) rfl]
      omega
    · rw [holding] at apart
      cases apart

theorem post (shut : Shut clients n s) (member : p ∈ clients)
    (posting : s.pool.client p = .posting) :
    Shut clients n { s with pool := s.pool.post p } := by
  refine ⟨shut.leased.turn (by rw [posting]; rfl) rfl, shut.nodup, ?_, shut.free, ?_,
    shut.orderly_update member rfl rfl fun empty _ => ⟨empty, rfl⟩⟩
  · have announcing : 0 < census clients Client.returning s.pool.client :=
      census_pos member (by rw [posting]; rfl)
    have balance := shut.reserve
    show s.pool.reserve + 1 +
      census clients Client.popping (Function.update s.pool.client p .idle) +
      census clients Client.returning (Function.update s.pool.client p .idle) =
        s.pool.connList.length + s.closed.length
    rw [census_update_same (by rw [posting]; rfl),
      census_update_leave member (by rw [posting]; rfl) rfl]
    omega
  · show s.pool.curConn ≤ census clients Client.busy (Function.update s.pool.client p .idle)
    rw [census_update_same (by rw [posting]; rfl)]
    exact shut.current

theorem next (shut : Shut clients n s) {a : ShutdownMove Cid}
    (available : (shutdownMachine clients n).enabled s a) :
    Shut clients n ((shutdownMachine clients n).next s a) := by
  cases a with
  | destroy => exact shut.destroy available
  | client a =>
    obtain ⟨-, available⟩ := available
    cases a with
    | size p => exact shut.size available.1 available.2
    | wait p => exact shut.wait available.1 available.2.1 available.2.2
    | pop p => exact shut.pop available.1 available.2
    | query p => exact shut
    | release p =>
      obtain ⟨member, holds⟩ := available
      cases phase : s.pool.client p with
      | holding con =>
        dsimp only [shutdownMachine, poolMachine]
        rw [phase]
        exact shut.release member phase
      | idle | sized | granted | posting =>
        rw [phase] at holds
        cases holds
    | post p => exact shut.post available.1 available.2

end Shut

variable [DecidableEq Cid]

/-- Whenever the pool is destroyed, and however often: each connection is closed once, or in
the list once, or with one client, so that a closed one is not closed again, handed out or
queried. The free connections are counted right, the ones in use are never counted too high, and
`front` is called on an empty list only if the pool was destroyed while a client had a connection
or was getting one. -/
theorem closedOnce_of_reachable (clients : Finset Cid) (n : ℕ) (s : ClosingPool Cid)
    (reached : (shutdownMachine clients n).Reachable s) :
    (∀ con, con < n →
      (s.closed.count con = 1 ∧ con ∉ s.pool.connList ∧
          ∀ p, s.pool.client p ≠ .holding (some con)) ∨
        (con ∉ s.closed ∧ s.pool.connList.count con = 1 ∧
          ∀ p, s.pool.client p ≠ .holding (some con)) ∨
        (con ∉ s.closed ∧ con ∉ s.pool.connList ∧
          ∃! p, s.pool.client p = .holding (some con))) ∧
      s.pool.freeConn = s.pool.connList.length ∧
      s.pool.curConn ≤ census clients Client.busy s.pool.client ∧
      (s.pool.faulted = true → s.disturbed = true) := by
  have shut : Shut clients n s := by
    refine reached.invariant (I := Shut clients n) ?_ ?_
    · rintro _ rfl
      exact shut_init clients n
    · exact fun s a shut available _ => shut.next available
  refine ⟨fun con made => shut.one_place made, shut.free, shut.current, fun faulted => ?_⟩
  by_contra undisturbed
  have safe := (shut.orderly (Bool.eq_false_iff.mpr undisturbed)).2
  rw [safe] at faulted
  cases faulted

/-- The pool is destroyed while one client has a connection and two wait for one; the semaphore
lets both of them through to the one connection that comes back. -/
theorem closedOnce_disturbed :
    let s := (shutdownMachine {0, 1, 2} 2).after
      (⟨.init 2, [], false⟩ : ClosingPool ℕ)
      [.client (.size 0), .client (.wait 0), .client (.pop 0), .client (.size 1), .destroy,
        .client (.release 0), .client (.size 2), .client (.wait 1), .client (.post 0),
        .client (.wait 2), .client (.pop 2), .client (.pop 1)]
    (s.pool.faulted = true ∧ s.closed = [1] ∧ s.pool.client 2 = .holding (some 0)) ∧
      (∀ con, con < 2 →
        (s.closed.count con = 1 ∧ con ∉ s.pool.connList ∧
            ∀ p, s.pool.client p ≠ .holding (some con)) ∨
          (con ∉ s.closed ∧ s.pool.connList.count con = 1 ∧
            ∀ p, s.pool.client p ≠ .holding (some con)) ∨
          (con ∉ s.closed ∧ con ∉ s.pool.connList ∧
            ∃! p, s.pool.client p = .holding (some con))) ∧
      s.pool.freeConn = s.pool.connList.length ∧
      s.pool.curConn ≤ census {0, 1, 2} Client.busy s.pool.client ∧
      (s.pool.faulted = true → s.disturbed = true) := by
  have starts : (shutdownMachine {0, 1, 2} 2).init (⟨.init 2, [], false⟩ : ClosingPool ℕ) := rfl
  have follows : (shutdownMachine {0, 1, 2} 2).Follows (fun _ _ => True)
      (⟨.init 2, [], false⟩ : ClosingPool ℕ)
      [.client (.size 0), .client (.wait 0), .client (.pop 0), .client (.size 1), .destroy,
        .client (.release 0), .client (.size 2), .client (.wait 1), .client (.post 0),
        .client (.wait 2), .client (.pop 2), .client (.pop 1)] := by
    decide +kernel
  exact ⟨by decide +kernel,
    closedOnce_of_reachable {0, 1, 2} 2 _ ((Machine.Reaches.start starts).follow follows)⟩

end Shut

end CoroutineService.Database
