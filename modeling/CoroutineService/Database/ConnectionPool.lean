import CoroutineService.Transition.Census
import CoroutineService.Transition.Lease
import CoroutineService.Transition.Machine
import Mathlib.Data.List.Range

/-!
# The pool of database connections

`get_connection` looks at the size of the list, waits for the semaphore `reserve` and then
takes the first connection off the list under the lock; `release_connection` puts it back
under the lock and then posts. The semaphore lags behind the list: it counts the connections
that nobody is about to take and whose return has been announced.

A client is a run of `handleClient`. For each request it gets a connection, which
registration passes to `mysql_query`, and gives it back.

## Main definitions

* `ConnectionPool`, `Client`: the pool, and where a client stands
* `poolMachine`: the steps of all clients
* `Accounted`: the semaphore against the list, and connections against their holders
* `Stocked`: the list is not empty when its size is looked at

## Main results

* `one_holder`: a connection is in the list or has one holder
* `connected_of_reaches`: clients get connections, if they find the list stocked
* `null_of_empty`: and otherwise `nullptr`
-/

set_option autoImplicit false

namespace CoroutineService.Database

open CoroutineService.Transition

/-- Where a client stands. -/
inductive Client
  | idle
  -- In `get_connection`, past the test of the size.
  | sized
  -- Past `reserve.wait()`.
  | granted
  -- `get_connection` has returned this; `nullptr` is `none`.
  | holding (con : Option ℕ)
  -- In `release_connection`, before `reserve.post()`.
  | posting
  deriving DecidableEq

namespace Client

/-- What `get_connection` has returned. -/
def held : Client → Option (Option ℕ)
  | holding con => some con
  | _ => none

/-- The connection a client holds. -/
def connection (c : Client) : Option ℕ := c.held.join

/-- About to take a connection off the list. -/
def popping : Client → Bool
  | granted => true
  | _ => false

/-- About to announce a connection. -/
def returning : Client → Bool
  | posting => true
  | _ => false

end Client

/-- `Connection_pool` and its clients. Connections are named in the order in which they are
made. `faulted` tells that `front` was called on an empty list. -/
structure ConnectionPool (Cid : Type*) where
  connList : List ℕ
  freeConn : ℤ
  curConn : ℤ
  reserve : ℕ
  client : Cid → Client
  faulted : Bool

/-- The steps of the clients. -/
inductive PoolMove (Cid : Type*)
  | size (p : Cid)
  | wait (p : Cid)
  | pop (p : Cid)
  | query (p : Cid)
  | release (p : Cid)
  | post (p : Cid)

namespace ConnectionPool

variable {Cid : Type*}

/-- The loop of `init`: connections are made and put into the list. -/
def connect : ℕ → ConnectionPool Cid → ConnectionPool Cid
  | 0, s => s
  | n + 1, s =>
    connect n { s with
      connList := s.connList ++ [s.connList.length], freeConn := s.freeConn + 1 }

/-- A pool after `init` with `n` connections. -/
def init (n : ℕ) : ConnectionPool Cid :=
  let s := connect n ⟨[], 0, 0, 0, fun _ => .idle, false⟩
  { s with reserve := s.freeConn.toNat }

variable [DecidableEq Cid] (s : ConnectionPool Cid) (p : Cid)

/-- The client goes on. -/
def become (phase : Client) : ConnectionPool Cid :=
  { s with client := Function.update s.client p phase }

/-- `if(conn_list.size()==0) return nullptr;` -/
def size : ConnectionPool Cid :=
  if s.connList.length = 0 then s.become p (.holding none) else s.become p .sized

/-- `reserve.wait()`, when it does not block. -/
def wait : ConnectionPool Cid := { s.become p .granted with reserve := s.reserve - 1 }

/-- The section of `get_connection` under the lock. -/
def pop : ConnectionPool Cid :=
  match s.connList with
  | [] => { s with faulted := true }
  | con :: rest =>
    { s.become p (.holding (some con)) with
      connList := rest, freeConn := s.freeConn - 1, curConn := s.curConn + 1 }

/-- `release_connection` up to the end of its section under the lock. -/
def release (con : Option ℕ) : ConnectionPool Cid :=
  match con with
  | none => s.become p .idle
  | some con =>
    { s.become p .posting with
      connList := s.connList ++ [con], freeConn := s.freeConn + 1, curConn := s.curConn - 1 }

/-- `reserve.post()`. -/
def post : ConnectionPool Cid := { s.become p .idle with reserve := s.reserve + 1 }

end ConnectionPool

section Machine

variable {Cid : Type*} [DecidableEq Cid]

/-- The clients share a pool of `n` connections. A client gives back what it was given. -/
def poolMachine (clients : Finset Cid) (n : ℕ) : Machine (ConnectionPool Cid) (PoolMove Cid) where
  init s := s = .init n
  enabled s
    | .size p => p ∈ clients ∧ s.client p = .idle
    | .wait p => p ∈ clients ∧ s.client p = .sized ∧ 0 < s.reserve
    | .pop p => p ∈ clients ∧ s.client p = .granted
    | .query p | .release p => p ∈ clients ∧ (s.client p).held.isSome = true
    | .post p => p ∈ clients ∧ s.client p = .posting
  next s
    | .size p => s.size p
    | .wait p => s.wait p
    | .pop p => s.pop p
    | .query _ => s
    | .release p =>
      match (s.client p).held with
      | some con => s.release p con
      | none => s
    | .post p => s.post p

instance (clients : Finset Cid) (n : ℕ) (s : ConnectionPool Cid) (a : PoolMove Cid) :
    Decidable ((poolMachine clients n).enabled s a) := by
  induction a using PoolMove.casesOn <;> (dsimp only [poolMachine]; infer_instance)

end Machine

/-! ### The semaphore and the list -/

section Account

variable {Cid : Type*} {clients : Finset Cid} {n : ℕ}

/-- The semaphore stands for the connections in the list that nobody is about to take and
whose return has been announced; the list and the clients share the connections. -/
structure Accounted (clients : Finset Cid) (n : ℕ) (s : ConnectionPool Cid) : Prop where
  leased : Leased Client.connection (fun con => con < n) s.connList s.client
  reserve : s.reserve + census clients Client.popping s.client +
    census clients Client.returning s.client = s.connList.length
  free : s.freeConn = s.connList.length
  total : s.freeConn + s.curConn = n
  safe : s.faulted = false

theorem connList_connect (k : ℕ) (s : ConnectionPool Cid) (range : s.connList = List.range n) :
    (ConnectionPool.connect k s).connList = List.range (n + k) ∧
      (ConnectionPool.connect k s).freeConn = s.freeConn + k ∧
      (ConnectionPool.connect k s).curConn = s.curConn ∧
      (ConnectionPool.connect k s).client = s.client ∧
      (ConnectionPool.connect k s).faulted = s.faulted := by
  induction k generalizing s n with
  | zero => exact ⟨range, (Int.add_zero _).symm, rfl, rfl, rfl⟩
  | succ k ih =>
    have next : s.connList ++ [s.connList.length] = List.range (n + 1) := by
      rw [range, List.length_range, List.range_succ]
    obtain ⟨list, free, rest⟩ := ih (n := n + 1) { s with
      connList := s.connList ++ [s.connList.length], freeConn := s.freeConn + 1 } next
    refine ⟨?_, ?_, rest⟩
    · rw [Nat.add_right_comm] at list
      exact list
    · refine free.trans ?_
      push_cast
      omega

theorem accounted_init (clients : Finset Cid) (n : ℕ) : Accounted clients n (.init n) := by
  obtain ⟨list, free, cur, client, safe⟩ := connList_connect (n := 0) n
    (⟨[], 0, 0, 0, fun _ => .idle, false⟩ : ConnectionPool Cid) rfl
  rw [Nat.zero_add] at list
  rw [Int.zero_add] at free
  let made := ConnectionPool.connect n
    (⟨[], 0, 0, 0, fun _ => .idle, false⟩ : ConnectionPool Cid)
  have same : (ConnectionPool.init n : ConnectionPool Cid) =
      { made with reserve := made.freeConn.toNat } := rfl
  rw [same]
  have nobody : ∀ inside : Client → Bool, inside .idle = false →
      census clients inside made.client = 0 := fun inside out =>
    census_eq_zero_iff.mpr fun p _ => by rw [client]; exact out
  refine ⟨?_, ?_, ?_, ?_, safe⟩
  · have all := Leased.start Client.connection made.client (List.nodup_range (n := n))
      fun p => by rw [client]; rfl
    show Leased Client.connection (fun con => con < n) made.connList made.client
    rw [list]
    simpa only [List.mem_range] using all
  · show made.freeConn.toNat + census clients Client.popping made.client +
      census clients Client.returning made.client = made.connList.length
    rw [nobody _ rfl, nobody _ rfl, free, list, List.length_range]
    rfl
  · show made.freeConn = made.connList.length
    rw [free, list, List.length_range]
  · show made.freeConn + made.curConn = n
    rw [free, cur]
    exact Int.add_zero _

variable {s : ConnectionPool Cid} {p : Cid}

namespace Accounted

/-- Nobody calls `front` on an empty list: the semaphore has let a client through for a
connection that is still there. -/
theorem ne_nil (accounted : Accounted clients n s) (member : p ∈ clients)
    (granted : s.client p = .granted) : s.connList ≠ [] := by
  have waiting : 0 < census clients Client.popping s.client :=
    census_pos member (by rw [granted]; rfl)
  have balance := accounted.reserve
  intro empty
  rw [empty] at balance
  simp only [List.length_nil] at balance
  omega

variable [DecidableEq Cid]

/-- A client that neither holds a connection nor announces or takes one goes on. -/
theorem turn (accounted : Accounted clients n s) {v : Client}
    (before : s.client p = .idle ∨ s.client p = .sized ∨ s.client p = .holding none)
    (after : v = .idle ∨ v = .sized ∨ v = .holding none) :
    Accounted clients n (s.become p v) := by
  have quiet : ∀ c : Client, c = .idle ∨ c = .sized ∨ c = .holding none →
      c.connection = none ∧ c.popping = false ∧ c.returning = false := by
    rintro c (rfl | rfl | rfl) <;> exact ⟨rfl, rfl, rfl⟩
  obtain ⟨nothing, notPopping, notReturning⟩ := quiet _ before
  obtain ⟨nothing', notPopping', notReturning'⟩ := quiet _ after
  refine ⟨accounted.leased.turn nothing nothing', ?_, accounted.free, accounted.total,
    accounted.safe⟩
  show s.reserve + census clients Client.popping (Function.update s.client p v) +
    census clients Client.returning (Function.update s.client p v) = s.connList.length
  rw [census_update_same (by rw [notPopping, notPopping']),
    census_update_same (by rw [notReturning, notReturning'])]
  exact accounted.reserve

theorem size (accounted : Accounted clients n s) (idle : s.client p = .idle) :
    Accounted clients n (s.size p) := by
  unfold ConnectionPool.size
  split
  · exact accounted.turn (.inl idle) (.inr (.inr rfl))
  · exact accounted.turn (.inl idle) (.inr (.inl rfl))

/-- The semaphore hands a connection to the client before the list does. -/
theorem wait (accounted : Accounted clients n s) (member : p ∈ clients)
    (sized : s.client p = .sized) (positive : 0 < s.reserve) :
    Accounted clients n (s.wait p) := by
  refine ⟨accounted.leased.turn (by rw [sized]; rfl) rfl, ?_, accounted.free, accounted.total,
    accounted.safe⟩
  show s.reserve - 1 + census clients Client.popping (Function.update s.client p .granted) +
    census clients Client.returning (Function.update s.client p .granted) = s.connList.length
  rw [census_update_enter member (by rw [sized]; rfl) rfl,
    census_update_same (by rw [sized]; rfl)]
  have balance := accounted.reserve
  omega

theorem pop (accounted : Accounted clients n s) (member : p ∈ clients)
    (granted : s.client p = .granted) : Accounted clients n (s.pop p) := by
  have filled := accounted.ne_nil member granted
  have balance := accounted.reserve
  have free := accounted.free
  have total := accounted.total
  have leased := accounted.leased
  have waiting : 0 < census clients Client.popping s.client :=
    census_pos member (by rw [granted]; rfl)
  unfold ConnectionPool.pop
  split
  case h_1 empty => exact absurd empty filled
  case h_2 con rest whole =>
    rw [whole] at leased balance free
    simp only [List.length_cons] at balance free
    refine ⟨leased.take (by rw [granted]; rfl) rfl, ?_, ?_, ?_, accounted.safe⟩
    · show s.reserve + census clients Client.popping
        (Function.update s.client p (.holding (some con))) + census clients Client.returning
        (Function.update s.client p (.holding (some con))) = rest.length
      rw [census_update_leave member (by rw [granted]; rfl) rfl,
        census_update_same (by rw [granted]; rfl)]
      omega
    · show s.freeConn - 1 = rest.length
      omega
    · show s.freeConn - 1 + (s.curConn + 1) = n
      omega

theorem release (accounted : Accounted clients n s) (member : p ∈ clients) {con : Option ℕ}
    (holding : s.client p = .holding con) : Accounted clients n (s.release p con) := by
  cases con with
  | none => exact accounted.turn (.inr (.inr holding)) (.inl rfl)
  | some con =>
    have balance := accounted.reserve
    have free := accounted.free
    have total := accounted.total
    refine ⟨accounted.leased.giveBack (by rw [holding]; rfl) rfl, ?_, ?_, ?_, accounted.safe⟩
    · show s.reserve + census clients Client.popping (Function.update s.client p .posting) +
        census clients Client.returning (Function.update s.client p .posting) =
          (s.connList ++ [con]).length
      rw [census_update_same (by rw [holding]; rfl),
        census_update_enter member (by rw [holding]; rfl) rfl, List.length_append,
        List.length_singleton]
      omega
    · show s.freeConn + 1 = ((s.connList ++ [con]).length : ℤ)
      rw [List.length_append, List.length_singleton]
      omega
    · show s.freeConn + 1 + (s.curConn - 1) = n
      omega

theorem post (accounted : Accounted clients n s) (member : p ∈ clients)
    (posting : s.client p = .posting) : Accounted clients n (s.post p) := by
  refine ⟨accounted.leased.turn (by rw [posting]; rfl) rfl, ?_, accounted.free, accounted.total,
    accounted.safe⟩
  have announcing : 0 < census clients Client.returning s.client :=
    census_pos member (by rw [posting]; rfl)
  show s.reserve + 1 + census clients Client.popping (Function.update s.client p .idle) +
    census clients Client.returning (Function.update s.client p .idle) = s.connList.length
  rw [census_update_same (by rw [posting]; rfl),
    census_update_leave member (by rw [posting]; rfl) rfl]
  have balance := accounted.reserve
  omega

theorem next (accounted : Accounted clients n s) {a : PoolMove Cid}
    (available : (poolMachine clients n).enabled s a) :
    Accounted clients n ((poolMachine clients n).next s a) := by
  cases a with
  | size p => exact accounted.size available.2
  | wait p => exact accounted.wait available.1 available.2.1 available.2.2
  | pop p => exact accounted.pop available.1 available.2
  | query p => exact accounted
  | release p =>
    obtain ⟨member, holds⟩ := available
    show Accounted clients n (match (s.client p).held with
      | some con => s.release p con
      | none => s)
    cases phase : s.client p with
    | holding con => exact accounted.release member phase
    | idle | sized | granted | posting => exact accounted
  | post p => exact accounted.post available.1 available.2

end Accounted

variable [DecidableEq Cid]

theorem accounted_of_poolMachine (reached : (poolMachine clients n).Reachable s) :
    Accounted clients n s := by
  refine reached.invariant (I := Accounted clients n) ?_ ?_
  · rintro _ rfl
    exact accounted_init clients n
  · exact fun s a accounted available _ => accounted.next available

/-- In every run `front` is called on a list that is not empty, a connection is in the list
once or with one client, and the counters agree with the list. -/
theorem one_holder (clients : Finset Cid) (n : ℕ) (s : ConnectionPool Cid)
    (reached : (poolMachine clients n).Reachable s) :
    s.faulted = false ∧
      (∀ con, con < n →
        (s.connList.count con = 1 ∧ ∀ p, s.client p ≠ .holding (some con)) ∨
          (con ∉ s.connList ∧ ∃! p, s.client p = .holding (some con))) ∧
      s.freeConn = s.connList.length ∧ s.freeConn + s.curConn = n := by
  have accounted := accounted_of_poolMachine reached
  have holds : ∀ (c : Client) con, c.connection = some con ↔ c = .holding (some con) := by
    intro c con
    cases c <;> simp [Client.connection, Client.held]
  refine ⟨accounted.safe, fun con made => ?_, accounted.free, accounted.total⟩
  have place := accounted.leased.one_place made
  simpa only [ne_eq, holds] using place

/-- Two of three clients share the first of two connections one after the other, while the
third holds the second. -/
theorem one_holder_shared :
    let s := (poolMachine {0, 1, 2} 2).after (.init 2 : ConnectionPool ℕ)
      [.size 0, .wait 0, .size 1, .pop 0, .wait 1, .release 0, .size 2, .pop 1, .post 0, .wait 2,
        .pop 2]
    (s.client 1 = .holding (some 1) ∧ s.client 2 = .holding (some 0)) ∧ s.faulted = false ∧
      (∀ con, con < 2 →
        (s.connList.count con = 1 ∧ ∀ p, s.client p ≠ .holding (some con)) ∨
          (con ∉ s.connList ∧ ∃! p, s.client p = .holding (some con))) ∧
      s.freeConn = s.connList.length ∧ s.freeConn + s.curConn = (2 : ℕ) := by
  have starts : (poolMachine {0, 1, 2} 2).init (.init 2 : ConnectionPool ℕ) := rfl
  have follows : (poolMachine {0, 1, 2} 2).Follows (fun _ _ => True)
      (.init 2 : ConnectionPool ℕ)
      [.size 0, .wait 0, .size 1, .pop 0, .wait 1, .release 0, .size 2, .pop 1, .post 0, .wait 2,
        .pop 2] := by
    decide +kernel
  exact ⟨by decide +kernel,
    one_holder {0, 1, 2} 2 _ ((Machine.Reaches.start starts).follow follows)⟩

/-! ### Connections for everybody -/

/-- The connections that `mysql_query` is called with. -/
def queried (s : ConnectionPool Cid) (a : PoolMove Cid) (queries : List (Option ℕ)) :
    List (Option ℕ) :=
  match a with
  | .query p => (s.client p).held.toList ++ queries
  | _ => queries

/-- `get_connection` finds a connection in the list when it looks at its size. -/
def Stocked (s : ConnectionPool Cid) : PoolMove Cid → Prop
  | .size _ => s.connList ≠ []
  | _ => True

instance (s : ConnectionPool Cid) (a : PoolMove Cid) : Decidable (Stocked s a) := by
  induction a using PoolMove.casesOn <;> (dsimp only [Stocked]; infer_instance)

/-- Nobody has been given `nullptr`. -/
def Connected (s : ConnectionPool Cid) (queries : List (Option ℕ)) : Prop :=
  (∀ p con, s.client p = .holding con → con ≠ none) ∧ ∀ con ∈ queries, con ≠ none

theorem Connected.become {queries : List (Option ℕ)} (connected : Connected s queries) {v : Client}
    (after : v ≠ .holding none) : Connected (s.become p v) queries := by
  refine ⟨fun q con holding => ?_, connected.2⟩
  have phase : Function.update s.client p v q = .holding con := holding
  by_cases here : q = p
  · rw [here, Function.update_self] at phase
    rintro rfl
    exact after phase
  · rw [Function.update_of_ne here] at phase
    exact connected.1 q con phase

theorem Connected.next (clients : Finset Cid) (n : ℕ) {queries : List (Option ℕ)}
    (connected : Connected s queries) {a : PoolMove Cid} (stocked : Stocked s a) :
    Connected ((poolMachine clients n).next s a) (queried s a queries) := by
  cases a with
  | size p =>
    show Connected (s.size p) queries
    unfold ConnectionPool.size
    rw [if_neg (fun empty => stocked (List.length_eq_zero_iff.mp empty))]
    exact connected.become Client.noConfusion
  | wait p => exact connected.become Client.noConfusion
  | pop p =>
    show Connected (s.pop p) queries
    unfold ConnectionPool.pop
    split
    · exact connected
    · exact connected.become (by simp)
  | query p =>
    refine ⟨connected.1, fun con mem => ?_⟩
    rcases List.mem_append.mp mem with now | before
    · -- only a client that holds something calls `mysql_query`
      cases phase : s.client p with
      | holding con' =>
        rw [phase] at now
        rw [List.mem_singleton.mp now]
        exact connected.1 p con' phase
      | idle | sized | granted | posting =>
        rw [phase] at now
        exact absurd now List.not_mem_nil
    · exact connected.2 con before
  | release p =>
    show Connected (match (s.client p).held with
      | some con => s.release p con
      | none => s) queries
    split
    case h_1 con _ =>
      cases con with
      | none => exact connected.become Client.noConfusion
      | some con => exact connected.become Client.noConfusion
    case h_2 => exact connected
  | post p => exact connected.become Client.noConfusion

/-- If the list is never empty when its size is looked at, every client is given a connection
and `mysql_query` is called with one. -/
theorem connected_of_reaches {q : ConnectionPool Cid × List (Option ℕ)}
    (reached : ((poolMachine clients n).observe [] queried).Reaches
      (fun q a => Stocked q.1 a) q) : Connected q.1 q.2 := by
  refine reached.invariant (I := fun q => Connected q.1 q.2) ?_ ?_
  · rintro ⟨_, _⟩ ⟨rfl, rfl⟩
    have client : ∀ p, (ConnectionPool.init n : ConnectionPool Cid).client p = .idle := by
      obtain ⟨-, -, -, client, -⟩ := connList_connect (n := 0) n
        (⟨[], 0, 0, 0, fun _ => .idle, false⟩ : ConnectionPool Cid) rfl
      exact fun p => congrFun client p
    refine ⟨fun p con holding => ?_, fun con mem => absurd mem List.not_mem_nil⟩
    rw [client p] at holding
    cases holding
  · exact fun q a connected _ stocked => connected.next clients n stocked

/-- A client that finds the list empty is given `nullptr`. -/
theorem null_of_empty (empty : ¬Stocked s (.size p)) :
    ((poolMachine clients n).next s (.size p)).client p = .holding none := by
  show (s.size p).client p = .holding none
  have nothing : s.connList = [] := by
    by_contra filled
    exact empty filled
  unfold ConnectionPool.size
  rw [if_pos (List.length_eq_zero_iff.mpr nothing)]
  exact Function.update_self _ _ _

end Account

/-- A client waits while another one holds the connection. -/
theorem connected_waiting :
    let q := ((poolMachine {0, 1} 1).observe [] queried).after
      ((.init 1, []) : ConnectionPool ℕ × List (Option ℕ))
      [.size 0, .size 1, .wait 1, .pop 1, .query 1, .release 1, .post 1, .wait 0, .pop 0, .query 0]
    q.2 = [some 0, some 0] ∧ Connected q.1 q.2 := by
  have starts : ((poolMachine {0, 1} 1).observe [] queried).init
      ((.init 1, []) : ConnectionPool ℕ × List (Option ℕ)) := ⟨rfl, rfl⟩
  have follows : ((poolMachine {0, 1} 1).observe [] queried).Follows (fun q a => Stocked q.1 a)
      ((.init 1, []) : ConnectionPool ℕ × List (Option ℕ))
      [.size 0, .size 1, .wait 1, .pop 1, .query 1, .release 1, .post 1, .wait 0, .pop 0,
        .query 0] := by
    decide +kernel
  exact ⟨by decide +kernel, connected_of_reaches ((Machine.Reaches.start starts).follow follows)⟩

/-- A client that comes while another one holds the only connection does not wait; it calls
`mysql_query` without one. -/
theorem null_connection :
    ¬ ∀ (clients : Finset ℕ) (n : ℕ), 1 ≤ n → ∀ q : ConnectionPool ℕ × List (Option ℕ),
      ((poolMachine clients n).observe [] queried).Reachable q → Connected q.1 q.2 := by
  intro connected
  have starts : ((poolMachine {0, 1} 1).observe [] queried).init
      ((.init 1, []) : ConnectionPool ℕ × List (Option ℕ)) := ⟨rfl, rfl⟩
  have follows : ((poolMachine {0, 1} 1).observe [] queried).Follows (fun _ _ => True)
      ((.init 1, []) : ConnectionPool ℕ × List (Option ℕ))
      [.size 0, .wait 0, .pop 0, .size 1, .query 1] := by
    decide +kernel
  have all := (connected {0, 1} 1 le_rfl _ ((Machine.Reaches.start starts).follow follows)).2
  have null : none ∈ (((poolMachine {0, 1} 1).observe [] queried).after
      ((.init 1, []) : ConnectionPool ℕ × List (Option ℕ))
      [.size 0, .wait 0, .pop 0, .size 1, .query 1]).2 := by
    decide +kernel
  exact all none null rfl

end CoroutineService.Database
