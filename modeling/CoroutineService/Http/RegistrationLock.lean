import CoroutineService.Scheduler.FiberSafety

/-!
# Fibers that lock `m_lock`

A registration holds the `std::mutex` `m_lock` while `mysql_query` is under way. The
query reads from a socket through the hook, so that its fiber may be parked with the
lock held, and a thread that calls `m_lock.lock()` then is blocked together with the
fiber it executes.

## Main definitions

* `Locking`, `locking`: the workers, and the threads blocked in `m_lock.lock()`
* `Wedged`: all workers are blocked and the fiber with the lock is parked
* `LeavesWorker`: it is not the last worker that calls `m_lock.lock()`

## Main results

* `wedged_stays`: there is no way out
* `not_wedged_of_reaches`: no run without such a call leads there
* `wedged_next`: every such call does
* `wedges`: two registrations on one worker
-/

set_option autoImplicit false

namespace CoroutineService.Scheduler.Move

variable {Tid Fib Cb : Type*}

/-- A fiber whose function ends. -/
def ended : Move Tid Fib Cb → Option Fib
  | .terminate _ f => some f
  | _ => none

end CoroutineService.Scheduler.Move

namespace CoroutineService.Http

open CoroutineService.Scheduler CoroutineService.Transition

variable {Tid Fib Cb : Type*}

/-- The workers, which of them are blocked in `m_lock.lock()`, and the fiber that has
locked it. -/
structure Locking (Tid Fib Cb : Type*) where
  sched : Scheduler.State Tid Fib Cb
  waiting : Tid → Bool
  lock : Option Fib

/-- The steps of the workers, and those of `m_lock`. -/
inductive LockingMove (Tid Fib Cb : Type*)
  -- A step of the workers. If it is the `yield` of a fiber that has locked `m_lock`,
  -- `mysql_query` has found no data to read.
  | sched (a : Scheduler.Move Tid Fib Cb)
  -- The fiber calls `m_lock.lock()`.
  | lock (w : Tid) (f : Fib)
  -- `m_lock.lock()` returns to a thread that was blocked.
  | acquire (w : Tid) (f : Fib)
  -- `m_lock.unlock()`.
  | unlock (w : Tid) (f : Fib)
  deriving DecidableEq

section Steps

variable [DecidableEq Tid] [DecidableEq Fib]

/-- The workers, with any number of fibers that lock `m_lock`. A blocked thread takes no
step, and no fiber ends with the lock. -/
def locking (workers : Finset Tid) : Machine (Locking Tid Fib Cb) (LockingMove Tid Fib Cb) where
  init s := s = ⟨State.initial, fun _ => false, none⟩
  enabled s
    | .sched a =>
      (Scheduler.machine workers).enabled s.sched a ∧ s.waiting a.thread = false ∧
        ∀ f ∈ a.ended, s.lock ≠ some f
    | .lock w f =>
      w ∈ workers ∧ s.sched.notice w = .quiet ∧ s.sched.phase w = .inFiber f ∧
        s.waiting w = false ∧ s.lock ≠ some f
    | .acquire w f =>
      w ∈ workers ∧ s.sched.phase w = .inFiber f ∧ s.waiting w = true ∧ s.lock = none
    | .unlock w f =>
      w ∈ workers ∧ s.sched.notice w = .quiet ∧ s.sched.phase w = .inFiber f ∧
        s.waiting w = false ∧ s.lock = some f
  next s
    | .sched a => { s with sched := Scheduler.next s.sched a }
    | .lock w f =>
      match s.lock with
      | none => { s with lock := some f }
      | some _ => { s with waiting := Function.update s.waiting w true }
    | .acquire w f => { s with waiting := Function.update s.waiting w false, lock := some f }
    | .unlock _ _ => { s with lock := none }

instance [DecidableEq Cb] (workers : Finset Tid) (s : Locking Tid Fib Cb)
    (a : LockingMove Tid Fib Cb) : Decidable ((locking workers).enabled s a) := by
  cases a <;> (dsimp only [locking]; infer_instance)

end Steps

/-- No worker is executing the fiber. -/
def Parked (workers : Finset Tid) (s : Locking Tid Fib Cb) (f : Fib) : Prop :=
  ∀ w ∈ workers, ¬(s.sched.phase w).runs f

/-- Every worker is blocked in `m_lock.lock()`, and the fiber that has locked `m_lock` is
parked. -/
def Wedged (workers : Finset Tid) (s : Locking Tid Fib Cb) : Prop :=
  (∀ w ∈ workers, s.waiting w = true) ∧ ∃ f, s.lock = some f ∧ Parked workers s f

/-- `m_lock.lock()` is not called while the fiber that has locked `m_lock` is parked and all
other workers are blocked. -/
def LeavesWorker (workers : Finset Tid) (s : Locking Tid Fib Cb) :
    LockingMove Tid Fib Cb → Prop
  | .lock w _ => ∀ f ∈ s.lock, Parked workers s f →
      ∃ v ∈ workers, v ≠ w ∧ s.waiting v = false
  | .sched _ | .acquire _ _ | .unlock _ _ => True

section Instances

variable [DecidableEq Tid] [DecidableEq Fib]

instance (f : Fib) (v : Phase Tid Fib Cb) : Decidable (v.runs f) := by
  cases v <;> (dsimp only [Phase.runs]; infer_instance)

instance (workers : Finset Tid) (s : Locking Tid Fib Cb) (f : Fib) :
    Decidable (Parked workers s f) :=
  inferInstanceAs (Decidable (∀ w ∈ workers, ¬_))

instance (workers : Finset Tid) (s : Locking Tid Fib Cb) (a : LockingMove Tid Fib Cb) :
    Decidable (LeavesWorker workers s a) := by
  cases a <;> (dsimp only [LeavesWorker]; infer_instance)

end Instances

variable [DecidableEq Tid] [DecidableEq Fib] {workers : Finset Tid} {s s' : Locking Tid Fib Cb}
  {permitted : Locking Tid Fib Cb → LockingMove Tid Fib Cb → Prop}

/-- The workers of a run run as they do without `m_lock`. -/
theorem sched_reachable (reached : (locking workers).Reaches permitted s) :
    (Scheduler.machine workers).Reachable s.sched := by
  refine reached.project Locking.sched ?_ ?_
  · rintro s rfl
    rfl
  · intro s a available _
    cases a with
    | sched a => exact .inr ⟨a, available.1, trivial, rfl⟩
    | lock w f =>
      refine .inl ?_
      show Locking.sched (match s.lock with | none => _ | some _ => _) = s.sched
      split
      · rfl
      · rfl
    | acquire w f | unlock w f => exact .inl rfl

/-- A blocked thread executes a fiber that has not locked `m_lock`. -/
def Blocked (s : Locking Tid Fib Cb) : Prop :=
  ∀ w, s.waiting w = true → ∃ f, s.sched.phase w = .inFiber f ∧ s.lock ≠ some f

namespace Blocked

omit [DecidableEq Tid] [DecidableEq Fib] in
/-- A blocked thread does not run the fiber that has locked `m_lock`. -/
theorem not_runs (blocked : Blocked s) {w : Tid} {f : Fib} (waits : s.waiting w = true)
    (locked : s.lock = some f) : ¬(s.sched.phase w).runs f := by
  obtain ⟨g, phase, other⟩ := blocked w waits
  rw [phase]
  rintro rfl
  exact other locked

omit [DecidableEq Tid] [DecidableEq Fib] in
/-- The thread that locks `m_lock` is the only one that executes its fiber. -/
theorem take (blocked : Blocked s) (safe : FiberSafe s.sched) {w : Tid} {f : Fib}
    (phase : s.sched.phase w = .inFiber f) {waiting : Tid → Bool} (goes : waiting w = false)
    (others : ∀ v, waiting v = true → s.waiting v = true) :
    Blocked { s with waiting, lock := some f } := by
  intro v waits
  obtain ⟨g, phase', -⟩ := blocked v (others v waits)
  refine ⟨g, phase', fun same => ?_⟩
  obtain rfl : f = g := Option.some_inj.mp same
  obtain rfl : v = w := safe.kept.unique (k := f)
    (by rw [phase']; rfl) (by rw [phase]; rfl)
  exact absurd (waits.symm.trans goes) nofun

theorem next (blocked : Blocked s) (safe : FiberSafe s.sched) {a : LockingMove Tid Fib Cb}
    (available : (locking workers).enabled s a) : Blocked ((locking workers).next s a) := by
  cases a with
  | sched a =>
    intro v waits
    obtain ⟨f, phase, other⟩ := blocked v waits
    refine ⟨f, ?_, other⟩
    have elsewhere : a.worker ≠ some v := fun step => by
      have still := available.2.1
      rw [Move.thread_of_worker step] at still
      exact absurd (waits.symm.trans still) nofun
    exact (phase_next_of_ne elsewhere).trans phase
  | lock w f =>
    obtain ⟨-, -, phase, goes, other⟩ := available
    show Blocked (match s.lock with
      | none => { s with lock := some f }
      | some _ => { s with waiting := Function.update s.waiting w true })
    split
    · exact blocked.take safe phase goes fun _ waits => waits
    · intro v waits
      by_cases here : v = w
      · subst here
        exact ⟨f, phase, other⟩
      · have waits' : Function.update s.waiting w true v = true := waits
        rw [Function.update_of_ne here] at waits'
        exact blocked v waits'
  | acquire w f =>
    refine blocked.take safe available.2.1 (Function.update_self ..) fun v waits => ?_
    by_cases here : v = w
    · rw [here, Function.update_self] at waits
      cases waits
    · rwa [Function.update_of_ne here] at waits
  | unlock w f =>
    intro v waits
    obtain ⟨g, phase, -⟩ := blocked v waits
    exact ⟨g, phase, nofun⟩

end Blocked

theorem blocked_of_reaches (reached : (locking workers).Reaches permitted s) : Blocked s := by
  refine reached.invariant_of (fun s reached => fiberSafe_of_reachable (sched_reachable reached))
    ?_ ?_
  · rintro _ rfl w waits
    cases waits
  · intro s a safe blocked available _
    exact blocked.next safe available

/-- A scheduler that is wedged stays wedged. -/
theorem wedged_stays (wedged : Wedged workers s)
    (leads : (locking workers).Leads (fun _ _ => True) s s') : Wedged workers s' := by
  refine leads.preserved (I := Wedged workers) (fun s a wedged available _ => ?_) wedged
  obtain ⟨waits, f, locked, parked⟩ := wedged
  cases a with
  | sched a =>
    refine ⟨waits, f, locked, fun w member => ?_⟩
    have elsewhere : a.worker ≠ some w := fun step => by
      have still := available.2.1
      rw [Move.thread_of_worker step] at still
      exact absurd ((waits w member).symm.trans still) nofun
    show ¬((Scheduler.next s.sched a).phase w).runs f
    rw [phase_next_of_ne elsewhere]
    exact parked w member
  | lock w g => exact absurd ((waits w available.1).symm.trans available.2.2.2.1) nofun
  | acquire w g => exact absurd (locked.symm.trans available.2.2.2) nofun
  | unlock w g => exact absurd ((waits w available.1).symm.trans available.2.2.2.1) nofun

/-- A scheduler is wedged only by a worker that calls `m_lock.lock()` last. -/
theorem not_wedged_next (free : ¬Wedged workers s) (blocked : Blocked s)
    {a : LockingMove Tid Fib Cb} (available : (locking workers).enabled s a)
    (leaves : LeavesWorker workers s a) : ¬Wedged workers ((locking workers).next s a) := by
  rintro ⟨waits, f, locked, -⟩
  -- if all workers are blocked, the fiber that has locked `m_lock` is parked
  have parked : ∀ g, s.lock = some g → (∀ w ∈ workers, s.waiting w = true) → Parked workers s g :=
    fun g held all w member => blocked.not_runs (all w member) held
  cases a with
  | sched a => exact free ⟨waits, f, locked, parked f locked waits⟩
  | lock w g =>
    obtain ⟨member, -, phase, goes, other⟩ := available
    cases held : s.lock with
    | none =>
      have result : (locking workers).next s (.lock w g) = { s with lock := some g } := by
        show (match s.lock with | none => _ | some _ => _) = _
        rw [held]
      rw [result] at waits
      exact absurd ((waits w member).symm.trans goes) nofun
    | some h =>
      have result : (locking workers).next s (.lock w g) =
          { s with waiting := Function.update s.waiting w true } := by
        show (match s.lock with | none => _ | some _ => _) = _
        rw [held]
      rw [result] at waits
      have others : ∀ v ∈ workers, v ≠ w → s.waiting v = true := fun v member' different => by
        have waits' : Function.update s.waiting w true v = true := waits v member'
        rwa [Function.update_of_ne different] at waits'
      have parked' : Parked workers s h := by
        intro v member'
        by_cases here : v = w
        · rw [here, phase]
          rintro rfl
          exact other held
        · exact blocked.not_runs (others v member' here) held
      obtain ⟨v, member', different, still⟩ := leaves h held parked'
      exact absurd ((others v member' different).symm.trans still) nofun
  | acquire w g =>
    have waits' : Function.update s.waiting w false w = true := waits w available.1
    rw [Function.update_self] at waits'
    cases waits'
  | unlock w g => cases locked

/-- The last worker that calls `m_lock.lock()` while the fiber that has locked it is parked
wedges the scheduler. -/
theorem wedged_next {w : Tid} {f : Fib} (last : ¬LeavesWorker workers s (.lock w f)) :
    Wedged workers ((locking workers).next s (.lock w f)) := by
  unfold LeavesWorker at last
  push Not at last
  obtain ⟨g, held, parked, others⟩ := last
  have result : (locking workers).next s (.lock w f) =
      { s with waiting := Function.update s.waiting w true } := by
    show (match s.lock with | none => _ | some _ => _) = _
    rw [held]
  rw [result]
  refine ⟨fun v member => ?_, g, held, parked⟩
  show Function.update s.waiting w true v = true
  by_cases here : v = w
  · rw [here, Function.update_self]
  · rw [Function.update_of_ne here]
    exact eq_true_of_ne_false (others v member here)

/-- In a run in which the last worker never calls `m_lock.lock()` while the fiber that has
locked it is parked, the scheduler is not wedged. -/
theorem not_wedged_of_reaches (reached : (locking workers).Reaches (LeavesWorker workers) s) :
    ¬Wedged workers s := by
  refine reached.invariant_of (I := fun s => ¬Wedged workers s)
    (fun s reached => blocked_of_reaches reached) ?_ ?_
  · rintro _ rfl ⟨-, f, locked, -⟩
    cases locked
  · intro s a blocked free available leaves
    exact not_wedged_next free blocked available leaves

/-- A worker takes a callback from the queue and executes it in a new fiber. -/
def takes (w f : ℕ) (task : ScheduleTask ℕ ℕ Unit) : List (LockingMove ℕ ℕ Unit) :=
  [.sched (.scan w), .sched (.makeFiber w task f), .sched (.resume w f), .sched (.switchIn w f)]

/-- A worker parks the fiber it executes. -/
def parks (w f : ℕ) : List (LockingMove ℕ ℕ Unit) :=
  [.sched (.yield w f), .sched (.switchOut w f), .sched (.unlockFiber w f), .sched (.finish w)]

/-- A request that any worker may serve. -/
def served : ScheduleTask ℕ ℕ Unit := ⟨none, some (), none⟩

/-- Two workers: one parks the fiber that has locked `m_lock`, the other is blocked. The
fiber is resumed, and `m_lock` passes to the other. -/
def passedOn : List (LockingMove ℕ ℕ Unit) :=
  [.sched (.scheduleLock 2 served), .sched (.hasIdleThreads 2 true),
    .sched (.startRun 0), .sched (.startRun 1)] ++
  takes 0 0 served ++
  [.lock 0 0, .sched (.scheduleLock 2 served), .sched (.hasIdleThreads 2 true)] ++
  takes 1 1 served ++
  parks 0 0 ++
  [.lock 1 1, .sched (.scheduleLock 2 ⟨some 0, none, none⟩), .sched (.hasIdleThreads 2 true),
    .sched (.scan 0), .sched (.lockFiber 0 ⟨some 0, none, none⟩ 0), .sched (.checkState 0 0),
    .sched (.resume 0 0), .sched (.switchIn 0 0), .unlock 0 0, .acquire 1 1]

theorem not_wedged_passedOn :
    let s := (locking {0, 1}).after ⟨State.initial, fun _ => false, none⟩ passedOn
    s.lock = some 1 ∧ ¬Wedged {0, 1} s := by
  have starts : (locking {0, 1}).init
      (⟨State.initial, fun _ => false, none⟩ : Locking ℕ ℕ Unit) := rfl
  have follows : (locking {0, 1}).Follows (LeavesWorker {0, 1})
      ⟨State.initial, fun _ => false, none⟩ passedOn := by
    decide +kernel
  exact ⟨by decide +kernel, not_wedged_of_reaches ((Machine.Reaches.start starts).follow follows)⟩

/-- One worker parks the fiber that has locked `m_lock`, and the next request blocks it. -/
theorem wedges :
    ¬ ∀ (workers : Finset ℕ) (s : Locking ℕ ℕ Unit), (locking workers).Reachable s →
      ¬Wedged workers s := by
  intro free
  have starts : (locking {0}).init
      (⟨State.initial, fun _ => false, none⟩ : Locking ℕ ℕ Unit) := rfl
  have follows : (locking {0}).Follows (fun _ _ => True) ⟨State.initial, fun _ => false, none⟩
      ([.sched (.scheduleLock 2 served), .sched (.hasIdleThreads 2 true), .sched (.startRun 0)] ++
        takes 0 0 served ++ [.lock 0 0] ++ parks 0 0 ++
        [.sched (.scheduleLock 2 served), .sched (.hasIdleThreads 2 true)] ++
        takes 0 1 served ++ [.lock 0 1]) := by
    decide +kernel
  refine free {0} _ ((Machine.Reaches.start starts).follow follows) ⟨?_, 0, ?_, ?_⟩
  · decide +kernel
  · decide +kernel
  · decide +kernel

end CoroutineService.Http
