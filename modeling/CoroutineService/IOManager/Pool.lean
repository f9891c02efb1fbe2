import CoroutineService.Scheduler.Accounting
import CoroutineService.Timers.Earliest

/-!
# The workers and their timers

An `IOManager` is a `Scheduler` and a `TimerManager`. Its workers look at the timers in
`IOManager::stopping`, which is three reads one after the other, and for the timeout of
`epoll_wait`; what they find expired is handed to them first and pushed afterwards. Every
label is one atomic step of one thread, and apart from that the workers do what
`Scheduler.machine` says and the timers what `Timers.sharedTimers` says.

## Main definitions

* `Pool`, `PoolMove`: the state and the steps
* `pool`: the steps of all threads

## Main results

* `sched_reachable`, `timers_reaches`: the two parts run as they do alone
-/

set_option autoImplicit false

namespace CoroutineService.IOManager

open CoroutineService.Scheduler CoroutineService.Timers CoroutineService.Transition

/-- How far a worker has come in `IOManager::stopping`. -/
inductive Reads
  -- Before `getNextTimer()`, or outside.
  | outside
  -- It has found no timer.
  | timers
  -- It has found no pending event either.
  | pending
  deriving DecidableEq, Repr

/-- The scheduler, the timers, and of each thread what it is in the middle of. -/
structure Pool (Tid Fib Cb : Type*) where
  sched : Scheduler.State Tid Fib Cb
  timers : Shared Tid Cb
  -- `m_pendingEventCount`.
  pending : ℕ
  reads : Tid → Reads
  -- The earliest deadline from which a worker has computed its last timeout.
  deadline : Tid → WithTop ℤ
  -- The thread has inserted a timer at the front, and its call of
  -- `onTimerInsertedAtFront` is not over.
  inserting : Tid → Bool
  -- What `listExpiredCb` has handed to a worker that has not pushed it yet.
  expired : Tid → List (Option Cb)

/-- The steps. -/
inductive PoolMove (Tid Fib Cb : Type*)
  -- Any step of the scheduler but those that look at the timers.
  | sched (a : Scheduler.Move Tid Fib Cb)
  -- A locked section of a timer operation, or `getNextTimer()` in `stop()`.
  | timers (p : Tid) (a : SharedMove Tid Cb)
  | listExpiredCb (w : Tid) (now now' : ℤ) (rounds : ℕ)
  -- `scheduleLock(cb)` for an expired timer.
  | scheduleExpired (w : Tid)
  -- The reads of `stopping()`: `getNextTimer()`, `m_pendingEventCount`, and
  -- `Scheduler::stopping()`.
  | readTimers (w : Tid)
  | readPending (w : Tid)
  | readQueue (w : Tid)
  -- `getNextTimer()` for the timeout.
  | computeTimeout (w : Tid)
  -- `++m_pendingEventCount` in `addEvent`, and `--m_pendingEventCount`.
  | addEvent (p : Tid)
  | endEvent (p : Tid)

variable {Tid Fib Cb : Type*}

/-- The steps of the scheduler in which a worker looks at the timers. -/
def looksAtTimers : Scheduler.Move Tid Fib Cb → Bool
  | .checkStopping _ _ | .computeTimeout _ => true
  | _ => false

/-- The thread that calls an operation on timers by itself. -/
def callsTimers (p : Tid) : SharedMove Tid Cb → Prop
  | .addTimer _ _ _ _ | .cancel _ | .refresh _ _ | .getNextTimer => True
  | .resetErase q _ _ _ | .resetInsert q _ => q = p
  | .listExpiredCb _ _ _ => False

/-- Code outside the idle loop runs on the thread `p`. -/
def executes (workers : Finset Tid) (s : Scheduler.State Tid Fib Cb) (p : Tid) : Prop :=
  p ∈ workers → match s.phase p with
    | .starting | .inFiber _ => True
    | _ => False

/-- The expired callback that a worker pushes next. -/
def expiredTask (cbs : List (Option Cb)) : ScheduleTask Tid Fib Cb := ⟨none, cbs.head?.join, none⟩

section Steps

variable [DecidableEq Tid] [DecidableEq Fib]

instance (p : Tid) (a : SharedMove Tid Cb) : Decidable (callsTimers p a) := by
  induction a using SharedMove.casesOn <;> (dsimp only [callsTimers]; infer_instance)

instance (workers : Finset Tid) (s : Scheduler.State Tid Fib Cb) (p : Tid) :
    Decidable (executes workers s p) := by
  unfold executes
  induction s.phase p using Phase.casesOn <;> (dsimp only; infer_instance)

namespace Pool

variable (s : Pool Tid Fib Cb)

/-- No worker in `run` yet, no timers, no events. -/
def initial (now : ℤ) : Pool Tid Fib Cb where
  sched := Scheduler.State.initial
  timers := ⟨.initial now, fun _ => none⟩
  pending := 0
  reads _ := .outside
  deadline _ := ⊤
  inserting _ := false
  expired _ := []

/-- A step of the scheduler. -/
def perform (a : Scheduler.Move Tid Fib Cb) : Pool Tid Fib Cb :=
  { s with sched := Scheduler.next s.sched a }

/-- A locked section on the timers. -/
def locked (a : SharedMove Tid Cb) : Pool Tid Fib Cb :=
  { s with timers := sharedTimers.next s.timers a }

/-- The worker `w` has come this far in `stopping()`. -/
def read (w : Tid) (v : Reads) : Pool Tid Fib Cb :=
  { s with reads := Function.update s.reads w v }

/-- Whose calls of `onTimerInsertedAtFront` are still not over after a step. -/
def stillInserting : Scheduler.Move Tid Fib Cb → Tid → Bool
  | .hasIdleThreads p _ =>
    if s.sched.idleThreadCount > 0 then s.inserting else Function.update s.inserting p false
  | .writePipe p _ => Function.update s.inserting p false
  | _ => s.inserting

/-- The idle fiber yields when all that has expired is pushed. -/
def mayYield : Scheduler.Move Tid Fib Cb → Prop
  | .idleYield w => s.expired w = []
  | _ => True

instance [DecidableEq Cb] (a : Scheduler.Move Tid Fib Cb) : Decidable (s.mayYield a) := by
  induction a using Scheduler.Move.casesOn <;> (dsimp only [mayYield]; infer_instance)

/-- What `listExpiredCb` adds to the callbacks. -/
def handedOut (now now' : ℤ) (rounds : ℕ) : List (Option Cb) :=
  let after := (sharedTimers.next s.timers (.listExpiredCb now now' rounds)).manager
  (after.cbs.drop s.timers.manager.cbs.length).map Prod.snd

end Pool

/-- The workers of an IOManager, its timers, and all threads that use them. -/
def pool (workers : Finset Tid) : Machine (Pool Tid Fib Cb) (PoolMove Tid Fib Cb) where
  init s := ∃ now, s = Pool.initial now
  enabled s
    | .sched a =>
      (Scheduler.machine workers).enabled s.sched a ∧ looksAtTimers a = false ∧ s.mayYield a
    | .timers p a =>
      s.sched.aborted = false ∧ s.sched.notice p = .quiet ∧ executes workers s.sched p ∧
        callsTimers p a ∧ sharedTimers.enabled s.timers a
    | .listExpiredCb w now now' rounds =>
      s.sched.aborted = false ∧ w ∈ workers ∧
        (s.sched.phase w = .woken true ∨ s.sched.phase w = .woken false) ∧
        sharedTimers.enabled s.timers (.listExpiredCb now now' rounds)
    | .scheduleExpired w =>
      s.expired w ≠ [] ∧ w ∈ workers ∧
        (s.sched.phase w = .woken true ∨ s.sched.phase w = .woken false) ∧
        (Scheduler.machine workers).enabled s.sched (.scheduleLock w (expiredTask (s.expired w)))
    | .readTimers w =>
      (Scheduler.machine workers).enabled s.sched (.checkStopping w false) ∧ s.reads w = .outside
    | .readPending w =>
      (Scheduler.machine workers).enabled s.sched (.checkStopping w false) ∧ s.reads w = .timers
    | .readQueue w =>
      (Scheduler.machine workers).enabled s.sched (.checkStopping w true) ∧ s.reads w = .pending
    | .computeTimeout w => (Scheduler.machine workers).enabled s.sched (.computeTimeout w)
    | .addEvent p =>
      s.sched.aborted = false ∧ s.sched.notice p = .quiet ∧ executes workers s.sched p
    | .endEvent p =>
      s.sched.aborted = false ∧ s.sched.notice p = .quiet ∧ s.sched.canPush workers p ∧
        0 < s.pending
  next s
    | .sched a => { s.perform a with inserting := s.stillInserting a }
    | .timers p a =>
      if atFront s.timers a then
        { (s.locked a).perform (.tickle p) with inserting := Function.update s.inserting p true }
      else s.locked a
    | .listExpiredCb w now now' rounds =>
      { s.locked (.listExpiredCb now now' rounds) with
        expired := Function.update s.expired w (s.expired w ++ s.handedOut now now' rounds) }
    | .scheduleExpired w =>
      { s.perform (.scheduleLock w (expiredTask (s.expired w))) with
        expired := Function.update s.expired w (s.expired w).tail }
    | .readTimers w =>
      if s.timers.manager.timers = [] then (s.locked .getNextTimer).read w .timers
      else (s.locked .getNextTimer).perform (.checkStopping w false)
    | .readPending w =>
      if s.pending = 0 then s.read w .pending
      else (s.read w .outside).perform (.checkStopping w false)
    | .readQueue w => (s.read w .outside).perform (.checkStopping w true)
    | .computeTimeout w =>
      { (s.locked .getNextTimer).perform (.computeTimeout w) with
        deadline := Function.update s.deadline w s.timers.manager.earliest }
    | .addEvent _ => { s with pending := s.pending + 1 }
    | .endEvent _ => { s with pending := s.pending - 1 }

instance [DecidableEq Cb] (workers : Finset Tid) (s : Pool Tid Fib Cb) (a : PoolMove Tid Fib Cb) :
    Decidable ((pool workers).enabled s a) := by
  cases a <;> (dsimp only [pool]; infer_instance)

/-! ### The two parts -/

/-- What a step is for the scheduler. -/
def schedMove (s : Pool Tid Fib Cb) : PoolMove Tid Fib Cb → Option (Scheduler.Move Tid Fib Cb)
  | .sched a => some a
  | .timers p a => if atFront s.timers a then some (.tickle p) else none
  | .scheduleExpired w => some (.scheduleLock w (expiredTask (s.expired w)))
  | .readTimers w =>
    if s.timers.manager.timers = [] then none else some (.checkStopping w false)
  | .readPending w => if s.pending = 0 then none else some (.checkStopping w false)
  | .readQueue w => some (.checkStopping w true)
  | .computeTimeout w => some (.computeTimeout w)
  | .listExpiredCb _ _ _ _ | .addEvent _ | .endEvent _ => none

/-- What a step is for the timers. -/
def timersMove : PoolMove Tid Fib Cb → Option (SharedMove Tid Cb)
  | .timers _ a => some a
  | .listExpiredCb _ now now' rounds => some (.listExpiredCb now now' rounds)
  | .readTimers _ | .computeTimeout _ => some .getNextTimer
  | .sched _ | .scheduleExpired _ | .readPending _ | .readQueue _ | .addEvent _
  | .endEvent _ => none

variable {workers : Finset Tid} {s : Pool Tid Fib Cb} {a : PoolMove Tid Fib Cb}
  {permitted : Pool Tid Fib Cb → PoolMove Tid Fib Cb → Prop}

theorem sched_next : ((pool workers).next s a).sched =
    match schedMove s a with
    | none => s.sched
    | some b => Scheduler.next s.sched b := by
  cases a with
  | timers p a =>
    show Pool.sched (if atFront s.timers a then _ else _) = _
    dsimp only [schedMove]
    split <;> rfl
  | readTimers w =>
    show Pool.sched (if s.timers.manager.timers = [] then _ else _) = _
    dsimp only [schedMove]
    split <;> rfl
  | readPending w =>
    show Pool.sched (if s.pending = 0 then _ else _) = _
    dsimp only [schedMove]
    split <;> rfl
  | _ => rfl

theorem timers_next : ((pool workers).next s a).timers =
    match timersMove a with
    | none => s.timers
    | some b => sharedTimers.next s.timers b := by
  cases a with
  | timers p a =>
    show Pool.timers (if atFront s.timers a then _ else _) = _
    split <;> rfl
  | readTimers w =>
    show Pool.timers (if s.timers.manager.timers = [] then _ else _) = _
    split <;> rfl
  | readPending w =>
    show Pool.timers (if s.pending = 0 then _ else _) = _
    split <;> rfl
  | _ => rfl

omit [DecidableEq Tid] [DecidableEq Fib] in
theorem canPush_of_executes {t : Scheduler.State Tid Fib Cb} {p : Tid}
    (code : executes workers t p) : t.canPush workers p := by
  intro member
  have phase := code member
  split at phase <;> simp_all

/-- A step of the pool is available to the scheduler. -/
theorem schedMove_enabled (available : (pool workers).enabled s a)
    {b : Scheduler.Move Tid Fib Cb} (move : schedMove s a = some b) :
    (Scheduler.machine workers).enabled s.sched b := by
  cases a with
  | sched a =>
    cases move
    exact available.1
  | timers p a =>
    dsimp only [schedMove] at move
    split at move
    · cases move
      obtain ⟨running, quiet, code, -⟩ := available
      exact ⟨running, quiet, canPush_of_executes code⟩
    · cases move
  | scheduleExpired w =>
    cases move
    exact available.2.2.2
  | readTimers w | readPending w =>
    dsimp only [schedMove] at move
    split at move
    · cases move
    · cases move
      exact available.1
  | readQueue w =>
    cases move
    exact available.1
  | computeTimeout w =>
    cases move
    exact available
  | listExpiredCb w now now' rounds | addEvent p | endEvent p => cases move

/-- And so it is to the timers. -/
theorem timersMove_enabled (available : (pool workers).enabled s a) {b : SharedMove Tid Cb}
    (move : timersMove a = some b) : sharedTimers.enabled s.timers b := by
  cases a with
  | timers p a =>
    cases move
    exact available.2.2.2.2
  | listExpiredCb w now now' rounds =>
    cases move
    exact available.2.2.2
  | readTimers w | computeTimeout w =>
    cases move
    trivial
  | _ => cases move

/-- The workers of a run run as they do alone. -/
theorem sched_reachable (reached : (pool workers).Reaches permitted s) :
    (Scheduler.machine workers).Reachable s.sched := by
  refine reached.project Pool.sched ?_ ?_
  · rintro s ⟨now, rfl⟩
    rfl
  · intro s a available _
    rw [sched_next]
    cases move : schedMove s a with
    | none => exact .inl rfl
    | some b => exact .inr ⟨b, schedMove_enabled available move, trivial, rfl⟩

/-- The timers of a run run as they do alone. -/
theorem timers_reaches {permitted' : Shared Tid Cb → SharedMove Tid Cb → Prop}
    (kept : ∀ (s : Pool Tid Fib Cb) a b, permitted s a → timersMove a = some b →
      permitted' s.timers b)
    (reached : (pool workers).Reaches permitted s) : sharedTimers.Reaches permitted' s.timers := by
  refine reached.project Pool.timers ?_ ?_
  · rintro s ⟨now, rfl⟩
    exact ⟨now, rfl⟩
  · intro s a available allowed
    rw [timers_next]
    cases move : timersMove a with
    | none => exact .inl rfl
    | some b =>
      exact .inr ⟨b, timersMove_enabled available move, kept s a b allowed move, rfl⟩

end Steps

end CoroutineService.IOManager
