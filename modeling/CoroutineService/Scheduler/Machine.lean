import CoroutineService.Scheduler.Queue
import CoroutineService.Transition.Census
import Mathlib.Tactic.Simps.Basic

/-!
# Workers of an IOManager

The worker threads run `Scheduler::run`; a worker without a task enters
`IOManager::idle` and waits in `epoll_wait`, from where a byte in the tickle
pipe wakes it. Tasks are pushed by `scheduleLock`, from threads outside the pool,
from the fibers the workers execute and from the idle loop itself.

Every label is one atomic step of one thread: a section under `m_mutex`, an
access to an atomic counter, a system call, or the operations between two of
these. The environment's choices (why `epoll_wait` returned, whether timers and
events are left) are arguments of the labels.

## Main definitions

* `Phase`: where a worker stands in `run` and `idle`
* `Notice`: where a thread stands in a call of `tickle`
* `FiberCell`: the state, mutex and saved context of a fiber
* `machine`: the steps of all threads
-/

set_option autoImplicit false

namespace CoroutineService.Scheduler

open CoroutineService.Transition

/-- `Fiber::State`. -/
inductive FiberState
  | ready | running | term
  deriving DecidableEq, Repr

/-- A `Fiber`. `saved` records whether `m_ctx` holds the point where the fiber
has to go on: from its creation or from the `swapcontext` of its last `yield`
until the `swapcontext` of the next `resume`. -/
structure FiberCell (Tid : Type*) where
  constructed : Bool
  state : FiberState
  mutex : Option Tid
  saved : Bool
  deriving DecidableEq

/-- Where a worker stands in `Scheduler::run` and, inside it, `IOManager::idle`. -/
inductive Phase (Tid Fib Cb : Type*)
  -- Has not entered `run` yet: the caller's thread until `stop()`.
  | starting
  -- At the top of the loop, before the section under `m_mutex`.
  | scanning
  -- Holds a task, before its branch of the dispatch.
  | dispatching (task : ScheduleTask Tid Fib Cb)
  -- Has locked the mutex of the task's fiber, before `getState() != TERM`.
  | locked (f : Fib)
  -- At the assertion in `Fiber::resume`.
  | resuming (f : Fib)
  -- In `Fiber::resume`, `m_state` written, before `swapcontext`.
  | switching (f : Fib)
  -- Executing the fiber's function.
  | inFiber (f : Fib)
  -- In `Fiber::yield`, `m_state` written, before `swapcontext`.
  | yielding (f : Fib)
  -- Back in `run`, the fiber's mutex still locked.
  | returned (f : Fib)
  -- Before `m_activeThreadCount--`.
  | finishing
  -- Found no task, before `m_idleThreadCount++`.
  | retiring
  -- At `stopping()` in the idle loop.
  | idleTop
  -- Before `getNextTimer()` for the timeout.
  | arming
  -- Timeout computed, before `epoll_wait`.
  | armed
  -- Blocked in `epoll_wait`.
  | blocked
  -- `epoll_wait` returned; the flag tells whether it reported the pipe and
  -- the pipe is still to be drained.
  | woken (pipe : Bool)
  -- The idle fiber has yielded or ended, before `m_idleThreadCount--`.
  | idleReturned
  -- Left `run`.
  | exited
  deriving DecidableEq

/-- Where a thread stands in `tickle()`. The flag tells a call made by
`scheduleLock` for a push from one made by `run` for `tickle_me`. -/
inductive Notice
  | quiet
  | due (push : Bool)
  | passed (push : Bool)
  deriving DecidableEq, Repr

/-- The scheduler's shared state, and of each thread where it stands. -/
structure State (Tid Fib Cb : Type*) where
  tasks : List (ScheduleTask Tid Fib Cb)
  activeThreadCount : ℕ
  idleThreadCount : ℕ
  -- `m_stopping`.
  stopRequested : Bool
  -- Bytes in the tickle pipe.
  unread : ℕ
  -- The edge of the pipe that `epoll_wait` has not reported yet.
  edge : Bool
  phase : Tid → Phase Tid Fib Cb
  notice : Tid → Notice
  -- `idle_fiber->getState() == Fiber::TERM`.
  idleEnded : Tid → Bool
  fiber : Fib → FiberCell Tid
  -- An assertion has failed, and the process is gone.
  aborted : Bool

namespace State

variable {Tid Fib Cb : Type*} [DecidableEq Tid] [DecidableEq Fib]

/-- No tasks, no worker in `run` yet, no fiber constructed. -/
def initial : State Tid Fib Cb where
  tasks := []
  activeThreadCount := 0
  idleThreadCount := 0
  stopRequested := false
  unread := 0
  edge := false
  phase _ := .starting
  notice _ := .quiet
  idleEnded _ := false
  fiber _ := ⟨false, .ready, none, true⟩
  aborted := false

/-- Thread `w` moves on to `v`. -/
@[simps -fullyApplied]
def goto (s : State Tid Fib Cb) (w : Tid) (v : Phase Tid Fib Cb) : State Tid Fib Cb :=
  { s with phase := Function.update s.phase w v }

/-- Thread `p` moves on in `tickle()`. -/
@[simps -fullyApplied]
def notify (s : State Tid Fib Cb) (p : Tid) (n : Notice) : State Tid Fib Cb :=
  { s with notice := Function.update s.notice p n }

/-- Overwrite the fiber `f`. -/
@[simps -fullyApplied]
def setFiber (s : State Tid Fib Cb) (f : Fib) (cell : FiberCell Tid) : State Tid Fib Cb :=
  { s with fiber := Function.update s.fiber f cell }

/-- An assertion fails. -/
@[simps -fullyApplied]
def abort (s : State Tid Fib Cb) : State Tid Fib Cb := { s with aborted := true }

/-- `Scheduler::stopping`. -/
def stopping (s : State Tid Fib Cb) : Bool :=
  s.stopRequested && s.tasks.isEmpty && s.activeThreadCount == 0

/-- Code that may push tasks runs on the thread `p`: the thread is outside the
pool or not in `run` yet, executes a fiber, or handles timers and events in the
idle loop. -/
def canPush (workers : Finset Tid) (s : State Tid Fib Cb) (p : Tid) : Prop :=
  p ∈ workers → match s.phase p with
    | .starting | .inFiber _ | .woken _ => True
    | _ => False

instance (workers : Finset Tid) (s : State Tid Fib Cb) (p : Tid) :
    Decidable (s.canPush workers p) := by
  unfold canPush
  split <;> infer_instance

end State

/-- The atomic steps. -/
inductive Move (Tid Fib Cb : Type*)
  -- The locked section of `scheduleLock`.
  | scheduleLock (p : Tid) (task : ScheduleTask Tid Fib Cb)
  -- `tickle()` is called for another reason: `stop()`, `onTimerInsertedAtFront()`.
  | tickle (p : Tid)
  -- `tickle()` tests `hasIdleThreads()`.
  | hasIdleThreads (p : Tid) (push : Bool)
  -- `tickle()` writes its byte.
  | writePipe (p : Tid) (push : Bool)
  -- A fiber is constructed outside `run`.
  | construct (p : Tid) (f : Fib)
  -- `run` is entered.
  | startRun (w : Tid)
  -- The locked section of `run`.
  | scan (w : Tid)
  -- `lock_guard` on the mutex of the task's fiber.
  | lockFiber (w : Tid) (task : ScheduleTask Tid Fib Cb) (f : Fib)
  -- `getState() != Fiber::TERM`.
  | checkState (w : Tid) (f : Fib)
  -- A callback gets a fiber of its own, which is locked at once.
  | makeFiber (w : Tid) (task : ScheduleTask Tid Fib Cb) (f : Fib)
  -- `assert(m_state==READY)` and `m_state = RUNNING`.
  | resume (w : Tid) (f : Fib)
  -- The `swapcontext` of `resume`.
  | switchIn (w : Tid) (f : Fib)
  -- The assertion of `yield` and its write to `m_state`.
  | yield (w : Tid) (f : Fib)
  -- The fiber's function ends: `MainFunc` writes `TERM` and yields.
  | terminate (w : Tid) (f : Fib)
  -- The `swapcontext` of `yield`.
  | switchOut (w : Tid) (f : Fib)
  -- The `lock_guard` is destroyed.
  | unlockFiber (w : Tid) (f : Fib)
  -- `m_activeThreadCount--`.
  | finish (w : Tid)
  -- `m_idleThreadCount++`, unless the idle fiber has ended.
  | enterIdle (w : Tid)
  -- The idle fiber has ended: `run` returns.
  | leaveRun (w : Tid)
  -- `IOManager::stopping`; the flag tells whether no timer and no pending
  -- event is left.
  | checkStopping (w : Tid) (quiet : Bool)
  -- `getNextTimer()` for the timeout.
  | computeTimeout (w : Tid)
  -- `epoll_wait` is entered.
  | epollWait (w : Tid)
  -- `epoll_wait` fails with `EINTR`.
  | interrupt (w : Tid)
  -- `epoll_wait` returns, with or without the event of the pipe.
  | wake (w : Tid) (pipe : Bool)
  -- The pipe is read until it is empty.
  | drain (w : Tid)
  -- The idle fiber yields after the events of this round.
  | idleYield (w : Tid)
  -- `m_idleThreadCount--`.
  | leaveIdle (w : Tid)
  -- `stop()` sets `m_stopping`.
  | stop (p : Tid)
  deriving DecidableEq

/-- The worker whose place in `run` a step changes. -/
def Move.worker {Tid Fib Cb : Type*} : Move Tid Fib Cb → Option Tid
  | .startRun w | .scan w | .lockFiber w _ _ | .checkState w _ | .makeFiber w _ _ | .resume w _
  | .switchIn w _ | .yield w _ | .terminate w _ | .switchOut w _ | .unlockFiber w _ | .finish w
  | .enterIdle w | .leaveRun w | .checkStopping w _ | .computeTimeout w | .epollWait w
  | .interrupt w | .wake w _ | .drain w | .idleYield w | .leaveIdle w => some w
  | _ => none

/-- The thread that takes a step. -/
def Move.thread {Tid Fib Cb : Type*} : Move Tid Fib Cb → Tid
  | .scheduleLock p _ | .tickle p | .hasIdleThreads p _ | .writePipe p _ | .construct p _
  | .stop p => p
  | .startRun w | .scan w | .lockFiber w _ _ | .checkState w _ | .makeFiber w _ _ | .resume w _
  | .switchIn w _ | .yield w _ | .terminate w _ | .switchOut w _ | .unlockFiber w _ | .finish w
  | .enterIdle w | .leaveRun w | .checkStopping w _ | .computeTimeout w | .epollWait w
  | .interrupt w | .wake w _ | .drain w | .idleYield w | .leaveIdle w => w

/-- A worker's step is taken by that worker. -/
theorem Move.thread_of_worker {Tid Fib Cb : Type*} {a : Move Tid Fib Cb} {w : Tid}
    (step : a.worker = some w) : a.thread = w := by
  cases a with
  | scheduleLock p task | tickle p | hasIdleThreads p push | writePipe p push | construct p f
  | stop p => cases step
  | _ => exact Option.some_inj.mp step

section Machine

variable {Tid Fib Cb : Type*} [DecidableEq Tid] [DecidableEq Fib]

/-- Where a thread has to stand to take a step, and what the step waits for. A
thread inside `tickle()` does nothing else. -/
def guard (workers : Finset Tid) (s : State Tid Fib Cb) : Move Tid Fib Cb → Prop
  | .scheduleLock p task =>
    s.notice p = .quiet ∧ s.canPush workers p ∧
      (task.fiber.all fun f => (s.fiber f).constructed) = true
  | .tickle p => s.notice p = .quiet ∧ s.canPush workers p
  | .hasIdleThreads p push => s.notice p = .due push
  | .writePipe p push => s.notice p = .passed push
  | .construct p f => s.notice p = .quiet ∧ s.canPush workers p ∧ (s.fiber f).constructed = false
  | .startRun w => w ∈ workers ∧ s.notice w = .quiet ∧ s.phase w = .starting
  | .scan w => w ∈ workers ∧ s.notice w = .quiet ∧ s.phase w = .scanning
  | .lockFiber w task f =>
    w ∈ workers ∧ s.notice w = .quiet ∧ s.phase w = .dispatching task ∧ task.fiber = some f ∧
      (s.fiber f).mutex = none
  | .checkState w f => w ∈ workers ∧ s.phase w = .locked f
  | .makeFiber w task f =>
    w ∈ workers ∧ s.notice w = .quiet ∧ s.phase w = .dispatching task ∧ task.fiber = none ∧
      task.cb.isSome = true ∧ (s.fiber f).constructed = false
  | .resume w f => w ∈ workers ∧ s.phase w = .resuming f
  | .switchIn w f => w ∈ workers ∧ s.phase w = .switching f
  | .yield w f => w ∈ workers ∧ s.notice w = .quiet ∧ s.phase w = .inFiber f
  | .terminate w f => w ∈ workers ∧ s.notice w = .quiet ∧ s.phase w = .inFiber f
  | .switchOut w f => w ∈ workers ∧ s.phase w = .yielding f
  | .unlockFiber w f => w ∈ workers ∧ s.phase w = .returned f
  | .finish w => w ∈ workers ∧ s.phase w = .finishing
  | .enterIdle w =>
    w ∈ workers ∧ s.notice w = .quiet ∧ s.phase w = .retiring ∧ s.idleEnded w = false
  | .leaveRun w =>
    w ∈ workers ∧ s.notice w = .quiet ∧ s.phase w = .retiring ∧ s.idleEnded w = true
  | .checkStopping w _ => w ∈ workers ∧ s.phase w = .idleTop
  | .computeTimeout w => w ∈ workers ∧ s.phase w = .arming
  | .epollWait w => w ∈ workers ∧ s.phase w = .armed
  | .interrupt w => w ∈ workers ∧ s.phase w = .blocked
  | .wake w pipe => w ∈ workers ∧ s.phase w = .blocked ∧ (pipe = true → s.edge = true)
  | .drain w => w ∈ workers ∧ s.notice w = .quiet ∧ s.phase w = .woken true
  | .idleYield w => w ∈ workers ∧ s.notice w = .quiet ∧ s.phase w = .woken false
  | .leaveIdle w => w ∈ workers ∧ s.phase w = .idleReturned
  | .stop p => s.notice p = .quiet

instance decidableGuard [DecidableEq Cb] (workers : Finset Tid) (s : State Tid Fib Cb)
    (a : Move Tid Fib Cb) : Decidable (guard workers s a) := by
  cases a <;> (dsimp only [guard]; infer_instance)

/-- What a step does. -/
def next (s : State Tid Fib Cb) : Move Tid Fib Cb → State Tid Fib Cb
  | .scheduleLock p task =>
    let pushed := pushTask task s.tasks
    { s with tasks := pushed.2 }.notify p (if pushed.1 then .due true else .quiet)
  | .tickle p => s.notify p (.due false)
  | .hasIdleThreads p push =>
    s.notify p (if s.idleThreadCount > 0 then .passed push else .quiet)
  | .writePipe p _ => { s with unread := s.unread + 1, edge := true }.notify p .quiet
  | .construct _ f => s.setFiber f ⟨true, .ready, none, true⟩
  | .startRun w => s.goto w .scanning
  | .scan w =>
    let found := scan w s.tasks
    match found.task with
    | none => (s.goto w .retiring).notify w (if found.tickleMe then .due false else .quiet)
    | some task =>
      -- `assert(it->fiber||it->cb)` stands before the erase
      if task.nonempty then
        ({ s with tasks := found.tasks, activeThreadCount := s.activeThreadCount + 1 }.goto w
          (.dispatching task)).notify w (if found.tickleMe then .due false else .quiet)
      else s.abort
  | .lockFiber w _ f => (s.setFiber f { s.fiber f with mutex := some w }).goto w (.locked f)
  | .checkState w f =>
    s.goto w (if (s.fiber f).state = .term then .returned f else .resuming f)
  | .makeFiber w _ f => (s.setFiber f ⟨true, .ready, some w, true⟩).goto w (.resuming f)
  | .resume w f =>
    if (s.fiber f).state = .ready then
      (s.setFiber f { s.fiber f with state := .running }).goto w (.switching f)
    else s.abort
  | .switchIn w f => (s.setFiber f { s.fiber f with saved := false }).goto w (.inFiber f)
  | .yield w f =>
    match (s.fiber f).state with
    | .running => (s.setFiber f { s.fiber f with state := .ready }).goto w (.yielding f)
    | .term => s.goto w (.yielding f)
    | .ready => s.abort
  | .terminate w f => (s.setFiber f { s.fiber f with state := .term }).goto w (.yielding f)
  | .switchOut w f => (s.setFiber f { s.fiber f with saved := true }).goto w (.returned f)
  | .unlockFiber w f => (s.setFiber f { s.fiber f with mutex := none }).goto w .finishing
  | .finish w => { s with activeThreadCount := s.activeThreadCount - 1 }.goto w .scanning
  | .enterIdle w => { s with idleThreadCount := s.idleThreadCount + 1 }.goto w .idleTop
  | .leaveRun w => s.goto w .exited
  | .checkStopping w quiet =>
    if quiet && s.stopping then
      { s with idleEnded := Function.update s.idleEnded w true }.goto w .idleReturned
    else s.goto w .arming
  | .computeTimeout w => s.goto w .armed
  | .epollWait w => s.goto w .blocked
  | .interrupt w => s.goto w .arming
  | .wake w pipe => { s with edge := s.edge && !pipe }.goto w (.woken pipe)
  | .drain w => { s with unread := 0 }.goto w (.woken false)
  | .idleYield w => s.goto w .idleReturned
  | .leaveIdle w => { s with idleThreadCount := s.idleThreadCount - 1 }.goto w .scanning
  | .stop _ => { s with stopRequested := true }

/-- The other workers stay where they are. -/
theorem phase_next_of_ne {s : State Tid Fib Cb} {a : Move Tid Fib Cb} {w : Tid}
    (other : a.worker ≠ some w) : (next s a).phase w = s.phase w := by
  cases a with
  | scheduleLock p task | tickle p | hasIdleThreads p push | writePipe p push | construct p f
  | stop p => rfl
  | scan v =>
    have ne : w ≠ v := fun same => other (congrArg some same.symm)
    simp only [next]
    split
    · simp [ne]
    · split <;> simp [ne]
  | resume v f | yield v f | checkStopping v quiet =>
    have ne : w ≠ v := fun same => other (congrArg some same.symm)
    simp only [next]
    split <;> simp [ne]
  | startRun v | lockFiber v t f | checkState v f | makeFiber v t f | switchIn v f
  | terminate v f | switchOut v f | unlockFiber v f | finish v | enterIdle v | leaveRun v
  | computeTimeout v | epollWait v | interrupt v | wake v pipe | drain v | idleYield v
  | leaveIdle v =>
    have ne : w ≠ v := fun same => other (congrArg some same.symm)
    exact Function.update_of_ne ne _ _

/-- The tasks queued after a step were queued before it, or are pushed by it. -/
theorem mem_tasks_next {s : State Tid Fib Cb} {a : Move Tid Fib Cb}
    {task : ScheduleTask Tid Fib Cb} (mem : task ∈ (next s a).tasks) :
    task ∈ s.tasks ∨ ∃ p, a = .scheduleLock p task ∧ task.nonempty = true := by
  cases a with
  | scheduleLock p pushed =>
    by_cases carries : pushed.nonempty = true
    · have grown : task ∈ s.tasks ++ [pushed] := by simpa [next, pushTask, carries] using mem
      rcases List.mem_append.mp grown with old | new
      · exact .inl old
      · obtain rfl := List.mem_singleton.mp new
        exact .inr ⟨p, rfl, carries⟩
    · exact .inl (by simpa [next, pushTask, carries] using mem)
  | scan v =>
    left
    simp only [next] at mem
    split at mem
    · exact mem
    · split at mem
      · exact mem_of_mem_scan_tasks mem
      · exact mem
  | resume v g | yield v g | checkStopping v quiet =>
    left
    simp only [next] at mem
    split at mem <;> exact mem
  | _ => exact .inl mem

/-- The workers of an IOManager together with every thread that pushes tasks. -/
def machine (workers : Finset Tid) : Machine (State Tid Fib Cb) (Move Tid Fib Cb) where
  init s := s = State.initial
  enabled s a := s.aborted = false ∧ guard workers s a
  next := next

instance [DecidableEq Cb] (workers : Finset Tid) (s : State Tid Fib Cb) (a : Move Tid Fib Cb) :
    Decidable ((machine workers).enabled s a) :=
  inferInstanceAs (Decidable (_ ∧ _))

end Machine

end CoroutineService.Scheduler
