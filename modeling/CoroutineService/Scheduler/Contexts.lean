import CoroutineService.Scheduler.Machine
import CoroutineService.Transition.Coroutines

/-!
# The contexts of the fibers

`Fiber::resume` and `Fiber::yield` go over from one fiber to another with `swapcontext`. Which
fiber's context the registers are saved in, and which one is loaded, they read from pointers of
the thread: `t_fiber`, `t_thread_fiber` and `t_scheduler_fiber`. The thread that calls `stop()`
has one fiber more than the others, its workers' loop being a fiber that returns to the thread's
own.

Here the steps of the workers carry these pointers, the registers and the saved contexts along,
with the states of the fibers that are not tasks.

## Main definitions

* `Coroutine`: the fibers of a scheduler and its threads
* `Contexts`: registers, contexts, and the pointers of the threads
* `Contexts.record`: what a step of the workers does to them
* `ContextsExact`: every thread stands where its phase says, and goes on where it stopped
-/

set_option autoImplicit false

namespace CoroutineService.Scheduler

open CoroutineService.Transition

variable {Tid Fib Cb : Type*}

/-- The fibers: that of a thread itself, `m_schedulerFiber`, the idle fiber of a worker, and
those that are tasks. -/
inductive Coroutine (Tid Fib : Type*)
  | thread (w : Tid)
  | scheduler
  | idle (w : Tid)
  | task (f : Fib)
  deriving DecidableEq

/-- How scheduler and tasks have been constructed. -/
structure Setup (Tid Fib : Type*) where
  -- `m_rootThread`, if the scheduler was constructed with `use_caller`.
  root : Option Tid
  -- The argument `run_in_scheduler` of the fibers that are tasks.
  runInScheduler : Fib → Bool

namespace Setup

variable [DecidableEq Tid]

/-- The fiber on which a worker executes `Scheduler::run`. -/
def loop (u : Setup Tid Fib) (w : Tid) : Coroutine Tid Fib :=
  if u.root = some w then .scheduler else .thread w

/-- `m_runInScheduler`. The fiber of a thread has none and is never resumed. -/
def inScheduler (u : Setup Tid Fib) : Coroutine Tid Fib → Bool
  | .thread _ | .scheduler => false
  | .idle _ => true
  | .task f => u.runInScheduler f

end Setup

/-- Registers and contexts, the thread-local pointers of `fiber.cpp`, `m_state` of the fibers
that are not tasks, and the fiber `curr` that the `MainFunc` on a stack took from `GetThis`. -/
structure Contexts (Tid Fib : Type*) where
  frames : Stacks Tid (Coroutine Tid Fib)
  tFiber : Tid → Option (Coroutine Tid Fib)
  tThreadFiber : Tid → Option (Coroutine Tid Fib)
  tSchedulerFiber : Tid → Option (Coroutine Tid Fib)
  state : Coroutine Tid Fib → FiberState
  curr : Coroutine Tid Fib → Option (Coroutine Tid Fib)
  -- An assertion has failed, or a null pointer has been followed.
  failed : Bool

namespace Contexts

variable [DecidableEq Tid] [DecidableEq Fib]

/-- The constructor of the scheduler has run: with `use_caller`, the calling thread has a fiber,
and one for its loop that is its scheduler fiber. -/
def initial (u : Setup Tid Fib) : Contexts Tid Fib where
  frames := ⟨fun w => ⟨.thread w, 0⟩, fun x => ⟨x, 0⟩, fun _ => 0⟩
  tFiber w := if u.root = some w then some (.thread w) else none
  tThreadFiber w := if u.root = some w then some (.thread w) else none
  tSchedulerFiber w := if u.root = some w then some .scheduler else none
  state
    | .thread _ => .running
    | _ => .ready
  curr _ := none
  failed := false

/-- The process is gone. -/
def fail (g : Contexts Tid Fib) : Contexts Tid Fib := { g with failed := true }

/-- A step of the code on the stack of the thread `p`. -/
def execute (g : Contexts Tid Fib) (p : Tid) : Contexts Tid Fib :=
  { g with frames := g.frames.execute p }

/-- A fiber `x` gets its context, and the state `READY`. -/
def construct (g : Contexts Tid Fib) (x : Coroutine Tid Fib) : Contexts Tid Fib :=
  { g with frames := g.frames.make x, state := Function.update g.state x .ready }

/-- `Fiber::GetThis` on a thread: without a fiber it constructs that of the thread, which becomes
the scheduler fiber, too. -/
def getThis (g : Contexts Tid Fib) (w : Tid) : Contexts Tid Fib :=
  match g.tFiber w with
  | some _ => g
  | none =>
    { g with
      frames := g.frames.save w (.thread w)
      tFiber := Function.update g.tFiber w (some (.thread w))
      tThreadFiber := Function.update g.tThreadFiber w (some (.thread w))
      tSchedulerFiber := Function.update g.tSchedulerFiber w (some (.thread w))
      state := Function.update g.state (.thread w) .running }

@[simp] theorem ran_getThis (g : Contexts Tid Fib) (w : Tid) :
    (g.getThis w).frames.ran = g.frames.ran := by
  unfold getThis
  split <;> rfl

/-- `MainFunc`, which a stack starts with, takes the fiber whose function it calls from
`GetThis`. -/
def mainFunc (g : Contexts Tid Fib) (w : Tid) : Contexts Tid Fib :=
  if (g.frames.cpu w).point = 0 then
    { g with curr := Function.update g.curr (g.frames.cpu w).stack (g.tFiber w) }
  else g

@[simp] theorem mainFunc_frames (g : Contexts Tid Fib) (w : Tid) :
    (g.mainFunc w).frames = g.frames := by
  unfold mainFunc
  split <;> rfl

@[simp] theorem mainFunc_tFiber (g : Contexts Tid Fib) (w : Tid) :
    (g.mainFunc w).tFiber = g.tFiber := by
  unfold mainFunc
  split <;> rfl

@[simp] theorem mainFunc_tThreadFiber (g : Contexts Tid Fib) (w : Tid) :
    (g.mainFunc w).tThreadFiber = g.tThreadFiber := by
  unfold mainFunc
  split <;> rfl

@[simp] theorem mainFunc_tSchedulerFiber (g : Contexts Tid Fib) (w : Tid) :
    (g.mainFunc w).tSchedulerFiber = g.tSchedulerFiber := by
  unfold mainFunc
  split <;> rfl

@[simp] theorem mainFunc_state (g : Contexts Tid Fib) (w : Tid) :
    (g.mainFunc w).state = g.state := by
  unfold mainFunc
  split <;> rfl

@[simp] theorem mainFunc_failed (g : Contexts Tid Fib) (w : Tid) :
    (g.mainFunc w).failed = g.failed := by
  unfold mainFunc
  split <;> rfl

/-- `SetThis(y)` and `swapcontext` from `x` to `y`. -/
def goOver (g : Contexts Tid Fib) (w : Tid) (x y : Coroutine Tid Fib) : Contexts Tid Fib :=
  { g with
    frames := g.frames.swap w x y
    tFiber := Function.update g.tFiber w (some y) }.mainFunc w

/-- The fiber that `resume` of `x` leaves and `yield` of `x` returns to. -/
def other (u : Setup Tid Fib) (g : Contexts Tid Fib) (w : Tid) (x : Coroutine Tid Fib) :
    Option (Coroutine Tid Fib) :=
  if u.inScheduler x then g.tSchedulerFiber w else g.tThreadFiber w

/-- The end of `x->resume()`, after `m_state` has been written. -/
def enter (u : Setup Tid Fib) (g : Contexts Tid Fib) (w : Tid) (x : Coroutine Tid Fib) :
    Contexts Tid Fib :=
  match g.other u w x with
  | some y => g.goOver w y x
  | none => g.fail

/-- The end of `x->yield()`, after `m_state` has been written. -/
def leave (u : Setup Tid Fib) (g : Contexts Tid Fib) (w : Tid) :
    Option (Coroutine Tid Fib) → Contexts Tid Fib
  | none => g.fail
  | some x =>
    match g.other u w x with
    | some y => g.goOver w x y
    | none => g.fail

/-- `x->resume()` of a fiber that is not a task. -/
def resume (u : Setup Tid Fib) (g : Contexts Tid Fib) (w : Tid) (x : Coroutine Tid Fib) :
    Contexts Tid Fib :=
  if g.state x = FiberState.ready then
    { g with state := Function.update g.state x .running }.enter u w x
  else g.fail

@[simp] theorem ran_goOver (g : Contexts Tid Fib) (w : Tid) (x y : Coroutine Tid Fib) :
    (g.goOver w x y).frames.ran = g.frames.ran := by
  simp [goOver, Stacks.swap, Stacks.save, Stacks.load]

@[simp] theorem ran_resume (u : Setup Tid Fib) (g : Contexts Tid Fib) (w : Tid)
    (x : Coroutine Tid Fib) : (g.resume u w x).frames.ran = g.frames.ran := by
  unfold resume enter
  split
  · split <;> simp [fail]
  · rfl

/-- `x->yield()` of a fiber that is not a task. -/
def yield (u : Setup Tid Fib) (g : Contexts Tid Fib) (w : Tid) :
    Option (Coroutine Tid Fib) → Contexts Tid Fib
  | none => g.fail
  | some x =>
    match g.state x with
    | .running => { g with state := Function.update g.state x .ready }.leave u w (some x)
    | .term => g.leave u w (some x)
    | .ready => g.fail

/-- The end of `MainFunc` on the stack of a fiber that is not a task: `curr` becomes `TERM` and
yields. -/
def finish (u : Setup Tid Fib) (g : Contexts Tid Fib) (w : Tid) : Contexts Tid Fib :=
  match g.curr (g.frames.cpu w).stack with
  | none => g.fail
  | some x => { g with state := Function.update g.state x .term }.yield u w (some x)

end Contexts

section Record

variable [DecidableEq Tid] [DecidableEq Fib]

/-- What a step does to registers, contexts and pointers. The fiber that yields is the one
`GetThis` gives, at the end of its function the one `MainFunc` started with. -/
def Contexts.record (u : Setup Tid Fib) (s : State Tid Fib Cb) (a : Move Tid Fib Cb)
    (before : Contexts Tid Fib) : Contexts Tid Fib :=
  let g := before.execute a.thread
  match a with
  | .construct _ f | .makeFiber _ _ f => g.construct (.task f)
  | .startRun w =>
    -- `stop()` resumes the fiber of the loop; a new thread calls `run` and makes its own fiber
    (if u.root = some w then g.resume u w .scheduler else g.getThis w).construct (.idle w)
  | .switchIn w f => g.enter u w (.task f)
  | .switchOut w f =>
    g.leave u w (if (s.fiber f).state = .term then g.curr (g.frames.cpu w).stack else g.tFiber w)
  | .enterIdle w => g.resume u w (.idle w)
  | .idleYield w => g.yield u w (g.tFiber w)
  | .checkStopping w quiet => if quiet && s.stopping then g.finish u w else g
  | .leaveRun w => if u.root = some w then g.finish u w else g
  | _ => g

end Record

/-! ### Where the threads stand -/

/-- The part of the code a worker is in: before `run`, in its loop, in the idle fiber, in the
fiber of a task, or behind `run`. -/
inductive Region (Fib : Type*)
  | before
  | loop
  | idle
  | task (f : Fib)
  | after
  deriving DecidableEq

/-- Where a phase is spent. -/
def Phase.region : Phase Tid Fib Cb → Region Fib
  | .starting => .before
  | .exited => .after
  | .inFiber f | .yielding f => .task f
  | .idleTop | .arming | .armed | .blocked | .woken _ => .idle
  | _ => .loop

/-- `run` has been called. -/
def Region.entered : Region Fib → Bool
  | .before => false
  | _ => true

/-- The state of the fiber of the loop, for the thread that calls `stop()`. -/
def Region.loopState : Region Fib → FiberState
  | .before => .ready
  | .after => .term
  | _ => .running

/-- The state of the idle fiber of a worker. -/
def Region.idleState (ended : Bool) : Region Fib → FiberState
  | .idle => .running
  | _ => if ended then .term else .ready

section Places

variable [DecidableEq Tid]

/-- The fiber whose code a worker executes. -/
def Region.coroutine (u : Setup Tid Fib) (w : Tid) : Region Fib → Coroutine Tid Fib
  | .before | .after => .thread w
  | .loop => u.loop w
  | .idle => .idle w
  | .task f => .task f

/-- The fiber whose code the thread `w` executes. -/
def State.place (u : Setup Tid Fib) (s : State Tid Fib Cb) (w : Tid) : Coroutine Tid Fib :=
  (s.phase w).region.coroutine u w

/-- The thread has a fiber of its own. -/
def State.hasFiber (u : Setup Tid Fib) (s : State Tid Fib Cb) (w : Tid) : Prop :=
  u.root = some w ∨ (s.phase w).region.entered = true

instance (u : Setup Tid Fib) (s : State Tid Fib Cb) (w : Tid) : Decidable (s.hasFiber u w) :=
  inferInstanceAs (Decidable (_ ∨ _))

/-- Every thread stands on the stack of the fiber it executes, at the point the code there has
come to, and every other fiber's context holds its point; the pointers of the thread say so, and
so does the `MainFunc` of the fiber. -/
structure Standing (u : Setup Tid Fib) (s : State Tid Fib Cb) (g : Contexts Tid Fib) : Prop where
  exact : g.frames.Exact (s.place u)
  current : ∀ w, g.tFiber w = if s.hasFiber u w then some (s.place u w) else none
  own : ∀ w, g.tThreadFiber w = if s.hasFiber u w then some (.thread w) else none
  scheduling : ∀ w, g.tSchedulerFiber w = if s.hasFiber u w then some (u.loop w) else none
  calls : ∀ x, (∀ w, x ≠ .thread w) → (g.frames.ran x ≠ 0 ∨ ∃ w, s.place u w = x) →
    g.curr x = some x
  built : ∀ w f, s.place u w = .task f →
    (s.fiber f).constructed = true ∧ (u.root = some w → u.runInScheduler f = true)
  unbuilt : ∀ f, (s.fiber f).constructed = false → g.frames.ran (.task f) = 0
  unentered : ∀ w, (s.phase w).region.entered = false → g.frames.ran (.idle w) = 0

/-- The fibers that are not tasks have the state their worker's phase tells, and no assertion
about it has failed. -/
structure Asserted (u : Setup Tid Fib) (s : State Tid Fib Cb) (g : Contexts Tid Fib) : Prop where
  idles : ∀ w, g.state (.idle w) = (s.phase w).region.idleState (s.idleEnded w)
  loop : ∀ w, u.root = some w → g.state .scheduler = (s.phase w).region.loopState
  going : ∀ w, (s.phase w).region.entered = false → s.idleEnded w = false
  sound : g.failed = false

/-- Threads, contexts and fibers agree. -/
structure ContextsExact (u : Setup Tid Fib) (s : State Tid Fib Cb) (g : Contexts Tid Fib) :
    Prop where
  standing : Standing u s g
  asserted : Asserted u s g

end Places

end CoroutineService.Scheduler
