import CoroutineService.Scheduler.Machine
import CoroutineService.Transition.Locked

/-!
# Fibers are run by one worker at a time

`Fiber::yield` writes the state before it saves the context, so the state alone
does not tell whether a fiber can be resumed. What makes it safe is that a worker
holds the fiber's `m_mutex` from before `getState()` until after the
`swapcontext` back into `run`: at rest, a fiber has its context saved, whatever
was pushed and by whom.

## Main definitions

* `fiberDiscipline`: what each phase of a worker requires of the fiber it locked
* `FiberSafe`: the invariant of all fibers, tasks and assertions

## Main results

* `fiberSafe_of_reachable`: the invariant holds along every run
* `resume_exclusive`: one worker at a time, no failed assertion, no lost task
-/

set_option autoImplicit false

namespace CoroutineService.Scheduler

open CoroutineService.Transition

variable {Tid Fib Cb : Type*}

theorem FiberState.ready_of_resting {state : FiberState} (resting : state ≠ .running)
    (alive : state ≠ .term) : state = .ready := by
  cases state with
  | ready => rfl
  | running => exact absurd rfl resting
  | term => exact absurd rfl alive

namespace Phase

/-- The fiber whose `m_mutex` is held. -/
def holds : Phase Tid Fib Cb → Option Fib
  | .locked f | .resuming f | .switching f | .inFiber f | .yielding f | .returned f => some f
  | _ => none

/-- The fiber of the task in hand, until it is resumed or found terminated. -/
def pending : Phase Tid Fib Cb → Option Fib
  | .dispatching task => task.fiber
  | .locked f | .resuming f | .switching f => some f
  | _ => none

/-- Between the call of `resume` and the `swapcontext` of the matching `yield`. -/
def runs (f : Fib) : Phase Tid Fib Cb → Prop
  | .resuming g | .switching g | .inFiber g | .yielding g => g = f
  | _ => False

theorem holds_of_runs {f : Fib} {v : Phase Tid Fib Cb} (runs : v.runs f) :
    v.holds = some f := by
  cases v with
  | resuming g | switching g | inFiber g | yielding g => exact congrArg some runs
  | _ => exact absurd runs not_false

end Phase

/-- A fiber nobody holds has its context saved and is not running; what it is
like in the hands of a worker depends on how far the worker got. -/
def fiberDiscipline : LockDiscipline Tid (Phase Tid Fib Cb) Fib (FiberCell Tid) where
  holds := Phase.holds
  owner := FiberCell.mutex
  rests cell := cell.state ≠ .running ∧ cell.saved = true
  fits
    | .locked _, cell | .returned _, cell => cell.state ≠ .running ∧ cell.saved = true
    | .resuming _, cell => cell.state = .ready ∧ cell.saved = true
    | .switching _, cell => cell.state = .running ∧ cell.saved = true
    | .inFiber _, cell => cell.state = .running ∧ cell.saved = false
    | .yielding _, cell => cell.state ≠ .running ∧ cell.saved = false
    | _, _ => True

/-- Fibers are as the discipline requires; only constructed fibers are locked,
queued or dispatched; tasks carry work; and no assertion has failed. -/
structure FiberSafe (s : State Tid Fib Cb) : Prop where
  kept : fiberDiscipline.Kept s.phase s.fiber
  fresh : ∀ f, (s.fiber f).constructed = false → (s.fiber f).mutex = none
  queued : ∀ task ∈ s.tasks, task.nonempty = true ∧
    ∀ f, task.fiber = some f → (s.fiber f).constructed = true
  dispatched : ∀ w task, s.phase w = .dispatching task →
    ∀ f, task.fiber = some f → (s.fiber f).constructed = true
  running : s.aborted = false

variable [DecidableEq Tid] [DecidableEq Fib]
variable {workers : Finset Tid} {s : State Tid Fib Cb} {a : Move Tid Fib Cb} {f : Fib} {w : Tid}

omit [DecidableEq Tid] [DecidableEq Fib] in
theorem fiberSafe_initial : FiberSafe (State.initial : State Tid Fib Cb) where
  kept :=
    { owned _ _ := ⟨nofun, nofun⟩
      rests _ _ := ⟨nofun, rfl⟩
      fits _ _ := nofun }
  fresh _ _ := rfl
  queued _ mem := absurd mem List.not_mem_nil
  dispatched _ _ stands := by cases stands
  running := rfl

/-- A constructed fiber stays constructed. -/
theorem constructed_next (built : (s.fiber f).constructed = true) :
    ((next s a).fiber f).constructed = true := by
  cases a with
  | scan w =>
    simp only [next]
    split
    · exact built
    · split <;> exact built
  | resume w g | yield w g =>
    simp only [next]
    split <;> by_cases same : f = g <;> simp_all
  | checkStopping w quiet =>
    simp only [next]
    split <;> exact built
  | construct p g | lockFiber w task g | makeFiber w task g | switchIn w g | terminate w g
  | switchOut w g | unlockFiber w g =>
    by_cases same : f = g <;> simp_all [next]
  | _ => exact built

omit [DecidableEq Tid] [DecidableEq Fib] in
/-- What the phase of a worker says about the fiber it holds. -/
theorem FiberSafe.fits (safe : FiberSafe s) {v : Phase Tid Fib Cb} (stands : s.phase w = v)
    (holding : v.holds = some f) :
    fiberDiscipline.fits v (s.fiber f) ∧ (s.fiber f).mutex = some w := by
  subst stands
  exact ⟨safe.kept.fits w f holding, (safe.kept.owned w f).mp holding⟩

/-- Every step keeps the lock discipline of the fibers. -/
theorem FiberSafe.kept_next (safe : FiberSafe s) (available : guard workers s a) :
    fiberDiscipline.Kept (next s a).phase (next s a).fiber := by
  cases a with
  | scan w =>
    obtain ⟨-, -, stands⟩ := available
    have before : fiberDiscipline.holds (s.phase w) = none := by rw [stands]; rfl
    simp only [next]
    split
    · exact safe.kept.elsewhere before rfl
    · split
      · exact safe.kept.elsewhere before rfl
      · exact safe.kept
  | construct p g =>
    obtain ⟨-, -, unbuilt⟩ := available
    -- Nobody has a fiber that has not been constructed.
    exact safe.kept.replace (safe.fresh g unbuilt) rfl ⟨by simp, rfl⟩
  | lockFiber w task g =>
    obtain ⟨-, -, stands, -, free⟩ := available
    -- A fiber whose lock is free is at rest.
    exact safe.kept.acquire (by rw [stands]; rfl) free rfl rfl (safe.kept.rests g free)
  | makeFiber w task g =>
    obtain ⟨-, -, stands, -, -, unbuilt⟩ := available
    exact safe.kept.acquire (by rw [stands]; rfl) (safe.fresh g unbuilt) rfl rfl ⟨rfl, rfl⟩
  | checkState w g =>
    obtain ⟨-, stands⟩ := available
    obtain ⟨⟨resting, saved⟩, -⟩ := safe.fits stands rfl
    refine safe.kept.proceed (by rw [stands]; rfl) ?_ ?_
    · split <;> rfl
    · split
      case isTrue ended => exact ⟨resting, saved⟩
      case isFalse alive => exact ⟨FiberState.ready_of_resting resting alive, saved⟩
  | resume w g =>
    obtain ⟨-, stands⟩ := available
    obtain ⟨⟨ready, saved⟩, mine⟩ := safe.fits stands rfl
    simp only [next, ready, if_true]
    exact safe.kept.advance (by rw [stands]; rfl) rfl mine ⟨rfl, saved⟩
  | switchIn w g =>
    obtain ⟨-, stands⟩ := available
    obtain ⟨⟨runs, -⟩, mine⟩ := safe.fits stands rfl
    exact safe.kept.advance (by rw [stands]; rfl) rfl mine ⟨runs, rfl⟩
  | yield w g =>
    obtain ⟨-, -, stands⟩ := available
    obtain ⟨⟨runs, unsaved⟩, mine⟩ := safe.fits stands rfl
    simp only [next, runs]
    exact safe.kept.advance (by rw [stands]; rfl) rfl mine ⟨by simp, unsaved⟩
  | terminate w g =>
    obtain ⟨-, -, stands⟩ := available
    obtain ⟨⟨-, unsaved⟩, mine⟩ := safe.fits stands rfl
    exact safe.kept.advance (by rw [stands]; rfl) rfl mine ⟨by simp, unsaved⟩
  | switchOut w g =>
    obtain ⟨-, stands⟩ := available
    obtain ⟨⟨resting, -⟩, mine⟩ := safe.fits stands rfl
    exact safe.kept.advance (by rw [stands]; rfl) rfl mine ⟨resting, rfl⟩
  | unlockFiber w g =>
    obtain ⟨-, stands⟩ := available
    obtain ⟨atRest, -⟩ := safe.fits stands rfl
    -- The lock is given back when the fiber rests again.
    exact safe.kept.release (by rw [stands]; rfl) rfl rfl atRest
  | checkStopping w quiet =>
    obtain ⟨-, stands⟩ := available
    simp only [next]
    split <;> exact safe.kept.elsewhere (by rw [stands]; rfl) rfl
  | startRun w | enterIdle w | leaveRun w | drain w | idleYield w =>
    obtain ⟨-, -, stands⟩ := available
    exact safe.kept.elsewhere (by simp [stands, fiberDiscipline, Phase.holds]) rfl
  | finish w | computeTimeout w | epollWait w | interrupt w | wake w pipe | leaveIdle w =>
    obtain ⟨-, stands⟩ := available
    exact safe.kept.elsewhere (by simp [stands, fiberDiscipline, Phase.holds]) rfl
  | scheduleLock p task | tickle p | hasIdleThreads p push | writePipe p push | stop p =>
    exact safe.kept

/-- A lock is only taken on a constructed fiber. -/
theorem FiberSafe.fresh_next (safe : FiberSafe s) (available : guard workers s a)
    (unbuilt : ((next s a).fiber f).constructed = false) :
    ((next s a).fiber f).mutex = none := by
  have before : (s.fiber f).constructed = false := by
    by_contra built
    rw [constructed_next (by simpa using built)] at unbuilt
    cases unbuilt
  have free := safe.fresh f before
  cases a with
  | lockFiber w task g =>
    obtain ⟨-, -, stands, carries, -⟩ := available
    have other : f ≠ g := by
      rintro rfl
      rw [safe.dispatched w task stands f carries] at before
      cases before
    simpa [next, other] using free
  | scan w =>
    simp only [next]
    split
    · exact free
    · split <;> exact free
  | resume w g | yield w g =>
    simp only [next]
    split <;> by_cases same : f = g <;> simp_all
  | checkStopping w quiet =>
    simp only [next]
    split <;> exact free
  | construct p g | makeFiber w task g | switchIn w g | terminate w g | switchOut w g
  | unlockFiber w g =>
    by_cases same : f = g <;> simp_all [next]
  | _ => exact free

/-- A step that puts a worker before its dispatch is the scan that took the task
from the queue. -/
theorem dispatching_next {task : ScheduleTask Tid Fib Cb}
    (stands : (next s a).phase w = .dispatching task) :
    s.phase w = .dispatching task ∨ task ∈ s.tasks := by
  by_cases mine : a.worker = some w
  case neg => exact .inl (phase_next_of_ne (s := s) mine ▸ stands)
  case pos =>
    cases a with
    | scan v =>
      obtain rfl : v = w := Option.some.inj mine
      simp only [next] at stands
      split at stands
      · simp at stands
      case h_2 found =>
        split at stands
        · obtain rfl : _ = task := by simpa using stands
          rw [scan_task] at found
          exact .inr (List.mem_of_find?_eq_some found)
        · exact .inl stands
    | resume v g | yield v g | checkState v g | checkStopping v quiet =>
      obtain rfl : v = w := Option.some.inj mine
      simp only [next] at stands
      split at stands <;> simp_all
    | scheduleLock p t | tickle p | hasIdleThreads p push | writePipe p push | construct p g
    | stop p => cases mine
    | _ =>
      obtain rfl := Option.some.inj mine
      simp [next] at stands

/-- No step fails an assertion. -/
theorem FiberSafe.running_next (safe : FiberSafe s) (available : guard workers s a) :
    (next s a).aborted = false := by
  have running := safe.running
  cases a with
  | scan v =>
    simp only [next]
    split
    · exact running
    case h_2 task found =>
      rw [scan_task] at found
      rw [if_pos (safe.queued task (List.mem_of_find?_eq_some found)).1]
      exact running
  | resume v g =>
    obtain ⟨-, stands⟩ := available
    obtain ⟨⟨ready, -⟩, -⟩ := safe.fits stands rfl
    simpa [next, ready] using running
  | yield v g =>
    obtain ⟨-, -, stands⟩ := available
    obtain ⟨⟨runs, -⟩, -⟩ := safe.fits stands rfl
    simpa [next, runs] using running
  | checkStopping v quiet =>
    simp only [next]
    split <;> exact running
  | _ => exact running

theorem FiberSafe.next (safe : FiberSafe s) (available : guard workers s a) :
    FiberSafe (next s a) where
  kept := safe.kept_next available
  fresh _ unbuilt := safe.fresh_next available unbuilt
  queued task mem := by
    rcases mem_tasks_next mem with old | ⟨p, rfl, carries⟩
    · obtain ⟨carries, built⟩ := safe.queued task old
      exact ⟨carries, fun f holds => constructed_next (built f holds)⟩
    · obtain ⟨-, -, built⟩ := available
      refine ⟨carries, fun f holds => ?_⟩
      rw [holds] at built
      exact constructed_next built
  dispatched w task stands f holds := by
    rcases dispatching_next stands with before | queued
    · exact constructed_next (safe.dispatched w task before f holds)
    · exact constructed_next ((safe.queued task queued).2 f holds)
  running := safe.running_next available

theorem fiberSafe_of_reachable (reached : (machine workers).Reachable s) : FiberSafe s := by
  refine reached.invariant (fun s starts => ?_) fun s a safe available _ => ?_
  · obtain rfl : s = State.initial := starts
    exact fiberSafe_initial
  · exact safe.next available.2

/-! ### What the discipline guarantees -/

/-- A worker lets go of the fiber of its task only by switching into its saved
context, or because the fiber has terminated. -/
theorem FiberSafe.disposal (safe : FiberSafe s) (available : guard workers s a)
    (before : (s.phase w).pending = some f)
    (after : ((Scheduler.next s a).phase w).pending ≠ some f) :
    (s.fiber f).state = .term ∨
      a = .switchIn w f ∧ (s.fiber f).saved = true ∧
        (Scheduler.next s a).phase w = .inFiber f := by
  by_cases mine : a.worker = some w
  case neg => exact absurd (phase_next_of_ne (s := s) mine ▸ before) after
  case pos =>
    cases a with
    | lockFiber v task g =>
      obtain rfl : v = w := Option.some.inj mine
      obtain ⟨-, -, stands, carries, -⟩ := available
      rw [stands, Phase.pending, carries] at before
      exact absurd before (by simpa [Scheduler.next, Phase.pending] using after)
    | makeFiber v task g =>
      obtain rfl : v = w := Option.some.inj mine
      obtain ⟨-, -, stands, carries, -⟩ := available
      rw [stands, Phase.pending, carries] at before
      cases before
    | checkState v g =>
      obtain rfl : v = w := Option.some.inj mine
      obtain ⟨-, stands⟩ := available
      obtain rfl : g = f := by simpa [stands, Phase.pending] using before
      by_cases ended : (s.fiber g).state = .term
      · exact .inl ended
      · simp [Scheduler.next, ended, Phase.pending] at after
    | resume v g =>
      obtain rfl : v = w := Option.some.inj mine
      obtain ⟨-, stands⟩ := available
      obtain rfl : g = f := by simpa [stands, Phase.pending] using before
      obtain ⟨⟨ready, -⟩, -⟩ := safe.fits stands rfl
      simp [Scheduler.next, ready, Phase.pending] at after
    | switchIn v g =>
      obtain rfl : v = w := Option.some.inj mine
      obtain ⟨-, stands⟩ := available
      obtain rfl : g = f := by simpa [stands, Phase.pending] using before
      obtain ⟨⟨-, saved⟩, -⟩ := safe.fits stands rfl
      exact .inr ⟨rfl, saved, by simp [Scheduler.next]⟩
    | scheduleLock p t | tickle p | hasIdleThreads p push | writePipe p push | construct p g
    | stop p => cases mine
    | _ =>
      obtain rfl := Option.some.inj mine
      simp only [guard] at available
      simp [available, Phase.pending] at before

/-- What holds of every fiber in every state of a run. -/
structure FibersExclusive (workers : Finset Tid) (s : State Tid Fib Cb) : Prop where
  /-- At most one worker is between `resume` and the matching `yield`. -/
  alone : ∀ f w w', (s.phase w).runs f → (s.phase w').runs f → w = w'
  /-- Whenever `resume` is called, its assertion holds: the fiber is `READY`, and
  in particular it has not terminated. -/
  ready : ∀ w f, (machine workers).enabled s (.resume w f) →
    (s.fiber f).state = .ready ∧ (s.fiber f).state ≠ .term
  /-- No assertion has failed, and none fails in the next step. -/
  asserted : s.aborted = false ∧
    ∀ a, (machine workers).enabled s a → (next s a).aborted = false
  /-- A worker with a task of the fiber `f` keeps it until it switches into the
  saved context of `f`, or finds `f` terminated. -/
  delivered : ∀ w f a, (machine workers).enabled s a → (s.phase w).pending = some f →
    ((next s a).phase w).pending = some f ∨ (s.fiber f).state = .term ∨
      a = .switchIn w f ∧ (s.fiber f).saved = true ∧ (next s a).phase w = .inFiber f

/-- A fiber is never run by two threads, and a wake-up is never lost, however
often and whenever the fiber is pushed. -/
theorem fibersExclusive_of_reachable (reached : (machine workers).Reachable s) :
    FibersExclusive workers s := by
  have safe := fiberSafe_of_reachable reached
  refine ⟨fun f w w' mine yours => ?_, fun w f available => ?_,
    ⟨safe.running, fun a available => safe.running_next available.2⟩,
    fun w f a available before => ?_⟩
  · exact safe.kept.unique (Phase.holds_of_runs mine) (Phase.holds_of_runs yours)
  · obtain ⟨-, -, stands⟩ := available
    obtain ⟨⟨ready, -⟩, -⟩ := safe.fits stands rfl
    exact ⟨ready, by rw [ready]; exact nofun⟩
  · by_cases after : ((next s a).phase w).pending = some f
    · exact .inl after
    · exact .inr (safe.disposal available.2 before after)

/-- A fiber is pushed again while worker 0 still runs it; worker 1 takes the
second task, waits for the lock, and resumes the fiber after its yield. -/
def pushedWhileRunning : List (Move ℕ ℕ ℕ) :=
  [.construct 2 0, .scheduleLock 2 ⟨some 0, none, none⟩, .hasIdleThreads 2 true,
    .startRun 0, .startRun 1, .scan 0, .lockFiber 0 ⟨some 0, none, none⟩ 0, .checkState 0 0,
    .resume 0 0, .switchIn 0 0, .scheduleLock 2 ⟨some 0, none, none⟩, .hasIdleThreads 2 true,
    .scan 1, .yield 0 0, .switchOut 0 0, .unlockFiber 0 0,
    .lockFiber 1 ⟨some 0, none, none⟩ 0, .checkState 1 0]

theorem fibersExclusive_pushedWhileRunning :
    let s := (machine {0, 1}).after State.initial pushedWhileRunning
    s.phase 1 = .resuming 0 ∧ FibersExclusive {0, 1} s :=
  ⟨by decide, fibersExclusive_of_reachable (Machine.reachable_after rfl (by decide))⟩

end CoroutineService.Scheduler
