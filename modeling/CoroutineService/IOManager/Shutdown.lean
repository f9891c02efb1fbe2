import CoroutineService.IOManager.Pool
import CoroutineService.Scheduler.IdleFibers

/-!
# Shutdown

After `stop()` has set `m_stopping`, the idle fiber of a worker ends when
`IOManager::stopping` has found no timer, no pending event, no task and no active worker,
in this order. The last read is under the lock and is the only one that is true when the
worker goes by it. A worker whose idle fiber has ended may still take a task, and what that
task adds is seen by the others only as long as one of them has not read past it.

## Main definitions

* `Accepted`: after `stop()`, accepted tasks alone make tasks, timers and events
* `LeavesNothing`: no task, timer or event is left when all workers have left `run`
* `UpToDate`: the last worker does not go by what it has read earlier

## Main results

* `leavesNothing_of_reaches`: nothing is left by runs that are up to date
* `left_next`: what every other step leaves
* `abandons`: a timer is left
-/

set_option autoImplicit false

namespace CoroutineService.IOManager

open CoroutineService.Containers CoroutineService.Scheduler CoroutineService.Timers
  CoroutineService.Transition

variable {Tid Fib Cb : Type*}

/-- Once `m_stopping` is set, the thread is a worker in `run`: what it does belongs to a task
that was accepted, or to the timers and events in its idle loop. -/
def Accepts (workers : Finset Tid) (s : Pool Tid Fib Cb) (p : Tid) : Prop :=
  s.sched.stopRequested = true → p ∈ workers ∧ s.sched.phase p ≠ .starting

/-- Once `m_stopping` is set, new tasks, timers and events are made by accepted tasks only. -/
def Accepted (workers : Finset Tid) (s : Pool Tid Fib Cb) : PoolMove Tid Fib Cb → Prop
  | .sched (.scheduleLock p _) | .timers p (.addTimer _ _ _ _) | .timers p (.resetInsert _ _)
  | .addEvent p => Accepts workers s p
  | _ => True

/-- When all workers have left `run`, no task, no timer and no event is left. -/
def LeavesNothing (workers : Finset Tid) (s : Pool Tid Fib Cb) : Prop :=
  (∀ w ∈ workers, s.sched.phase w = .exited) →
    s.sched.tasks = [] ∧ s.timers.manager.timers = [] ∧ s.pending = 0

/-- The last worker whose idle fiber has not ended does not end it while there is a timer or an
event, whatever it has read before. -/
def UpToDate (workers : Finset Tid) (s : Pool Tid Fib Cb) : PoolMove Tid Fib Cb → Prop
  | .readQueue w => s.sched.stopping = true →
      (∀ v ∈ workers, v ≠ w → s.sched.idleEnded v = true) →
      s.timers.manager.timers = [] ∧ s.pending = 0
  | _ => True

/-! ### Timers -/

/-- The sections that put a timer in. -/
def inserts : SharedMove Tid Cb → Bool
  | .addTimer _ _ _ _ | .resetInsert _ _ => true
  | .cancel _ | .refresh _ _ | .resetErase _ _ _ _ | .listExpiredCb _ _ _ | .getNextTimer => false

section

variable {m m' : TimerManager Cb} {t : ℕ}

theorem not_finds (none : m.timers = []) : m.finds t = false := by
  unfold TimerManager.finds findBy
  rw [none]
  rfl

theorem timers_erase (none : m.timers = []) : (m.erase t).timers = [] := by
  unfold TimerManager.erase eraseBy
  rw [none]
  rfl

theorem timers_cancel (none : m.timers = []) : (m.cancel t).2.timers = [] := by
  rcases TimerManager.cancel_cases m t with ⟨-, same⟩ | ⟨-, blank, -, -, same | ⟨same, -⟩⟩
  · rw [same]
    exact none
  · rw [same]
    exact timers_erase none
  · rw [same]
    exact none

theorem timers_refresh (none : m.timers = []) {now : ℤ} : (m.refresh t now).2.timers = [] := by
  rcases TimerManager.refresh_cases m t now with same | ⟨-, found, -⟩
  · rw [same]
    exact none
  · exact absurd ((not_finds none).symm.trans found) nofun

theorem timers_resetErase (none : m.timers = []) : (m.resetErase t).2.timers = [] := by
  unfold TimerManager.resetErase
  rw [not_finds none, if_pos rfl]
  split
  · exact none
  · exact none

theorem timers_listExpiredCb (none : m.timers = []) {now now' : ℤ} {rounds : ℕ}
    (ends : m.listExpiredCb now now' rounds = some m') : m'.timers = [] := by
  let noted := (m.detectClockRollover now').2
  have idle : ∀ rollover, noted.due rollover now = false := fun rollover => by
    have none' : noted.timers = [] := none
    unfold TimerManager.due
    rw [none']
  have still : ∀ rollover, TimerManager.expireLoop rollover now rounds noted = some noted := by
    intro rollover
    cases rounds <;>
    · unfold TimerManager.expireLoop
      rw [idle, if_neg Bool.false_ne_true]
  have same : some noted = some m' := (still _).symm.trans ends
  exact Option.some_inj.mp same ▸ none

end

/-- No other section puts a timer into an empty set. -/
theorem timers_stay [DecidableEq Tid] {s : Shared Tid Cb} {a : SharedMove Tid Cb}
    (none : s.manager.timers = []) (available : sharedTimers.enabled s a)
    (other : inserts a = false) :
    (sharedTimers.next s a).manager.timers = [] ∧ atFront s a = false := by
  cases a with
  | addTimer ms cb recurring now | resetInsert p now => cases other
  | cancel t => exact ⟨timers_cancel none, rfl⟩
  | refresh t now => exact ⟨timers_refresh none, rfl⟩
  | resetErase p t ms fromNow => exact ⟨timers_resetErase none, rfl⟩
  | listExpiredCb now now' rounds =>
    obtain ⟨m', ends⟩ := Option.isSome_iff_exists.mp available
    refine ⟨?_, rfl⟩
    show ((s.manager.listExpiredCb now now' rounds).getD s.manager).timers = []
    rw [ends]
    exact timers_listExpiredCb none ends
  | getNextTimer => exact ⟨none, rfl⟩

variable [DecidableEq Tid] [DecidableEq Fib]

section Decidable

variable [DecidableEq Cb] (workers : Finset Tid) (s : Pool Tid Fib Cb)

instance (p : Tid) : Decidable (Accepts workers s p) := inferInstanceAs (Decidable (_ → _))

instance (a : PoolMove Tid Fib Cb) : Decidable (Accepted workers s a) := by
  induction a using PoolMove.casesOn with
  | sched a => induction a using Scheduler.Move.casesOn <;> (dsimp only [Accepted]; infer_instance)
  | timers p a => induction a using SharedMove.casesOn <;> (dsimp only [Accepted]; infer_instance)
  | _ => dsimp only [Accepted]; infer_instance

instance (a : PoolMove Tid Fib Cb) : Decidable (UpToDate workers s a) := by
  induction a using PoolMove.casesOn <;> (dsimp only [UpToDate]; infer_instance)

end Decidable

variable {workers : Finset Tid} {s : Pool Tid Fib Cb} {a : PoolMove Tid Fib Cb}

/-- When all idle fibers have ended, `m_stopping` is set and nothing is left. -/
def Closed (workers : Finset Tid) (s : Pool Tid Fib Cb) : Prop :=
  (∀ w ∈ workers, s.sched.idleEnded w = true) →
    Resting s.sched ∧ s.timers.manager.timers = [] ∧ s.pending = 0

/-- Only the last read of `stopping()` ends an idle fiber. -/
theorem idleEnded_next (available : (pool workers).enabled s a) (other : ∀ w, a ≠ .readQueue w) :
    ((pool workers).next s a).sched.idleEnded = s.sched.idleEnded := by
  rw [sched_next]
  cases move : schedMove s a with
  | none => rfl
  | some b =>
    refine Scheduler.idleEnded_next fun w same => ?_
    rw [same] at move
    cases a with
    | sched a =>
      cases move
      exact absurd available.2.1 nofun
    | readQueue w => exact other w rfl
    | timers p a | readTimers v | readPending v =>
      dsimp only [schedMove] at move
      split at move <;> cases move
    | scheduleExpired v | computeTimeout v | listExpiredCb v now now' rounds | addEvent p
    | endEvent p => cases move

namespace Closed

omit [DecidableEq Tid] [DecidableEq Fib] in
/-- A worker in its idle loop keeps the manager open. -/
theorem not_looping (consistent : Consistent s.sched.phase s.sched.idleEnded)
    (ended : ∀ w ∈ workers, s.sched.idleEnded w = true) {w : Tid} (member : w ∈ workers) :
    (s.sched.phase w).loops = false := by
  cases loops : (s.sched.phase w).loops with
  | false => rfl
  | true => exact absurd ((ended w member).symm.trans ((consistent w).1 loops)) nofun

omit [DecidableEq Tid] [DecidableEq Fib] in
/-- Nobody who may add anything is left. -/
theorem not_accepts (resting : Resting s.sched)
    (counted : s.sched.activeThreadCount = census workers Phase.busy s.sched.phase)
    (consistent : Consistent s.sched.phase s.sched.idleEnded)
    (ended : ∀ w ∈ workers, s.sched.idleEnded w = true) {p : Tid}
    (may : s.sched.canPush workers p) : ¬Accepts workers s p := by
  intro accepts
  obtain ⟨member, inside⟩ := accepts resting.requested
  have idle := census_eq_zero_iff.mp (counted.symm.trans resting.active) p member
  have looping := not_looping consistent ended member
  have code := may member
  cases phase : s.sched.phase p with
  | starting => exact inside phase
  | inFiber f =>
    rw [phase] at idle
    cases idle
  | woken pipe =>
    rw [phase] at looping
    cases looping
  | _ =>
    rw [phase] at code
    exact code

theorem next (closed : Closed workers s)
    (counted : s.sched.activeThreadCount = census workers Phase.busy s.sched.phase)
    (consistent : Consistent s.sched.phase s.sched.idleEnded)
    (available : (pool workers).enabled s a) (accepted : Accepted workers s a)
    (upToDate : UpToDate workers s a) : Closed workers ((pool workers).next s a) := by
  intro ended'
  have before : (∀ w, a ≠ .readQueue w) → ∀ w ∈ workers, s.sched.idleEnded w = true := by
    intro other
    rwa [idleEnded_next available other] at ended'
  -- a worker in its idle loop, and one that executes a task, keeps the manager open
  have looping : (∀ w, a ≠ .readQueue w) → ∀ w ∈ workers, (s.sched.phase w).loops ≠ true := by
    intro other w member loops
    exact absurd ((not_looping consistent (before other) member).symm.trans loops)
      Bool.false_ne_true
  have silent : (∀ w, a ≠ .readQueue w) → ∀ p, s.sched.canPush workers p →
      ¬Accepts workers s p := by
    intro other p may
    exact not_accepts (closed (before other)).1 counted consistent (before other) may
  cases a with
  | sched a =>
    obtain ⟨resting, timers, pending⟩ := closed (before (by simp))
    refine ⟨resting.next ?_, timers, pending⟩
    rintro p task rfl
    exact silent (by simp) p available.1.2.2.1 accepted
  | timers p a =>
    obtain ⟨resting, timers, pending⟩ := closed (before (by simp))
    obtain ⟨-, -, code, -, able⟩ := available
    cases adds : inserts a with
    | true =>
      cases a with
      | addTimer ms cb recurring now | resetInsert q now =>
        exact absurd accepted (silent (by simp) p (canPush_of_executes code))
      | cancel t | refresh t now | resetErase q t ms fromNow | listExpiredCb now now' rounds
      | getNextTimer => cases adds
    | false =>
      -- Without timers an operation that inserts none leaves none.
      obtain ⟨still, quiet⟩ := timers_stay timers able adds
      have result : (pool workers).next s (.timers p a) = s.locked a := by
        show (if atFront s.timers a then _ else _) = _
        rw [quiet, if_neg Bool.false_ne_true]
      rw [result]
      exact ⟨resting, still, pending⟩
  | listExpiredCb w now now' rounds =>
    obtain ⟨-, member, phase, -⟩ := available
    refine absurd ?_ (looping (by simp) w member)
    rcases phase with phase | phase <;> rw [phase] <;> rfl
  | scheduleExpired w =>
    obtain ⟨-, member, phase, -⟩ := available
    refine absurd ?_ (looping (by simp) w member)
    rcases phase with phase | phase <;> rw [phase] <;> rfl
  | readTimers w | readPending w =>
    obtain ⟨⟨-, member, phase⟩, -⟩ := available
    exact absurd (by rw [phase]; rfl) (looping (by simp) w member)
  | computeTimeout w =>
    obtain ⟨-, member, phase⟩ := available
    exact absurd (by rw [phase]; rfl) (looping (by simp) w member)
  | readQueue w =>
    obtain ⟨⟨-, member, phase⟩, -⟩ := available
    have running : s.sched.idleEnded w = false := (consistent w).1 (by rw [phase]; rfl)
    have result : ((pool workers).next s (.readQueue w)).sched =
        Scheduler.next s.sched (.checkStopping w true) := rfl
    rw [result] at ended'
    -- The worker that reads last ends its idle fiber only if the scheduler stops.
    cases stops : s.sched.stopping with
    | false =>
      have still := ended' w member
      simp [Scheduler.next, stops, running] at still
    | true =>
      have others : ∀ v ∈ workers, v ≠ w → s.sched.idleEnded v = true := by
        intro v member' different
        simpa [Scheduler.next, stops, different] using ended' v member'
      obtain ⟨timers, pending⟩ := upToDate stops others
      exact ⟨(resting_iff.mp stops).next (a := .checkStopping w true) (by simp), timers, pending⟩
  | addEvent p =>
    exact absurd accepted (silent (by simp) p (canPush_of_executes available.2.2))
  | endEvent p =>
    obtain ⟨-, -, pending⟩ := closed (before (by simp))
    exact absurd available.2.2.2 (by rw [pending]; exact Nat.lt_irrefl 0)

end Closed

/-- Runs in which the last worker does not go by reads that are out of date leave nothing. -/
theorem leavesNothing_of_reaches (some : workers.Nonempty)
    (reached : (pool workers).Reaches (fun s a => Accepted workers s a ∧ UpToDate workers s a) s) :
    LeavesNothing workers s := by
  have closed : Closed workers s := by
    refine reached.invariant_of (I := Closed workers)
      (J := fun s => s.sched.activeThreadCount = census workers Phase.busy s.sched.phase ∧
        Consistent s.sched.phase s.sched.idleEnded)
      (fun s prior => ⟨active_of_reachable (sched_reachable prior),
        consistent_of_reachable (sched_reachable prior)⟩) ?_ ?_
    · rintro _ ⟨now, rfl⟩ ended
      obtain ⟨w, member⟩ := some
      exact absurd (ended w member) nofun
    · intro s a known closed available allowed
      exact closed.next known.1 known.2 available allowed.1 allowed.2
  intro left
  have consistent := consistent_of_reachable (sched_reachable reached)
  obtain ⟨resting, rest⟩ := closed fun w member => (consistent w).2 (left w member)
  exact ⟨resting.tasks, rest⟩

/-- Every step that is not up to date ends the last idle fiber, and a timer or an event is
left. -/
theorem left_next {w : Tid} (late : ¬UpToDate workers s (.readQueue w)) :
    (∀ v ∈ workers, ((pool workers).next s (.readQueue w)).sched.idleEnded v = true) ∧
      ¬(((pool workers).next s (.readQueue w)).timers.manager.timers = [] ∧
        ((pool workers).next s (.readQueue w)).pending = 0) := by
  unfold UpToDate at late
  push Not at late
  obtain ⟨stops, others, rest⟩ := late
  refine ⟨fun v member => ?_, fun ⟨timers, pending⟩ => rest timers pending⟩
  show (Scheduler.next s.sched (.checkStopping w true)).idleEnded v = true
  by_cases here : v = w
  · simp [Scheduler.next, stops, here]
  · simpa [Scheduler.next, stops, here] using others v member here

/-- A worker without a task looks at the timers and at the events. -/
def looks (w : ℕ) : List (PoolMove ℕ ℕ ℕ) :=
  [.sched (.scan w), .sched (.enterIdle w), .readTimers w, .readPending w]

/-- It finds nothing to wait for, and its idle fiber ends. -/
def closes (w : ℕ) : List (PoolMove ℕ ℕ ℕ) := [.readQueue w, .sched (.leaveIdle w)]

/-- It leaves `run`. -/
def leaves (w : ℕ) : List (PoolMove ℕ ℕ ℕ) := [.sched (.scan w), .sched (.leaveRun w)]

/-- A thread outside adds a timer and calls `stop()`. The first worker waits for the timer,
and `listExpiredCb` hands it the callback; the second worker finds nothing, and its idle fiber
ends. The first worker pushes the callback, and the second takes it. -/
def lastTask : List (PoolMove ℕ ℕ ℕ) :=
  [.sched (.startRun 0), .sched (.startRun 1), .timers 2 (.addTimer 1 (some 7) false 0),
    .sched (.hasIdleThreads 2 false), .sched (.stop 2), .sched (.scan 0), .sched (.enterIdle 0),
    .readTimers 0, .computeTimeout 0, .sched (.epollWait 0), .sched (.wake 0 false),
    .listExpiredCb 0 1000000 1000000 1] ++
  looks 1 ++ closes 1 ++
  [.scheduleExpired 0, .sched (.hasIdleThreads 0 true), .sched (.writePipe 0 true),
    .sched (.idleYield 0), .sched (.leaveIdle 0), .sched (.scan 1),
    .sched (.makeFiber 1 ⟨none, some 7, none⟩ 0), .sched (.resume 1 0), .sched (.switchIn 1 0)]

/-- The task is done. -/
def done (w f : ℕ) : List (PoolMove ℕ ℕ ℕ) :=
  [.sched (.terminate w f), .sched (.switchOut w f), .sched (.unlockFiber w f), .sched (.finish w)]

theorem leavesNothing_lastTask :
    let s := (pool {0, 1}).after (Pool.initial 0)
      (lastTask ++ done 1 0 ++ leaves 1 ++ looks 0 ++ closes 0 ++ leaves 0)
    (s.sched.phase 0 = .exited ∧ s.sched.phase 1 = .exited) ∧ LeavesNothing {0, 1} s := by
  have starts : (pool {0, 1}).init (Pool.initial 0 : Pool ℕ ℕ ℕ) := ⟨0, rfl⟩
  have follows : (pool {0, 1}).Follows (fun s a => Accepted {0, 1} s a ∧ UpToDate {0, 1} s a)
      (Pool.initial 0)
      (lastTask ++ done 1 0 ++ leaves 1 ++ looks 0 ++ closes 0 ++ leaves 0) := by
    decide +kernel
  exact ⟨by decide +kernel,
    leavesNothing_of_reaches ⟨0, by decide⟩ ((Machine.Reaches.start starts).follow follows)⟩

/-- The last task adds a timer behind the look of the first worker at the timers. -/
theorem abandons :
    ¬ ∀ s : Pool ℕ ℕ ℕ, (pool {0, 1}).Reaches (Accepted {0, 1}) s → LeavesNothing {0, 1} s := by
  intro nothing
  have starts : (pool {0, 1}).init (Pool.initial 0 : Pool ℕ ℕ ℕ) := ⟨0, rfl⟩
  have follows : (pool {0, 1}).Follows (Accepted {0, 1}) (Pool.initial 0)
      (lastTask ++ looks 0 ++
        [.timers 1 (.addTimer 100 (some 8) false 2000000), .sched (.hasIdleThreads 1 false),
          .sched (.writePipe 1 false)] ++
        done 1 0 ++ leaves 1 ++ closes 0 ++ leaves 0) := by
    decide +kernel
  have left := nothing _ ((Machine.Reaches.start starts).follow follows) (by decide +kernel)
  exact absurd left.2.1 (by decide +kernel)

end CoroutineService.IOManager
