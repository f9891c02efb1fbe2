import CoroutineService.Scheduler.Accounting

/-!
# Idle fibers

Every worker has an idle fiber, which ends when `stopping()` is true; the worker leaves
`run` when it would have to resume it once more. Once all idle fibers have ended there is
nothing left to do: no task is queued, none is being executed, and none comes up.

## Main definitions

* `Consistent`: idle fibers that are executed have not ended
* `Resting`: `stopping()` is true

## Main results

* `consistent_of_reachable`: idle fibers are consistent along every run
* `settled_next`, `inRun_next`: a worker settles with a new timeout, and stays in `run`
* `Resting.next`: nothing happens any more unless a task is pushed
-/

set_option autoImplicit false

namespace CoroutineService.Scheduler

open CoroutineService.Transition

variable {Tid Fib Cb : Type*}

/-- The idle fiber is being executed. -/
def Phase.loops : Phase Tid Fib Cb → Bool
  | .idleTop | .arming | .armed | .blocked | .woken _ => true
  | _ => false

/-- A worker that holds a timeout for `epoll_wait`. -/
def Phase.settled : Phase Tid Fib Cb → Bool
  | .armed | .blocked => true
  | _ => false

/-- A worker in `run`. -/
def Phase.inRun : Phase Tid Fib Cb → Bool
  | .starting | .exited => false
  | _ => true

theorem loops_of_settled {v : Phase Tid Fib Cb} (settled : v.settled = true) : v.loops = true := by
  cases v with
  | armed | blocked => rfl
  | _ => cases settled

theorem inRun_of_settled {v : Phase Tid Fib Cb} (settled : v.settled = true) : v.inRun = true := by
  cases v with
  | armed | blocked => rfl
  | _ => cases settled

theorem idle_of_settled {v : Phase Tid Fib Cb} (settled : v.settled = true) : v.idle = true := by
  cases v with
  | armed | blocked => rfl
  | _ => cases settled

/-- An idle fiber that is executed has not ended, and `run` is left only when it has. -/
def Consistent (phase : Tid → Phase Tid Fib Cb) (idleEnded : Tid → Bool) : Prop :=
  ∀ w, ((phase w).loops = true → idleEnded w = false) ∧ (phase w = .exited → idleEnded w = true)

variable [DecidableEq Tid]

theorem Consistent.update {phase : Tid → Phase Tid Fib Cb} {idleEnded : Tid → Bool}
    (consistent : Consistent phase idleEnded) {w : Tid} {v : Phase Tid Fib Cb}
    (loops : v.loops = true → idleEnded w = false) (exited : v = .exited → idleEnded w = true) :
    Consistent (Function.update phase w v) idleEnded := by
  intro u
  by_cases here : u = w
  · subst here
    rw [Function.update_self]
    exact ⟨loops, exited⟩
  · rw [Function.update_of_ne here]
    exact consistent u

/-- A worker goes on in its idle fiber. -/
theorem Consistent.inside {phase : Tid → Phase Tid Fib Cb} {idleEnded : Tid → Bool}
    (consistent : Consistent phase idleEnded) {w : Tid} {v : Phase Tid Fib Cb}
    (going : idleEnded w = false) (inRun : v.inRun = true) :
    Consistent (Function.update phase w v) idleEnded := by
  refine consistent.update (fun _ => going) fun exited => ?_
  rw [exited] at inRun
  cases inRun

/-- A worker goes on outside of its idle fiber. -/
theorem Consistent.outside {phase : Tid → Phase Tid Fib Cb} {idleEnded : Tid → Bool}
    (consistent : Consistent phase idleEnded) {w : Tid} {v : Phase Tid Fib Cb}
    (loops : v.loops = false) (inRun : v.inRun = true) :
    Consistent (Function.update phase w v) idleEnded := by
  refine consistent.update (fun loops' => absurd (loops.symm.trans loops') Bool.false_ne_true)
    fun exited => ?_
  rw [exited] at inRun
  cases inRun

variable [DecidableEq Fib] {workers : Finset Tid} {s : State Tid Fib Cb} {a : Move Tid Fib Cb}

/-- The idle fiber of a worker ends when `stopping()` is true. -/
theorem Consistent.checkStopping (consistent : Consistent s.phase s.idleEnded) {w : Tid}
    {quiet : Bool} (stands : s.phase w = .idleTop) :
    Consistent (next s (.checkStopping w quiet)).phase
      (next s (.checkStopping w quiet)).idleEnded := by
  have looping : s.idleEnded w = false := (consistent w).1 (by rw [stands]; rfl)
  simp only [next]
  split
  · intro u
    by_cases here : u = w
    · subst here
      simp [Phase.loops]
    · simp only [State.goto_phase, State.goto_idleEnded, Function.update_of_ne here]
      exact consistent u
  · exact consistent.inside looping rfl

theorem Consistent.next (consistent : Consistent s.phase s.idleEnded)
    (available : guard workers s a) :
    Consistent (next s a).phase (next s a).idleEnded := by
  cases a with
  | checkStopping w quiet => exact consistent.checkStopping available.2
  | scan w =>
    simp only [Scheduler.next]
    split
    · exact consistent.outside rfl rfl
    · split
      · exact consistent.outside rfl rfl
      · exact consistent
  | resume w f | yield w f =>
    simp only [Scheduler.next]
    split
    all_goals first
      | exact consistent
      | exact Consistent.outside consistent rfl rfl
  | checkState w f =>
    simp only [Scheduler.next]
    split <;> exact Consistent.outside consistent rfl rfl
  | enterIdle w => exact consistent.inside available.2.2.2 rfl
  | leaveRun w =>
    exact consistent.update (fun loops => absurd loops Bool.false_ne_true) fun _ => available.2.2.2
  | computeTimeout w | epollWait w | interrupt w =>
    exact consistent.inside ((consistent w).1 (by rw [available.2]; rfl)) rfl
  | wake w pipe =>
    exact consistent.inside ((consistent w).1 (by rw [available.2.1]; rfl)) rfl
  | drain w =>
    exact consistent.inside ((consistent w).1 (by rw [available.2.2]; rfl)) rfl
  | scheduleLock p task | tickle p | hasIdleThreads p push | writePipe p push | construct p f
  | stop p => exact consistent
  | _ => exact consistent.outside rfl rfl

/-- An idle fiber ends only in `stopping()`. -/
theorem idleEnded_next (other : ∀ w, a ≠ .checkStopping w true) :
    (next s a).idleEnded = s.idleEnded := by
  cases a with
  | checkStopping w quiet =>
    have noisy : quiet = false := eq_false_of_ne_true fun quiet' => other w (quiet' ▸ rfl)
    simp [next, noisy]
  | scan w =>
    simp only [next]
    split
    · rfl
    · split <;> rfl
  | resume w f | yield w f =>
    simp only [next]
    split <;> rfl
  | _ => rfl

/-- Only the computation of a timeout makes a worker settle. -/
theorem settled_next {w : Tid} (available : guard workers s a) (other : ∀ v, a ≠ .computeTimeout v)
    (settled : ((next s a).phase w).settled = true) : (s.phase w).settled = true := by
  by_cases acts : a.worker = some w
  · cases a with
    | epollWait v =>
      cases acts
      rw [available.2]
      rfl
    | computeTimeout v => exact absurd rfl (other v)
    | scheduleLock p task | tickle p | hasIdleThreads p push | writePipe p push | construct p f
    | stop p => cases acts
    | scan v =>
      cases acts
      simp only [next] at settled
      split at settled
      · simp [Phase.settled] at settled
      · split at settled
        · simp [Phase.settled] at settled
        · exact settled
    | resume v f | yield v f =>
      cases acts
      simp only [next] at settled
      split at settled
      all_goals first
        | exact settled
        | simp [Phase.settled] at settled
    | checkState v f | checkStopping v quiet =>
      cases acts
      simp only [next] at settled
      split at settled <;> simp [Phase.settled] at settled
    | _ =>
      cases acts
      simp [next, Phase.settled] at settled
  · rwa [phase_next_of_ne acts] at settled

/-- A worker whose idle fiber has not ended stays in `run`. -/
theorem inRun_next {w : Tid} (available : guard workers s a) (going : s.idleEnded w = false)
    (runs : (s.phase w).inRun = true) : ((next s a).phase w).inRun = true := by
  by_cases acts : a.worker = some w
  · cases a with
    | leaveRun v =>
      cases acts
      exact absurd (going.symm.trans available.2.2.2) nofun
    | scheduleLock p task | tickle p | hasIdleThreads p push | writePipe p push | construct p f
    | stop p => cases acts
    | scan v =>
      cases acts
      simp only [next]
      split
      · simp [Phase.inRun]
      · split
        · simp [Phase.inRun]
        · exact runs
    | resume v f | yield v f =>
      cases acts
      simp only [next]
      split
      all_goals first
        | exact runs
        | simp [Phase.inRun]
    | checkState v f | checkStopping v quiet =>
      cases acts
      simp only [next]
      split <;> simp [Phase.inRun]
    | _ =>
      cases acts
      simp [next, Phase.inRun]
  · rwa [phase_next_of_ne acts]

/-- A worker at `stopping()` goes on from there only. -/
theorem idleTop_next {w : Tid} (available : guard workers s a)
    (other : ∀ v quiet, a ≠ .checkStopping v quiet) (stands : s.phase w = .idleTop) :
    (next s a).phase w = .idleTop := by
  by_cases acts : a.worker = some w
  · have elsewhere : s.phase w ≠ .idleTop := by
      cases a with
      | checkStopping v quiet => exact absurd rfl (other v quiet)
      | scheduleLock p task | tickle p | hasIdleThreads p push | writePipe p push | construct p f
      | stop p => cases acts
      | _ =>
        cases acts
        simp only [guard] at available
        simp [available]
    exact absurd stands elsewhere
  · rwa [phase_next_of_ne acts]

/-- The pipe is emptied by a worker that has woken up. -/
theorem unread_next (other : ∀ w, a ≠ .drain w) : s.unread ≤ (next s a).unread := by
  cases a with
  | drain w => exact absurd rfl (other w)
  | writePipe p push => exact Nat.le_succ _
  | scan w =>
    simp only [next]
    split
    · exact le_rfl
    · split <;> exact le_rfl
  | resume w f | yield w f | checkStopping w quiet =>
    simp only [next]
    split <;> exact le_rfl
  | _ => exact le_rfl

/-- What `Scheduler::stopping` looks at. -/
structure Resting (s : State Tid Fib Cb) : Prop where
  requested : s.stopRequested = true
  tasks : s.tasks = []
  active : s.activeThreadCount = 0

omit [DecidableEq Tid] [DecidableEq Fib] in
theorem resting_iff : s.stopping = true ↔ Resting s := by
  unfold State.stopping
  rw [Bool.and_eq_true, Bool.and_eq_true, List.isEmpty_iff, beq_iff_eq]
  exact ⟨fun ⟨⟨requested, tasks⟩, active⟩ => ⟨requested, tasks, active⟩,
    fun resting => ⟨⟨resting.requested, resting.tasks⟩, resting.active⟩⟩

/-- No step but a push makes work again. -/
theorem Resting.next (resting : Resting s) (other : ∀ p task, a ≠ .scheduleLock p task) :
    Resting (Scheduler.next s a) := by
  obtain ⟨requested, tasks, active⟩ := resting
  have still : (Scheduler.next s a).tasks = [] := by
    refine List.eq_nil_iff_forall_not_mem.mpr fun task mem => ?_
    rcases mem_tasks_next mem with old | ⟨p, pushed, -⟩
    · rw [tasks] at old
      exact absurd old List.not_mem_nil
    · exact other p task pushed
  refine ⟨?_, still, ?_⟩
  · cases a with
    | scan w =>
      simp only [Scheduler.next, tasks]
      exact requested
    | resume w f | yield w f | checkStopping w quiet =>
      simp only [Scheduler.next]
      split <;> exact requested
    | stop p => rfl
    | _ => exact requested
  · cases a with
    | scan w =>
      simp only [Scheduler.next, tasks]
      exact active
    | resume w f | yield w f | checkStopping w quiet =>
      simp only [Scheduler.next]
      split <;> exact active
    | finish w => exact congrArg (· - 1) active
    | _ => exact active

theorem consistent_of_reachable (reached : (machine workers).Reachable s) :
    Consistent s.phase s.idleEnded := by
  refine reached.invariant (I := fun s => Consistent s.phase s.idleEnded) ?_ ?_
  · rintro _ rfl w
    exact ⟨nofun, nofun⟩
  · intro s a consistent available _
    exact consistent.next available.2

end CoroutineService.Scheduler
