import CoroutineService.IOManager.Machine

/-!
# Stale notifications

The mask `epoll_wait` reports is a snapshot. By the time `idle` locks the context,
other threads may have removed some of the events. `idle` tests whether any
reported event is still registered, and then triggers every reported one.

## Main definitions

* `Handles`: the events triggered are those reported and still registered
* `Fresh`: all or none of the reported events are registered

## Main results

* `handles_iff_fresh`: a dispatch is handled exactly when it is fresh
* `handles_of_reaches`: the same along runs, in which no assertion has failed
* `stale_dispatch`: a stale notification fails the assertion of `triggerEvent`
-/

set_option autoImplicit false

namespace CoroutineService.IOManager

open CoroutineService.Transition CoroutineService.Scheduler

variable {Tid Sch Fib Cb : Type} [DecidableEq Tid]
variable {s s' : State Tid Sch Fib Cb} {w : Tid} {success : Bool}

/-- From `s` to `s'` exactly those events of one entry are triggered that are
reported and registered: no assertion has failed, these events are cleared, each
is scheduled once, and the counter has fallen by their number; the other contexts
and batches are unchanged. -/
structure Handles (s s' : State Tid Sch Fib Cb) (ptr : ℕ) (ready : Ready) : Prop where
  fault : s'.fault = s.fault
  batch : s'.batch = s.batch
  cleared : s'.context ptr = (s.context ptr).clearAll ((s.context ptr).triggering ready)
  others : ∀ other, other ≠ ptr → s'.context other = s.context other
  scheduled : s'.scheduled =
    s.scheduled ++ (s.context ptr).continuations ((s.context ptr).triggering ready)
  once : s'.scheduled.length = s.scheduled.length + ((s.context ptr).triggering ready).count
  fallen : s'.pendingEventCount + ((s.context ptr).triggering ready).count = s.pendingEventCount

/-- The worker `w` handles the next entry of its batch. -/
def HandlesNext (s s' : State Tid Sch Fib Cb) (w : Tid) : Prop :=
  ∀ ptr ready rest, s.batch w = (ptr, ready) :: rest →
    Handles { s with batch := Function.update s.batch w rest } s' ptr ready

/-- When a worker comes to the next entry of its batch, none of the reported
events is registered, or all of them are and `epoll_ctl` succeeds. -/
def Fresh (s : State Tid Sch Fib Cb) : Move Tid Sch Fib Cb → Prop
  | .dispatch w success => ∀ entry ∈ (s.batch w).head?,
    (s.context entry.1).triggering entry.2 = .none ∨
      success = true ∧
        (entry.2.realEvents (s.context entry.1).events).Subset (s.context entry.1).events
  | _ => True

instance (s : State Tid Sch Fib Cb) (a : Move Tid Sch Fib Cb) : Decidable (Fresh s a) := by
  induction a using Move.casesOn <;> (dsimp only [Fresh]; infer_instance)

omit [DecidableEq Tid] in
theorem FdContext.clearAll_none {ctx : FdContext Sch Fib Cb} : ctx.clearAll .none = ctx := rfl

omit [DecidableEq Tid] in
/-- A dispatch triggers what is reported and registered exactly when none of the
reported events is registered, or all of them are and `epoll_ctl` succeeds. -/
theorem Registered.handles_iff (registered : Registered s) (running : s.fault = none) (ptr : ℕ)
    (ready : Ready) (success : Bool) :
    Handles s (s.close (IOManager.dispatch s ptr ready success)) ptr ready ↔
      (s.context ptr).triggering ready = .none ∨ success = true ∧
        (ready.realEvents (s.context ptr).events).Subset (s.context ptr).events := by
  by_cases none : (s.context ptr).triggering ready = .none
  · -- nothing to trigger, nothing happens
    rw [dispatch_skip (.inl none)]
    refine iff_of_true ⟨rfl, rfl, ?_, fun _ _ => rfl, ?_, ?_, ?_⟩ (.inl none)
    · rw [none, FdContext.clearAll_none]
      rfl
    all_goals simp [State.close, none, FdContext.continuations, Events.none, Events.count]
  have some := Events.count_pos none
  cases success with
  | false =>
    -- the events stay registered
    rw [dispatch_skip (.inr rfl)]
    refine iff_of_false (fun handles => ?_) (by simp [none])
    have fallen := handles.fallen
    simp only [State.close] at fallen
    omega
  | true =>
    by_cases all : (s.context ptr).triggering ready = ready.realEvents (s.context ptr).events
    · rw [registered.dispatch_sweep none all]
      obtain ⟨fallen, scheduled⟩ := registered.sweep_counts
        (Events.inter_subset (m := (s.context ptr).events)
          (n := ready.realEvents (s.context ptr).events))
      refine iff_of_true ⟨?_, ?_, ?_, fun other differs => ?_, ?_, scheduled, fallen⟩
        (.inr ⟨rfl, Events.inter_eq_iff.mp all⟩)
      all_goals simp [State.close, State.swept, State.sweep_eq, State.setContext, *]
    · -- the assertion of `triggerEvent` fails
      rw [registered.dispatch_fault none all]
      refine iff_of_false (fun handles => ?_) ?_
      · have faults := handles.fault
        rw [running] at faults
        cases faults
      · rintro (absent | ⟨-, subset⟩)
        · exact none absent
        · exact all (Events.inter_eq_iff.mpr subset)

theorem handlesNext_iff (reached : ioMachine.Reachable s)
    (available : ioMachine.enabled s (.dispatch w success)) :
    HandlesNext s (ioMachine.next s (.dispatch w success)) w ↔ Fresh s (.dispatch w success) := by
  obtain ⟨running, waits⟩ := available
  obtain ⟨⟨ptr, ready⟩, rest, batch⟩ := List.exists_cons_of_ne_nil waits
  have popped : Registered { s with batch := Function.update s.batch w rest } :=
    (registered_of_reachable reached).setBatch
  have entry := popped.handles_iff running ptr ready success
  have fresh : Fresh s (.dispatch w success) ↔ (s.context ptr).triggering ready = .none ∨
      success = true ∧
        (ready.realEvents (s.context ptr).events).Subset (s.context ptr).events := by
    simp [Fresh, batch]
  rw [fresh, ← entry]
  have goes : ioMachine.next s (.dispatch w success) =
      { s with batch := Function.update s.batch w rest }.close
        (dispatch { s with batch := Function.update s.batch w rest } ptr ready success) := by
    simp only [ioMachine, next, batch]
  rw [goes]
  refine ⟨fun handles => handles ptr ready rest batch, fun handles ptr' ready' rest' same => ?_⟩
  rw [batch] at same
  cases same
  exact handles

/-- Only a dispatch can fail the assertion of `triggerEvent`. -/
theorem Registered.fault_of_timely {a : Move Tid Sch Fib Cb} (registered : Registered s)
    (running : s.fault = none) (timely : Timely s a) :
    (next s a).fault ≠ some .triggerEvent := by
  rcases registered.step (a := a) (T := ⟨0, 0⟩) with
    ⟨_, _, settles, -⟩ | ⟨s', fault, fails, -, -, may⟩
  · rw [settles.fault, running]
    exact nofun
  · rw [fails]
    cases may with
    | getEventContext => exact nofun
    | triggerEvent stale => exact absurd timely stale

/-- In a run all of whose dispatches are fresh no assertion of `triggerEvent` has
failed, and a dispatch triggers exactly the reported and registered events as long
as it is fresh. -/
theorem handlesNext_of_reaches (reached : ioMachine.Reaches Fresh s) :
    s.fault ≠ some .triggerEvent ∧ ∀ w success, ioMachine.enabled s (.dispatch w success) →
      (HandlesNext s (ioMachine.next s (.dispatch w success)) w ↔
        Fresh s (.dispatch w success)) := by
  refine ⟨?_, fun w success available => handlesNext_iff reached.reachable available⟩
  refine reached.invariant_of (J := ioMachine.Reachable)
    (I := fun s => s.fault ≠ some .triggerEvent) (fun s prior => prior.reachable)
    (fun s starts => ?_) fun s a prior _ available fresh => ?_
  · obtain rfl : s = State.initial := starts
    exact nofun
  · cases a with
    | dispatch w success =>
      have handles := (handlesNext_iff prior available).mpr fresh
      obtain ⟨running, waits⟩ := available
      obtain ⟨⟨ptr, ready⟩, rest, batch⟩ := List.exists_cons_of_ne_nil waits
      rw [(handles ptr ready rest batch).fault]
      simp [running]
    | _ => exact (registered_of_reachable prior).fault_of_timely available.1 trivial

/-- Both events of a descriptor are reported; before the worker comes to handle
them, one of them is cancelled. -/
def cancelledMeanwhile : List (Move ℕ ℕ ℕ ℕ) :=
  [.addEvent 5 .read 0 1 none true, .addEvent 5 .write 0 2 none true,
    .epollWait 0 [(5, ⟨true, true, false⟩)], .cancelEvent 5 .read true]

theorem handlesNext_cancelledMeanwhile :
    let s := ioMachine.after State.initial
      (cancelledMeanwhile ++ [.cancelEvent 5 .write true])
    s.batch 0 = [(5, ⟨true, true, false⟩)] ∧ s.fault ≠ some .triggerEvent ∧
      ∀ w success, ioMachine.enabled s (.dispatch w success) →
        (HandlesNext s (ioMachine.next s (.dispatch w success)) w ↔
          Fresh s (.dispatch w success)) :=
  ⟨by decide, handlesNext_of_reaches (Machine.Reaches.follow (.start rfl) (by decide))⟩

theorem stale_dispatch :
    ¬ ∀ (s : State ℕ ℕ ℕ ℕ) w success, ioMachine.Reachable s →
      ioMachine.enabled s (.dispatch w success) →
      HandlesNext s (ioMachine.next s (.dispatch w success)) w := by
  intro always
  have handles := (always (ioMachine.after State.initial cancelledMeanwhile) 0 true
    (Machine.reachable_after rfl (by decide)) (by decide) 5 ⟨true, true, false⟩ []
    (by decide)).fault
  revert handles
  decide

end CoroutineService.IOManager
