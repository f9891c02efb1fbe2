import CoroutineService.IOManager.Machine

/-!
# What the removal calls report

`delEvent`, `cancelEvent` and `cancelAll` tell their caller with a `bool` whether they have
removed what was registered. Where `epoll_ctl` fails they leave with `return -1`, as
`addEvent` does with its `int`, and the caller reads that as success.

## Main definitions

* `State.eventsAt`: what is registered on a descriptor
* `Removed`: the registrations of a mask are gone, and their continuations scheduled
* `Reports`: the result of a call says whether it has removed anything

## Main results

* `reports_iff`: the calls report what they have done unless `epoll_ctl` fails
* `not_reports`: a registration that is there after a call that returned `true`
-/

set_option autoImplicit false

namespace CoroutineService.IOManager

open CoroutineService.Transition CoroutineService.Scheduler

variable {Tid Sch Fib Cb : Type} {s s' : State Tid Sch Fib Cb} {fd : ℕ} {event : Event}
variable {mask : Events} {cancels success : Bool}

/-- The events of the `FdContext` of `fd`; beyond the table there is none. -/
def State.eventsAt (s : State Tid Sch Fib Cb) (fd : ℕ) : Events :=
  match s.lookup fd with
  | none => .none
  | some ptr => (s.context ptr).events

/-- Between `s` and `s'` the bits of `mask`, which were set for `fd`, have been cleared, their
event contexts emptied and the counter lowered; if the call `cancels`, the continuations
have been scheduled. -/
structure Removed (s s' : State Tid Sch Fib Cb) (fd : ℕ) (mask : Events) (cancels : Bool) :
    Prop where
  proper : mask ≠ .none
  registered : mask.Subset (s.eventsAt fd)
  cleared : s'.eventsAt fd = (s.eventsAt fd).diff mask
  reset : ∀ ptr ∈ s.lookup fd, ∀ event, mask.has event = true →
    (s'.context ptr).getEventContext event = .ok .empty
  scheduled : cancels = true → ∀ ptr ∈ s.lookup fd,
    s'.scheduled = s.scheduled ++ (s.context ptr).continuations mask
  counted : s'.pendingEventCount + mask.count = s.pendingEventCount

/-- A call on `fd` that is to remove the events of `mask` returns, and its result is `true` if
and only if it has removed them; a call that returns `false` has left the contexts, the
counter and what is scheduled as they were. -/
def Reports (s : State Tid Sch Fib Cb) (fd : ℕ) (mask : Events) (cancels : Bool)
    (call : Except Fault (Bool × State Tid Sch Fib Cb)) : Prop :=
  ∃ removed s', call = .ok (removed, s') ∧
    (removed = true ↔ Removed s s' fd mask cancels) ∧
    (removed = false → s'.context = s.context ∧ s'.pendingEventCount = s.pendingEventCount ∧
      s'.scheduled = s.scheduled)

/-! ### What a removal leaves -/

theorem Registered.eventsAt_eq (registered : Registered s) :
    s.eventsAt fd = (s.context fd).events := by
  unfold State.eventsAt
  rw [registered.lookup_eq]
  by_cases inside : fd < s.table.contexts.length
  · rw [if_pos inside]
  · rw [if_neg inside, registered.beyond fd (Nat.le_of_not_lt inside)]
    rfl

/-- What changes nothing removes nothing. -/
theorem not_removed_self : ¬Removed s s fd mask cancels := by
  intro removed
  have bits := Events.count_pos removed.proper
  have same := removed.counted
  omega

theorem FdContext.getEventContext_clearEvent {ctx : FdContext Sch Fib Cb} {other : Event} :
    (ctx.clearEvent event).getEventContext other =
      if other = event ∧ other ≠ .none then .ok .empty else ctx.getEventContext other := by
  rw [FdContext.clearEvent, FdContext.getEventContext_setEventContext,
    FdContext.getEventContext_mask]

/-- The event contexts of the events cleared are empty. -/
theorem FdContext.getEventContext_clearAll {ctx : FdContext Sch Fib Cb}
    (set : mask.has event = true) : (ctx.clearAll mask).getEventContext event = .ok .empty := by
  unfold FdContext.clearAll
  cases event with
  | none => simp at set
  | read =>
    rw [Events.has_read] at set
    cases mask.write <;> simp [set, getEventContext_clearEvent]
  | write =>
    rw [Events.has_write] at set
    simp [set, getEventContext_clearEvent]

/-- The events that are triggered are removed. -/
theorem Registered.removed_swept (registered : Registered s) (proper : mask ≠ .none)
    (subset : mask.Subset (s.context fd).events) :
    Removed s (s.swept mask fd) fd mask cancels := by
  have settled : Registered (s.swept mask fd) := (registered.sweep subset).registered
  have context : (s.swept mask fd).context fd = (s.context fd).clearAll mask := by
    rw [State.swept, State.sweep_eq]
    simp [State.setContext]
  have own : ∀ ptr ∈ s.lookup fd, ptr = fd := by
    intro ptr found
    rw [registered.lookup_eq] at found
    split at found
    · exact (Option.some_inj.mp found).symm
    · cases found
  refine ⟨proper, ?_, ?_, ?_, ?_, ?_⟩
  · rwa [registered.eventsAt_eq]
  · rw [settled.eventsAt_eq, registered.eventsAt_eq, context, FdContext.clearAll_events]
  · intro ptr found event set
    rw [own ptr found, context]
    exact FdContext.getEventContext_clearAll set
  · intro _ ptr found
    rw [own ptr found, State.swept, State.sweep_eq]
  · exact (registered.sweep_counts subset).1

theorem FdContext.clearAll_mask {ctx : FdContext Sch Fib Cb} (proper : event ≠ .none) :
    ctx.clearAll event.mask = ctx.clearEvent event := by
  cases event
  · exact absurd rfl proper
  all_goals rfl

/-- An event that is deleted is removed without being scheduled. -/
theorem Registered.removed_deleted (registered : Registered s)
    (set : (s.context fd).events.has event = true) :
    Removed s (s.deleted event fd) fd event.mask false := by
  have proper := Events.ne_none_of_has set
  -- apart from what is scheduled, the event is triggered
  have triggered : Removed s (s.swept event.mask fd) fd event.mask false :=
    registered.removed_swept (by cases event <;> simp_all [Event.mask, Events.none])
      (Events.mask_subset set)
  have context : (s.deleted event fd).context = (s.swept event.mask fd).context := by
    rw [State.swept, State.sweep_eq, State.deleted]
    simp [State.setContext, FdContext.clearAll_mask proper]
  have settled : Registered (s.deleted event fd) := (registered.deleted set).registered
  have settled' : Registered (s.swept event.mask fd) :=
    (registered.sweep (Events.mask_subset set)).registered
  refine ⟨triggered.proper, triggered.registered, ?_, ?_, ?_, ?_⟩
  · rw [settled.eventsAt_eq, context, ← settled'.eventsAt_eq]
    exact triggered.cleared
  · rw [context]
    exact triggered.reset
  · exact fun cancels => absurd cancels Bool.false_ne_true
  · have counted := triggered.counted
    rw [State.swept, State.sweep_eq] at counted
    have one : event.mask.count = 1 := by cases event <;> simp_all [Event.mask, Events.count]
    rw [one] at counted ⊢
    exact counted

/-! ### What the calls report -/

theorem reports_idle {call : Except Fault (Bool × State Tid Sch Fib Cb)}
    (idle : call = .ok (false, s)) : Reports s fd mask cancels call := by
  refine ⟨false, s, idle, ?_, fun _ => ⟨rfl, rfl, rfl⟩⟩
  exact iff_of_false Bool.false_ne_true not_removed_self

theorem reports_removed {call : Except Fault (Bool × State Tid Sch Fib Cb)}
    (done : call = .ok (true, s')) (removed : Removed s s' fd mask cancels) :
    Reports s fd mask cancels call :=
  ⟨true, s', done, iff_of_true rfl removed, fun no => absurd no.symm Bool.false_ne_true⟩

theorem not_reports_of_failed {call : Except Fault (Bool × State Tid Sch Fib Cb)}
    (failed : call = .ok (true, s)) : ¬Reports s fd mask cancels call := by
  rintro ⟨removed, s', done, told, -⟩
  obtain ⟨rfl, rfl⟩ := Prod.mk.inj (Except.ok.inj (failed.symm.trans done))
  exact not_removed_self (told.mp rfl)

/-- A call that is idle unless something is registered, and otherwise removes it if
`epoll_ctl` succeeds, reports what it has done if and only if one or the other is the case. -/
theorem reports_iff_of_eq {idle : Prop} [Decidable idle]
    {call : Except Fault (Bool × State Tid Sch Fib Cb)}
    (outcome : call = .ok (if idle then (false, s) else (true, if success then s' else s)))
    (removed : ¬idle → Removed s s' fd mask cancels) :
    Reports s fd mask cancels call ↔ success = true ∨ idle := by
  by_cases stops : idle
  · rw [if_pos stops] at outcome
    exact iff_of_true (reports_idle outcome) (.inr stops)
  · rw [if_neg stops] at outcome
    cases success with
    | false => exact iff_of_false (not_reports_of_failed outcome) (by simp [stops])
    | true => exact iff_of_true (reports_removed outcome (removed stops)) (.inl rfl)

/-- The calls report what they have done if and only if `epoll_ctl` succeeds or there was
nothing to remove. -/
theorem reports_iff (s : State Tid Sch Fib Cb) (registered : Registered s) (fd : ℕ)
    (event : Event) (success : Bool) :
    (Reports s fd event.mask false (delEvent s fd event success) ↔
      success = true ∨ (s.eventsAt fd).has event = false) ∧
    (Reports s fd event.mask true (cancelEvent s fd event success) ↔
      success = true ∨ (s.eventsAt fd).has event = false) ∧
    (Reports s fd (s.eventsAt fd) true (cancelAll s fd success) ↔
      success = true ∨ s.eventsAt fd = .none) := by
  rw [registered.eventsAt_eq]
  refine ⟨?_, ?_, ?_⟩
  · refine reports_iff_of_eq (registered.delEvent_eq fd event success) fun there => ?_
    exact registered.removed_deleted (by simpa using there)
  · refine reports_iff_of_eq (registered.cancelEvent_eq fd event success) fun there => ?_
    have set : (s.context fd).events.has event = true := by simpa using there
    have proper := Events.ne_none_of_has set
    exact registered.removed_swept (by cases event <;> simp_all [Event.mask, Events.none])
      (Events.mask_subset set)
  · refine reports_iff_of_eq (registered.cancelAll_eq fd success) fun there => ?_
    exact registered.removed_swept there fun _ set => set

/-- A fiber waits until descriptor 5 can be read. -/
def oneReader : State ℕ ℕ ℕ ℕ :=
  ioMachine.after State.initial [.addEvent 5 .read 0 1 none true]

theorem registered_oneReader : Registered oneReader := by
  have starts : ioMachine.init (State.initial : State ℕ ℕ ℕ ℕ) := rfl
  have follows : ioMachine.Follows (fun _ _ => True) (State.initial : State ℕ ℕ ℕ ℕ)
      [.addEvent 5 .read 0 1 none true] := by decide
  exact registered_of_reachable ((Machine.Reaches.start starts).follow follows)

theorem reports_oneReader :
    Reports oneReader 5 Event.read.mask true (cancelEvent oneReader 5 .read true) :=
  (reports_iff oneReader registered_oneReader 5 .read true).2.1.mpr (.inl rfl)

/-- When `epoll_ctl` fails, `cancelEvent` returns `true` and the fiber waits on. -/
theorem not_reports :
    ¬ ∀ s : State ℕ ℕ ℕ ℕ, Registered s → ∀ fd event success,
      Reports s fd event.mask false (delEvent s fd event success) ∧
      Reports s fd event.mask true (cancelEvent s fd event success) ∧
      Reports s fd (s.eventsAt fd) true (cancelAll s fd success) := by
  intro report
  have failed : cancelEvent oneReader 5 .read false = .ok (true, oneReader) := by
    rw [registered_oneReader.cancelEvent_eq, if_neg (by decide)]
    rfl
  exact not_reports_of_failed failed (report oneReader registered_oneReader 5 .read false).2.1

end CoroutineService.IOManager
