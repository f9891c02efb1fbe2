import CoroutineService.IOManager.Registrations

/-!
# What the operations of an IOManager do

Under the invariant `Registered` each operation has few outcomes: it changes
nothing, or it changes one context together with the kernel and the counter, or an
assertion fails. The lemmas of this file say which, and that the invariant is kept.

## Main definitions

* `Settles`: what an operation does to the books
* `FdContext.triggering`: the events of a dispatched entry that are registered
* `Extends`: what was scheduled before an operation is scheduled after it

## Main results

* `Registered.addEvent`, `Registered.delEvent`, `Registered.cancelEvent`,
  `Registered.cancelAll`: the outcomes of the operations
* `dispatch_skip`, `Counted.dispatch_sweep`, `Counted.dispatch_fault`: the three
  outcomes of a dispatch
-/

set_option autoImplicit false

namespace CoroutineService.IOManager

open CoroutineService.Transition CoroutineService.Scheduler

variable {Tid Sch Fib Cb : Type} {s : State Tid Sch Fib Cb} {fd ptr : ℕ} {event : Event}
variable {success : Bool}

/-- After an operation everything agrees again, and the books are balanced:
`added` registrations were made and `deleted` ones removed without a schedule. -/
structure Settles (s s' : State Tid Sch Fib Cb) (added deleted : ℕ) : Prop where
  registered : Registered s'
  balance : s'.pendingEventCount + s'.scheduled.length + deleted =
    s.pendingEventCount + s.scheduled.length + added
  fault : s'.fault = s.fault

theorem Registered.settles (registered : Registered s) : Settles s s 0 0 :=
  ⟨registered, rfl, rfl⟩

/-- A descriptor below the size of the table has its own context. -/
theorem Registered.lookup_eq (registered : Registered s) :
    s.lookup fd = if fd < s.table.contexts.length then some fd else .none := by
  rw [State.lookup, registered.straight.get_eq]
  by_cases inside : fd < s.table.contexts.length <;> simp [Table.inRange, inside]

/-- Only the context of `fd` and its registration in the kernel have changed, and
they agree. -/
theorem Registered.watched_update (registered : Registered s) {ctx : FdContext Sch Fib Cb} :
    ∀ other, Function.update s.kernel fd (watch fd ctx.events) other =
      watch other (Function.update s.context fd ctx other).events := by
  intro other
  by_cases same : other = fd
  · subst same
    simp
  · simpa [same] using registered.watched other

theorem epollCtl_eq {events : Events} {op : EpollOp} (fits : op = .del ↔ events = .none) :
    s.epollCtl op fd ptr events =
      { s with kernel := Function.update s.kernel fd (watch ptr events) } := by
  cases op <;> simp_all [State.epollCtl, watch]

/-! ### `addEvent` -/

/-- More room in the table changes nothing else. -/
theorem Registered.grow (registered : Registered s) {T : Table} (straight : T.Straight)
    (grows : s.table.contexts.length ≤ T.contexts.length) :
    Registered { s with table := T } := by
  refine ⟨⟨straight, Nat.le_trans registered.large grows, registered.sound,
    fun ptr beyond => registered.beyond ptr (Nat.le_trans grows beyond), ?_,
    registered.carries⟩, registered.watched⟩
  rw [registered.counted]
  refine Finset.sum_subset (Finset.range_mono grows) fun ptr _ outside => ?_
  rw [registered.beyond ptr (Nat.le_of_not_lt fun inside => outside (Finset.mem_range.mpr inside))]
  rfl

/-- `addEvent` finds the context of its descriptor in a table that has not shrunk. -/
theorem Registered.addEvent_table (registered : Registered s) (fd : ℕ) :
    (grownFor s.table fd).Straight ∧ (grownFor s.table fd).get fd = some fd ∧
      s.table.contexts.length ≤ (grownFor s.table fd).contexts.length := by
  have large := registered.large
  by_cases inside : fd < s.table.contexts.length
  · have same : grownFor s.table fd = s.table := by simp [grownFor, Table.inRange, inside]
    rw [same, registered.straight.get_eq, if_pos inside]
    exact ⟨registered.straight, rfl, Nat.le_refl _⟩
  · have grown : grownFor s.table fd = s.table.contextResize (Table.wanted fd) := by
      simp [grownFor, Table.inRange, inside]
    have covers : fd < Table.wanted fd := Table.lt_wanted (by omega)
    have grows : s.table.contexts.length ≤ Table.wanted fd := by omega
    have straight := registered.straight.contextResize grows
    rw [grown, straight.get_eq, Table.length_contextResize, if_pos covers]
    exact ⟨straight, rfl, grows⟩

variable {scheduler : Sch} {fib : Fib} {cb : Option Cb}

/-- Under the mutex of the context, `addEvent` registers the event and nothing
else, unless it is registered already or `epoll_ctl` fails. Its assertion holds;
the one of `getEventContext` fails for `NONE`. -/
theorem Registered.addEventAt (registered : Registered s)
    (inside : fd < s.table.contexts.length) :
    addEventAt s fd fd event scheduler fib cb success = .ok (-1, s) ∨
      (event = .none ∧
        addEventAt s fd fd event scheduler fib cb success = .error .getEventContext) ∨
      ∃ s', addEventAt s fd fd event scheduler fib cb success = .ok (0, s') ∧
        Settles s s' 1 0 := by
  by_cases set : (s.context fd).events.has event = true
  · left
    simp [IOManager.addEventAt, set, pure, Except.pure]
  cases success with
  | false =>
    left
    simp [IOManager.addEventAt, set, pure, Except.pure]
  | true =>
    right
    by_cases proper : event = .none
    · left
      subst proper
      simp [IOManager.addEventAt, FdContext.getEventContext, bind, Except.bind]
    · right
      obtain ⟨slot, found⟩ : ∃ slot, (s.context fd).getEventContext event = .ok slot :=
        FdContext.exists_getEventContext proper
      have unset : (s.context fd).events.has event = false := by simpa using set
      -- The slot of an event that is not registered is empty, so the assertion holds.
      have empty := (registered.sound fd).clear event slot found unset
      subst empty
      let filled : EventContext Sch Fib Cb :=
        if cb.isSome then ⟨some scheduler, .none, cb⟩ else ⟨some scheduler, some fib, .none⟩
      have full : filled.Full := by
        cases cb <;> exact ⟨rfl, rfl⟩
      have sound := (registered.sound fd).fillEvent proper full
      have follows : s.pendingEventCount + 1 + (s.context fd).events.count =
          s.pendingEventCount + ((s.context fd).fillEvent event filled).events.count := by
        rw [FdContext.fillEvent_events, Events.count_union proper unset]
        omega
      refine ⟨{ s with
        kernel := Function.update s.kernel fd
          (watch fd ((s.context fd).fillEvent event filled).events)
        pendingEventCount := s.pendingEventCount + 1
        context := Function.update s.context fd ((s.context fd).fillEvent event filled) }, ?_,
        ⟨(registered.toCounted.setContext inside sound follows).setKernel,
          registered.watched_update⟩, ?_, rfl⟩
      · have stale : { s.context fd with
            events := (s.context fd).events.union event.mask }.getEventContext event =
              .ok .empty := FdContext.getEventContext_mask.trans found
        have fits : (if (s.context fd).events = .none then EpollOp.add else .mod) = .del ↔
            (s.context fd).events.union event.mask = .none := by
          split <;> simp [Events.union_ne_none proper]
        simp [IOManager.addEventAt, unset, epollCtl_eq fits, stale, FdContext.fillEvent,
          State.setContext, filled, EventContext.empty, bind, Except.bind, pure, Except.pure]
      · simp only
        omega

/-- What `addEvent` does to the books. -/
theorem Registered.addEvent (registered : Registered s) (fd : ℕ) (event : Event) (scheduler : Sch)
    (fib : Fib) (cb : Option Cb) (success : Bool) :
    (∃ s', addEvent s fd event scheduler fib cb success = .ok (-1, s') ∧ Settles s s' 0 0) ∨
      (event = .none ∧
        addEvent s fd event scheduler fib cb success = .error .getEventContext) ∨
      ∃ s', addEvent s fd event scheduler fib cb success = .ok (0, s') ∧ Settles s s' 1 0 := by
  obtain ⟨straight, found, grows⟩ := registered.addEvent_table fd
  have grown := registered.grow straight grows
  have inside : fd < (grownFor s.table fd).contexts.length := by
    rw [straight.get_eq] at found
    by_contra beyond
    rw [if_neg beyond] at found
    cases found
  simp only [IOManager.addEvent, found]
  rcases grown.addEventAt inside with same | ⟨absent, fails⟩ | ⟨s', adds, settles⟩
  · exact .inl ⟨_, same, ⟨grown, rfl, rfl⟩⟩
  · exact .inr (.inl ⟨absent, fails⟩)
  · exact .inr (.inr ⟨s', adds, ⟨settles.registered, settles.balance, settles.fault⟩⟩)

/-! ### `delEvent` and `cancelEvent` -/

/-- A context cleared, with the kernel and the counter told. -/
def State.deleted (event : Event) (fd : ℕ) (s : State Tid Sch Fib Cb) : State Tid Sch Fib Cb :=
  { s with
    kernel := Function.update s.kernel fd (watch fd ((s.context fd).clearEvent event).events)
    pendingEventCount := s.pendingEventCount - 1
    context := Function.update s.context fd ((s.context fd).clearEvent event) }

theorem Registered.deleted (registered : Registered s)
    (set : (s.context fd).events.has event = true) : Settles s (s.deleted event fd) 0 1 := by
  have positive := registered.pos set
  have bits := Events.count_diff set
  have sound : ((s.context fd).clearEvent event).Sound := (registered.sound fd).clearEvent
  have follows : s.pendingEventCount - 1 + (s.context fd).events.count =
      s.pendingEventCount + ((s.context fd).clearEvent event).events.count := by
    rw [FdContext.clearEvent_events]
    omega
  refine ⟨⟨(registered.toCounted.setContext (registered.inside set) sound follows).setKernel,
    registered.watched_update⟩, ?_, rfl⟩
  simp only [State.deleted]
  omega

theorem op_fits {events : Events} :
    (if events = .none then EpollOp.del else .mod) = .del ↔ events = .none := by
  split <;> simp_all

theorem Registered.delEvent_eq (registered : Registered s) (fd : ℕ) (event : Event)
    (success : Bool) : IOManager.delEvent s fd event success =
      .ok (if (s.context fd).events.has event = false then (false, s)
        else (true, if success then s.deleted event fd else s)) := by
  unfold IOManager.delEvent
  rw [registered.lookup_eq]
  by_cases inside : fd < s.table.contexts.length
  · rw [if_pos inside]
    by_cases set : (s.context fd).events.has event = true
    · cases success with
      | false => simp [set, pure, Except.pure]
      | true =>
        obtain ⟨slot, found⟩ : ∃ slot, { s.context fd with
            events := (s.context fd).events.diff event.mask }.getEventContext event = .ok slot :=
          FdContext.exists_getEventContext (Events.ne_none_of_has set)
        simp [set, epollCtl_eq op_fits, found, State.deleted, State.decrement, State.setContext,
          FdContext.clearEvent, bind, Except.bind, pure, Except.pure]
    · simp [set, pure, Except.pure]
  · have fresh := registered.beyond fd (Nat.le_of_not_lt inside)
    rw [if_neg inside, fresh]
    simp [FdContext.fresh, pure, Except.pure]

/-- `delEvent` deletes a registered event when `epoll_ctl` succeeds, and does
nothing otherwise. -/
theorem Registered.delEvent (registered : Registered s) (fd : ℕ) (event : Event) (success : Bool) :
    (∃ r, delEvent s fd event success = .ok (r, s)) ∨
      (s.lookup fd = some fd ∧ (s.context fd).events.has event = true ∧
        delEvent s fd event success = .ok (true, s.deleted event fd)) := by
  rw [registered.delEvent_eq]
  by_cases set : (s.context fd).events.has event = true
  · rw [if_neg (by simp [set])]
    cases success with
    | false => exact .inl ⟨true, rfl⟩
    | true => exact .inr ⟨by rw [registered.lookup_eq, if_pos (registered.inside set)], set, rfl⟩
  · exact .inl ⟨false, by rw [if_pos (by simpa using set)]⟩

/-- The kernel after a dispatch that triggers these events. -/
def State.swept (mask : Events) (ptr : ℕ) (s : State Tid Sch Fib Cb) : State Tid Sch Fib Cb :=
  { s.sweep mask ptr with
    kernel := Function.update s.kernel ptr (watch ptr ((s.context ptr).clearAll mask).events) }

/-- Triggering events of one context and telling the kernel. -/
theorem Registered.sweep (registered : Registered s) {mask : Events}
    (subset : mask.Subset (s.context ptr).events) : Settles s (s.swept mask ptr) 0 0 := by
  obtain ⟨fallen, scheduled⟩ := registered.sweep_counts subset
  unfold State.swept
  refine ⟨⟨(registered.toCounted.sweep subset).setKernel, ?_⟩, ?_, ?_⟩
  · rw [State.sweep_eq]
    exact registered.watched_update
  · simp only
    omega
  · rw [State.sweep_eq]
    rfl

theorem Events.mask_subset {m : Events} (set : m.has event = true) : event.mask.Subset m := by
  intro other mem
  have same : other = event := by
    cases event <;> cases other <;> first | rfl | cases mem
  rwa [same]

theorem State.sweep_mask (proper : event ≠ .none) :
    s.sweep event.mask ptr = s.triggered event ptr := by
  cases event
  · exact absurd rfl proper
  all_goals rfl

theorem Registered.cancelEvent_eq (registered : Registered s) (fd : ℕ) (event : Event)
    (success : Bool) : IOManager.cancelEvent s fd event success =
      .ok (if (s.context fd).events.has event = false then (false, s)
        else (true, if success then s.swept event.mask fd else s)) := by
  unfold IOManager.cancelEvent
  rw [registered.lookup_eq]
  by_cases inside : fd < s.table.contexts.length
  · rw [if_pos inside]
    by_cases set : (s.context fd).events.has event = true
    · cases success with
      | false => simp [set, pure, Except.pure]
      | true =>
        obtain ⟨_, _, triggers, continuation, -⟩ := (registered.sound fd).triggerEvent Tid set
        rw [State.swept, State.sweep_mask (Events.ne_none_of_has set), FdContext.clearAll_events]
        simp [set, epollCtl_eq op_fits, State.decrement, State.triggerEvent, triggers,
          State.triggered, State.setContext, continuation, bind, Except.bind, pure, Except.pure]
    · simp [set, pure, Except.pure]
  · have fresh := registered.beyond fd (Nat.le_of_not_lt inside)
    rw [if_neg inside, fresh]
    simp [FdContext.fresh, pure, Except.pure]

/-- `cancelEvent` triggers a registered event when `epoll_ctl` succeeds, and does
nothing otherwise. -/
theorem Registered.cancelEvent (registered : Registered s) (fd : ℕ) (event : Event)
    (success : Bool) :
    ∃ r s', cancelEvent s fd event success = .ok (r, s') ∧ Settles s s' 0 0 := by
  rw [registered.cancelEvent_eq]
  by_cases set : (s.context fd).events.has event = true
  · rw [if_neg (by simp [set])]
    cases success with
    | false => exact ⟨true, s, rfl, registered.settles⟩
    | true => exact ⟨true, _, rfl, registered.sweep (Events.mask_subset set)⟩
  · exact ⟨false, s, by rw [if_pos (by simpa using set)], registered.settles⟩

/-! ### `cancelAll` and `dispatch` -/

theorem Events.count_pos {m : Events} (proper : m ≠ .none) : 0 < m.count := by
  obtain ⟨r, w⟩ := m
  cases r <;> cases w <;> first | exact absurd rfl proper | decide

theorem Events.diff_self {m : Events} : m.diff m = .none := by
  obtain ⟨r, w⟩ := m
  cases r <;> cases w <;> rfl

theorem Registered.cancelAll_eq (registered : Registered s) (fd : ℕ) (success : Bool) :
    IOManager.cancelAll s fd success =
      .ok (if (s.context fd).events = .none then (false, s)
        else (true, if success then s.swept (s.context fd).events fd else s)) := by
  unfold IOManager.cancelAll
  rw [registered.lookup_eq]
  by_cases inside : fd < s.table.contexts.length
  · rw [if_pos inside]
    by_cases none : (s.context fd).events = .none
    · simp [none, pure, Except.pure]
    · cases success with
      | false => simp [none, pure, Except.pure]
      | true =>
        have subset : (s.context fd).events.Subset (s.context fd).events := fun _ set => set
        obtain ⟨between, first, same, second⟩ :=
          triggerIf_sweep (s := s.epollCtl .del fd fd .none) (registered.sound fd) subset
        have told : s.epollCtl .del fd fd .none =
            { s with kernel := Function.update s.kernel fd (watch fd .none) } :=
          epollCtl_eq (by simp)
        have swept : (s.epollCtl .del fd fd .none).sweep (s.context fd).events fd =
            s.swept (s.context fd).events fd := by
          rw [told, State.swept, State.sweep_eq, State.sweep_eq, FdContext.clearAll_events,
            Events.diff_self]
          rfl
        have cleared : ((s.swept (s.context fd).events fd).context fd).events = .none := by
          rw [← swept, State.sweep_eq]
          simp [State.setContext, FdContext.clearAll_events, Events.diff_self]
        rw [swept] at second
        rw [State.epollCtl_context, Events.has_write] at same
        simp [none, Events.has_read, Events.has_write, first, same, second, cleared, bind,
          Except.bind, pure, Except.pure]
  · have fresh := registered.beyond fd (Nat.le_of_not_lt inside)
    rw [if_neg inside, fresh]
    simp [FdContext.fresh, pure, Except.pure]

/-- `cancelAll` triggers what is registered when `epoll_ctl` succeeds; its
assertion holds. -/
theorem Registered.cancelAll (registered : Registered s) (fd : ℕ) (success : Bool) :
    ∃ r s', cancelAll s fd success = .ok (r, s') ∧ Settles s s' 0 0 := by
  rw [registered.cancelAll_eq]
  by_cases none : (s.context fd).events = .none
  · exact ⟨false, s, by rw [if_pos none], registered.settles⟩
  · rw [if_neg none]
    cases success with
    | false => exact ⟨true, s, rfl, registered.settles⟩
    | true => exact ⟨true, _, rfl, registered.sweep fun _ set => set⟩

theorem triggerIf_error (unset : (s.context ptr).events.has event = false) :
    triggerIf s true event ptr = .error .triggerEvent := by
  simp [triggerIf, State.triggerEvent, FdContext.triggerEvent_error unset, bind, Except.bind]

namespace Events

variable {m n : Events}

theorem diff_inter : m.diff (m.inter n) = m.diff n := by
  obtain ⟨r, w⟩ := m
  obtain ⟨r', w'⟩ := n
  cases r <;> cases w <;> cases r' <;> cases w' <;> rfl

theorem inter_subset : (m.inter n).Subset m := by
  intro event set
  obtain ⟨r, w⟩ := m
  obtain ⟨r', w'⟩ := n
  cases event <;> cases r <;> cases w <;> first | rfl | cases r' <;> cases w' <;> cases set

theorem inter_eq_iff : m.inter n = n ↔ n.Subset m := by
  refine ⟨fun same => same ▸ inter_subset, fun subset => ?_⟩
  obtain ⟨read, write⟩ := subset_iff.mp subset
  obtain ⟨r, w⟩ := m
  obtain ⟨r', w'⟩ := n
  simp_all [inter]

/-- A mask that is not part of another has a bit the other has not. -/
theorem exists_of_inter_ne (differs : m.inter n ≠ n) :
    n.has .read = true ∧ m.has .read = false ∨
      (n.has .read = true → m.has .read = true) ∧ n.has .write = true ∧ m.has .write = false := by
  obtain ⟨r, w⟩ := m
  obtain ⟨r', w'⟩ := n
  revert differs
  cases r <;> cases w <;> cases r' <;> cases w' <;> decide

end Events

/-- Triggering a mask that is not registered as a whole fails. -/
theorem triggerIf_fault (sound : (s.context ptr).Sound) {mask : Events}
    (stale : (s.context ptr).events.inter mask ≠ mask) :
    (triggerIf s (mask.has .read) .read ptr >>= fun s => triggerIf s (mask.has .write) .write ptr) =
      .error .triggerEvent := by
  rcases Events.exists_of_inter_ne stale with ⟨reported, unset⟩ | ⟨registered, reported, unset⟩
  · rw [reported, triggerIf_error unset]
    rfl
  · rw [triggerIf_eq sound registered, reported]
    by_cases first : mask.has .read = true
    · simp only [first, if_true]
      exact triggerIf_error (has_write_triggered.trans unset)
    · simp only [first]
      exact triggerIf_error unset

/-- The events that are reported for a context and registered there. -/
def FdContext.triggering (ready : Ready) (ctx : FdContext Sch Fib Cb) : Events :=
  ctx.events.inter (ready.realEvents ctx.events)

/-- Where a reported event is registered, the descriptor of the context is its
name. -/
theorem Counted.fd_eq (counted : Counted s) (registered : (s.context ptr).events ≠ .none) :
    s.table.constructed.getD ptr 0 = ptr := by
  have inside : ptr < s.table.contexts.length := by
    by_contra beyond
    rw [counted.beyond ptr (Nat.le_of_not_lt beyond)] at registered
    exact registered rfl
  rw [counted.straight.2]
  simp [inside]

section Dispatch

variable {ready : Ready}

/-- An entry none of whose events is registered is passed over, and so is one for
which `epoll_ctl` fails. -/
theorem dispatch_skip
    (skips : (s.context ptr).triggering ready = .none ∨ success = false) :
    dispatch s ptr ready success = .ok s := by
  rcases skips with none | fails
  · have none : (s.context ptr).events.inter (ready.realEvents (s.context ptr).events) = .none :=
      none
    simp [dispatch, none, pure, Except.pure]
  · simp [dispatch, fails, pure, Except.pure]

/-- An entry all of whose events are registered triggers them. -/
theorem Counted.dispatch_sweep (counted : Counted s)
    (meets : (s.context ptr).triggering ready ≠ .none)
    (all : (s.context ptr).triggering ready = ready.realEvents (s.context ptr).events) :
    dispatch s ptr ready true = .ok (s.swept ((s.context ptr).triggering ready) ptr) := by
  have registered : (s.context ptr).events ≠ .none := by
    intro none
    exact meets (by simp [FdContext.triggering, none, Events.inter, Events.none])
  have told : ∀ fd, s.epollCtl (if (s.context ptr).events.diff (ready.realEvents
      (s.context ptr).events) = .none then .del else .mod) fd ptr ((s.context ptr).events.diff
        (ready.realEvents (s.context ptr).events)) = _ := fun fd => epollCtl_eq op_fits
  have subset : ((s.context ptr).triggering ready).Subset (s.context ptr).events :=
    Events.inter_subset
  have left : ((s.context ptr).clearAll ((s.context ptr).triggering ready)).events =
      (s.context ptr).events.diff (ready.realEvents (s.context ptr).events) := by
    rw [FdContext.clearAll_events, FdContext.triggering, Events.diff_inter]
  obtain ⟨between, first, -, second⟩ :=
    triggerIf_sweep (s := { s with kernel := Function.update s.kernel ptr (watch ptr
      ((s.context ptr).events.diff (ready.realEvents (s.context ptr).events))) })
      (counted.sound ptr) subset
  have none : ¬ (s.context ptr).events.inter (ready.realEvents (s.context ptr).events) = .none :=
    meets
  rw [all] at first second
  have kernel : s.swept ((s.context ptr).triggering ready) ptr =
      State.sweep ((s.context ptr).triggering ready) ptr
        { s with kernel := Function.update s.kernel ptr (watch ptr
          ((s.context ptr).events.diff (ready.realEvents (s.context ptr).events))) } := by
    rw [State.swept, left, State.sweep_eq, State.sweep_eq]
    rfl
  rw [kernel, all]
  simp only [dispatch, none, if_false, counted.fd_eq registered, told, Events.has_read,
    Events.has_write, pure, Except.pure, bind, Except.bind]
  simp [first, second]

/-- An entry with registered events and others fails the assertion of
`triggerEvent`. -/
theorem Counted.dispatch_fault (counted : Counted s)
    (meets : (s.context ptr).triggering ready ≠ .none)
    (stale : (s.context ptr).triggering ready ≠ ready.realEvents (s.context ptr).events) :
    dispatch s ptr ready true = .error .triggerEvent := by
  have none : ¬ (s.context ptr).events.inter (ready.realEvents (s.context ptr).events) = .none :=
    meets
  simp only [dispatch, none, if_false, reduceCtorEq]
  apply triggerIf_fault
  · exact counted.sound ptr
  · exact stale

/-- A dispatch settles unless it reports an event that is not registered. -/
theorem Registered.dispatch (registered : Registered s) (ptr : ℕ) (ready : Ready)
    (success : Bool) :
    (∃ s', dispatch s ptr ready success = .ok s' ∧ Settles s s' 0 0) ∨
      dispatch s ptr ready success = .error .triggerEvent ∧
        ¬ (ready.realEvents (s.context ptr).events).Subset (s.context ptr).events := by
  by_cases skips : (s.context ptr).triggering ready = .none ∨ success = false
  · exact .inl ⟨s, dispatch_skip skips, registered.settles⟩
  · obtain ⟨meets, succeeds⟩ := not_or.mp skips
    obtain rfl : success = true := by simpa using succeeds
    by_cases all : (s.context ptr).triggering ready = ready.realEvents (s.context ptr).events
    · exact .inl ⟨_, registered.dispatch_sweep meets all, registered.sweep Events.inter_subset⟩
    · exact .inr ⟨registered.dispatch_fault meets all, mt Events.inter_eq_iff.mpr all⟩

end Dispatch

/-! ### What stays scheduled -/

section Extends

variable {s' : State Tid Sch Fib Cb}
variable {ρ ρ' : Type} {state : ρ → State Tid Sch Fib Cb} {state' : ρ' → State Tid Sch Fib Cb}

/-- If the operation succeeds, nothing is dropped that was scheduled. -/
def Extends (s : State Tid Sch Fib Cb) (state : ρ → State Tid Sch Fib Cb)
    (result : Except Fault ρ) : Prop := ∀ r, result = .ok r → s.scheduled <+: (state r).scheduled

theorem extends_ok {r : ρ} (grows : s.scheduled <+: (state r).scheduled) :
    Extends s state (.ok r) := by
  intro r' same
  cases same
  exact grows

theorem extends_error {fault : Fault} : Extends s state (.error fault) := nofun

theorem Extends.bind {result : Except Fault ρ} {onward : ρ → Except Fault ρ'}
    (first : Extends s state result) (rest : ∀ r, Extends (state r) state' (onward r)) :
    Extends s state' (result >>= onward) := by
  cases result with
  | error fault => exact extends_error
  | ok between =>
    intro r ends
    exact (first between rfl).trans (rest between r ends)

/-- A step that only looks something up. -/
theorem Extends.read {result : Except Fault ρ} {onward : ρ → Except Fault ρ'}
    (rest : ∀ r, Extends s state' (onward r)) : Extends s state' (result >>= onward) := by
  cases result with
  | error fault => exact extends_error
  | ok between => exact rest between

theorem extends_triggerEvent : Extends s id (s.triggerEvent event ptr) := by
  unfold State.triggerEvent
  cases ((s.context ptr).triggerEvent event : Except Fault (_ × Sch × ScheduleTask Tid Fib Cb)) with
  | error fault => exact extends_error
  | ok left => exact extends_ok (List.prefix_append _ _)

theorem extends_triggerIf {triggers : Bool} : Extends s id (triggerIf s triggers event ptr) := by
  unfold triggerIf
  cases triggers
  · exact extends_ok List.prefix_rfl
  · exact extends_triggerEvent.bind fun s' => extends_ok List.prefix_rfl

theorem extends_addEvent {scheduler : Sch} {fib : Fib} {cb : Option Cb} :
    Extends s Prod.snd (addEvent s fd event scheduler fib cb success) := by
  unfold addEvent
  dsimp only
  split
  · exact extends_error
  · unfold addEventAt
    dsimp only
    split
    · exact extends_ok List.prefix_rfl
    split
    · exact extends_ok List.prefix_rfl
    refine Extends.read fun slot => ?_
    split
    · exact extends_error
    · exact extends_ok List.prefix_rfl

theorem extends_delEvent : Extends s Prod.snd (delEvent s fd event success) := by
  unfold delEvent
  split
  · exact extends_ok List.prefix_rfl
  · dsimp only
    split
    · exact extends_ok List.prefix_rfl
    split
    · exact extends_ok List.prefix_rfl
    exact Extends.read fun _ => extends_ok List.prefix_rfl

theorem extends_cancelEvent : Extends s Prod.snd (cancelEvent s fd event success) := by
  unfold cancelEvent
  split
  · exact extends_ok List.prefix_rfl
  · dsimp only
    split
    · exact extends_ok List.prefix_rfl
    split
    · exact extends_ok List.prefix_rfl
    exact extends_triggerEvent.bind fun s' => extends_ok List.prefix_rfl

theorem extends_cancelAll : Extends s Prod.snd (cancelAll s fd success) := by
  unfold cancelAll
  split
  · exact extends_ok List.prefix_rfl
  · dsimp only
    split
    · exact extends_ok List.prefix_rfl
    split
    · exact extends_ok List.prefix_rfl
    refine extends_triggerIf.bind fun s₁ => extends_triggerIf.bind fun s₂ => ?_
    split
    · exact extends_error
    · exact extends_ok List.prefix_rfl

theorem extends_dispatch {ready : Ready} : Extends s id (dispatch s ptr ready success) := by
  unfold dispatch
  dsimp only
  split
  · exact extends_ok List.prefix_rfl
  split
  · exact extends_ok List.prefix_rfl
  exact extends_triggerIf.bind fun s₁ => extends_triggerIf

theorem Extends.map {result : Except Fault (ρ × State Tid Sch Fib Cb)}
    (extends' : Extends s Prod.snd result) : Extends s id (result.map Prod.snd) := by
  cases result with
  | error fault => exact extends_error
  | ok r => exact extends_ok (extends' r rfl)

end Extends

end CoroutineService.IOManager
