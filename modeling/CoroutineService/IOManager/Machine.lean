import CoroutineService.IOManager.Operations

/-!
# The operations of all threads

Any number of threads call `addEvent`, `delEvent`, `cancelEvent` and `cancelAll`,
and idle workers handle the batches `epoll_wait` gave them. A batch is taken from
the kernel's registrations at one time and handled entry by entry later on.

## Main definitions

* `ioMachine`: the operations as a machine
* `Tally`: what is counted along a run
* `Accounted`: mask, event contexts, kernel, counter and tally agree

## Main results

* `scheduled_prefix_next`: no operation drops what is scheduled
* `registered_of_reachable`: the invariant holds along every run
* `accounted_of_reaches`: every registration is scheduled, deleted or pending
-/

set_option autoImplicit false

namespace CoroutineService.IOManager

open CoroutineService.Transition CoroutineService.Scheduler

variable {Tid Sch Fib Cb : Type}

/-- The operations; `success` is the outcome of their `epoll_ctl`. `epollWait`
gives the idle worker `w` a batch, and `dispatch` handles its next entry. -/
inductive Move (Tid Sch Fib Cb : Type)
  | addEvent (fd : ℕ) (event : Event) (scheduler : Sch) (fib : Fib) (cb : Option Cb)
    (success : Bool)
  | delEvent (fd : ℕ) (event : Event) (success : Bool)
  | cancelEvent (fd : ℕ) (event : Event) (success : Bool)
  | cancelAll (fd : ℕ) (success : Bool)
  | epollWait (w : Tid) (ready : List (ℕ × Ready))
  | dispatch (w : Tid) (success : Bool)

namespace State

/-- The state after an operation; a failed assertion ends the process. -/
def close (s : State Tid Sch Fib Cb) : Except Fault (State Tid Sch Fib Cb) → State Tid Sch Fib Cb
  | .ok s' => s'
  | .error fault => { s with fault := some fault }

/-- `epoll_wait` may report these descriptors: they are registered, and reads and
writes are reported only to those interested. -/
def mayReport (s : State Tid Sch Fib Cb) (ready : List (ℕ × Ready)) : Prop :=
  ∀ entry ∈ ready, ∃ registration ∈ s.kernel entry.1,
    (entry.2.epollin = true → registration.events.read = true) ∧
      (entry.2.epollout = true → registration.events.write = true)

/-- The batch as the worker sees it, with the contexts in `data.ptr`. -/
def report (s : State Tid Sch Fib Cb) (ready : List (ℕ × Ready)) : List (ℕ × Ready) :=
  ready.filterMap fun entry => (s.kernel entry.1).map fun registration =>
    (registration.ptr, entry.2)

end State

variable [DecidableEq Tid]

/-- The effect of an operation. -/
def next (s : State Tid Sch Fib Cb) : Move Tid Sch Fib Cb → State Tid Sch Fib Cb
  | .addEvent fd event scheduler fib cb success =>
    s.close ((addEvent s fd event scheduler fib cb success).map Prod.snd)
  | .delEvent fd event success => s.close ((delEvent s fd event success).map Prod.snd)
  | .cancelEvent fd event success => s.close ((cancelEvent s fd event success).map Prod.snd)
  | .cancelAll fd success => s.close ((cancelAll s fd success).map Prod.snd)
  | .epollWait w ready => { s with batch := Function.update s.batch w (s.report ready) }
  | .dispatch w success =>
    match s.batch w with
    | [] => s
    | (ptr, ready) :: rest =>
      let popped := { s with batch := Function.update s.batch w rest }
      popped.close (dispatch popped ptr ready success)

/-- The operations of all threads. A worker takes a batch when it has handled the
last one. -/
def ioMachine : Machine (State Tid Sch Fib Cb) (Move Tid Sch Fib Cb) where
  init s := s = State.initial
  enabled s a := s.fault = none ∧
    match a with
    | .epollWait w ready => s.batch w = [] ∧ s.mayReport ready
    | .dispatch w _ => s.batch w ≠ []
    | _ => True
  next := next

instance (s : State Tid Sch Fib Cb) (ready : List (ℕ × Ready)) : Decidable (s.mayReport ready) :=
  inferInstanceAs (Decidable (∀ entry ∈ ready, ∃ registration ∈ s.kernel entry.1, _))

instance (s : State Tid Sch Fib Cb) (a : Move Tid Sch Fib Cb) :
    Decidable (ioMachine.enabled s a) := by
  cases a <;> (dsimp only [ioMachine]; infer_instance)

omit [DecidableEq Tid] in
theorem Extends.close {s : State Tid Sch Fib Cb}
    {result : Except Fault (State Tid Sch Fib Cb)}
    (extends' : Extends s id result) : s.scheduled <+: (s.close result).scheduled := by
  cases result with
  | error fault => exact List.prefix_rfl
  | ok s' => exact extends' s' rfl

/-- No operation drops what is scheduled. -/
theorem scheduled_prefix_next (s : State Tid Sch Fib Cb)
    (a : Move Tid Sch Fib Cb) : s.scheduled <+: (next s a).scheduled := by
  cases a with
  | addEvent fd event scheduler fib cb success => exact extends_addEvent.map.close
  | delEvent fd event success => exact extends_delEvent.map.close
  | cancelEvent fd event success => exact extends_cancelEvent.map.close
  | cancelAll fd success => exact extends_cancelAll.map.close
  | epollWait w ready => exact List.prefix_rfl
  | dispatch w success =>
    cases batch : s.batch w with
    | nil => simp only [next, batch, List.prefix_rfl]
    | cons entry rest =>
      let popped := { s with batch := Function.update s.batch w rest }
      have grows : popped.scheduled <+:
          (popped.close (dispatch popped entry.1 entry.2 success)).scheduled :=
        extends_dispatch.close
      simpa only [next, batch] using grows

/-! ### Books of a run -/

/-- How many calls of `addEvent` succeeded, and how many events `delEvent`
removed. -/
structure Tally where
  added : ℕ
  deleted : ℕ

/-- The call of `delEvent` has cleared a bit that was set. -/
def State.deletes (s s' : State Tid Sch Fib Cb) (fd : ℕ) (event : Event) : Bool :=
  match s.lookup fd with
  | none => false
  | some ptr => (s.context ptr).events.has event && !(s'.context ptr).events.has event

/-- What an operation adds to the tally. -/
def record (s : State Tid Sch Fib Cb) (a : Move Tid Sch Fib Cb) (T : Tally) : Tally :=
  match a with
  | .addEvent fd event scheduler fib cb success =>
    match addEvent s fd event scheduler fib cb success with
    | .ok (result, _) => if result = 0 then { T with added := T.added + 1 } else T
    | .error _ => T
  | .delEvent fd event _ =>
    if s.deletes (next s a) fd event then { T with deleted := T.deleted + 1 } else T
  | _ => T

variable {s : State Tid Sch Fib Cb} {a : Move Tid Sch Fib Cb} {T : Tally}

/-- The dispatched entry reports no event but registered ones. -/
def Timely (s : State Tid Sch Fib Cb) : Move Tid Sch Fib Cb → Prop
  | .dispatch w _ => ∀ entry ∈ (s.batch w).head?,
    (entry.2.realEvents (s.context entry.1).events).Subset (s.context entry.1).events
  | _ => True

instance (s : State Tid Sch Fib Cb) (a : Move Tid Sch Fib Cb) : Decidable (Timely s a) := by
  cases a <;> (dsimp only [Timely]; infer_instance)

/-- An assertion of `getEventContext` or `triggerEvent` is all that may fail, the
latter only in a dispatch that is not timely. -/
inductive MayFail (s : State Tid Sch Fib Cb) (a : Move Tid Sch Fib Cb) : Fault → Prop
  | getEventContext : MayFail s a .getEventContext
  | triggerEvent (stale : ¬ Timely s a) : MayFail s a .triggerEvent

omit [DecidableEq Tid] in
theorem Registered.setBatch (registered : Registered s) {batch : Tid → List (ℕ × Ready)} :
    Registered { s with batch := batch } :=
  ⟨⟨registered.straight, registered.large, registered.sound, registered.beyond,
    registered.counted, registered.carries⟩, registered.watched⟩

omit [DecidableEq Tid] in
theorem Registered.setFault (registered : Registered s) {fault : Option Fault} :
    Registered { s with fault := fault } :=
  ⟨⟨registered.straight, registered.large, registered.sound, registered.beyond,
    registered.counted, registered.carries⟩, registered.watched⟩

/-- What one operation does: it settles, and the tally follows, or an assertion
fails and nothing changes. -/
theorem Registered.step (registered : Registered s) :
    (∃ added deleted, Settles s (next s a) added deleted ∧
      record s a T = ⟨T.added + added, T.deleted + deleted⟩) ∨
    ∃ s' fault, next s a = { s' with fault := some fault } ∧ Settles s s' 0 0 ∧
      record s a T = T ∧ MayFail s a fault := by
  cases a with
  | addEvent fd event scheduler fib cb success =>
    rcases registered.addEvent fd event scheduler fib cb success with
      ⟨s', same, settles⟩ | ⟨rfl, fails⟩ | ⟨s', adds, settles⟩
    · left
      exact ⟨0, 0, by simpa [next, same, State.close, Except.map] using settles,
        by simp [record, same]⟩
    · right
      exact ⟨s, _, by simp [next, fails, State.close, Except.map], registered.settles,
        by simp [record, fails], .getEventContext⟩
    · left
      exact ⟨1, 0, by simpa [next, adds, State.close, Except.map] using settles,
        by simp [record, adds]⟩
  | delEvent fd event success =>
    left
    rcases registered.delEvent fd event success with ⟨r, same⟩ | ⟨found, set, deletes⟩
    · have stays : next s (.delEvent fd event success) = s := by
        simp [next, same, State.close, Except.map]
      refine ⟨0, 0, by rw [stays]; exact registered.settles, ?_⟩
      rw [record, stays, if_neg]
      · simp
      · cases found : s.lookup fd <;> simp [State.deletes, found]
    · have goes : next s (.delEvent fd event success) = s.deleted event fd := by
        simp [next, deletes, State.close, Except.map]
      refine ⟨0, 1, by rw [goes]; exact registered.deleted set, ?_⟩
      rw [record, goes, if_pos]
      · simp
      · simp [State.deletes, found, set, State.deleted, Events.has_diff]
  | cancelEvent fd event success =>
    left
    obtain ⟨r, s', cancels, settles⟩ := registered.cancelEvent fd event success
    exact ⟨0, 0, by simpa [next, cancels, State.close, Except.map] using settles, rfl⟩
  | cancelAll fd success =>
    left
    obtain ⟨r, s', cancels, settles⟩ := registered.cancelAll fd success
    exact ⟨0, 0, by simpa [next, cancels, State.close, Except.map] using settles, rfl⟩
  | epollWait w ready =>
    exact .inl ⟨0, 0, ⟨registered.setBatch, rfl, rfl⟩, rfl⟩
  | dispatch w success =>
    cases batch : s.batch w with
    | nil => exact .inl ⟨0, 0, by simpa [next, batch] using registered.settles, rfl⟩
    | cons entry rest =>
      obtain ⟨ptr, ready⟩ := entry
      -- An entry leaves the batch, and what it reports is triggered or asserted against.
      have popped : Registered { s with batch := Function.update s.batch w rest } :=
        registered.setBatch
      rcases popped.dispatch ptr ready success with ⟨s', handles, settles⟩ | ⟨fails, stale⟩
      · left
        exact ⟨0, 0, ⟨by simpa [next, batch, handles, State.close] using settles.registered,
          by simpa [next, batch, handles, State.close] using settles.balance,
          by simpa [next, batch, handles, State.close] using settles.fault⟩, rfl⟩
      · right
        refine ⟨_, .triggerEvent, by simp only [next, batch, fails, State.close],
          ⟨popped, rfl, rfl⟩, rfl, .triggerEvent fun timely => stale ?_⟩
        exact timely (ptr, ready) (by simp [batch])

omit [DecidableEq Tid] in
theorem registered_initial : Registered (State.initial : State Tid Sch Fib Cb) where
  straight := Table.straight_initial
  large := by simp [State.initial, Table.initial]
  sound _ := FdContext.sound_fresh
  beyond _ _ := rfl
  counted := (Finset.sum_eq_zero fun _ _ => rfl).symm
  carries _ mem := absurd mem List.not_mem_nil
  watched _ := rfl

/-- Contexts, kernel and counter agree in every state of every run. -/
theorem registered_of_reachable (reached : ioMachine.Reachable s) : Registered s := by
  refine reached.invariant (fun s starts => ?_) fun s a registered _ _ => ?_
  · obtain rfl : s = State.initial := starts
    exact registered_initial
  · rcases registered.step (a := a) (T := ⟨0, 0⟩) with
      ⟨_, _, settles, -⟩ | ⟨s', fault, fails, settles, -, -⟩
    · exact settles.registered
    · have failed : ioMachine.next s a = { s' with fault := some fault } := fails
      rw [failed]
      exact settles.registered.setFault

/-! ### The account of a run -/

/-- The events the kernel watches a descriptor for. -/
def State.interest (s : State Tid Sch Fib Cb) (fd : ℕ) : Events :=
  match s.kernel fd with
  | none => .none
  | some registration => registration.events

/-- What holds between the contexts, the kernel, the counter and the tally. -/
structure Accounted (s : State Tid Sch Fib Cb) (T : Tally) : Prop where
  /-- `m_pendingEventCount` is the number of bits set in all contexts. -/
  pending : s.pendingEventCount =
    ∑ ptr ∈ Finset.range s.table.contexts.length, (s.context ptr).events.count
  /-- A bit is clear exactly when its event context is empty. -/
  empty : ∀ ptr event slot, (s.context ptr).getEventContext event = .ok slot →
    ((s.context ptr).events.has event = false ↔ slot = .empty)
  /-- The kernel watches each descriptor for the events of its context. -/
  interest : ∀ fd, s.interest fd =
    match s.lookup fd with
    | none => .none
    | some ptr => (s.context ptr).events
  /-- A registration is scheduled once, deleted, or pending. -/
  conserved : T.added = s.scheduled.length + T.deleted + s.pendingEventCount
  /-- What is scheduled is not dropped by `scheduleLock`. -/
  carries : ∀ entry ∈ s.scheduled, entry.2.nonempty = true
  /-- No assertion fails, except that of `getEventContext` when `NONE` is added. -/
  asserted : s.fault = none ∨ s.fault = some .getEventContext

omit [DecidableEq Tid] in
theorem EventContext.Full.ne_empty {slot : EventContext Sch Fib Cb} (full : slot.Full) :
    slot ≠ .empty := by
  rintro rfl
  cases full.1

omit [DecidableEq Tid] in
theorem Registered.interest_eq (registered : Registered s) (fd : ℕ) :
    s.interest fd =
      match s.lookup fd with
      | none => .none
      | some ptr => (s.context ptr).events := by
  have same : s.interest fd = (s.context fd).events := by
    rw [State.interest, registered.watched fd, watch]
    by_cases none : (s.context fd).events = .none <;> simp [none]
  rw [same, registered.lookup_eq]
  by_cases inside : fd < s.table.contexts.length
  · rw [if_pos inside]
  · rw [if_neg inside, registered.beyond fd (Nat.le_of_not_lt inside)]
    rfl

/-- Registrations are accounted for after every operation, whatever `epoll_ctl`
answers, as long as dispatches report registered events. -/
theorem accounted_of_reaches
    (reached : (ioMachine.observe ⟨0, 0⟩ record).Reaches (fun p a => Timely p.1 a) (s, T)) :
    Accounted s T := by
  have books : Registered s ∧ T.added = s.scheduled.length + T.deleted + s.pendingEventCount ∧
      (s.fault = none ∨ s.fault = some .getEventContext) := by
    refine reached.invariant (I := fun p => Registered p.1 ∧
      p.2.added = p.1.scheduled.length + p.2.deleted + p.1.pendingEventCount ∧
      (p.1.fault = none ∨ p.1.fault = some .getEventContext)) (fun p starts => ?_)
      fun p a holds available timely => ?_
    · obtain ⟨s, T⟩ := p
      obtain ⟨rfl, rfl⟩ : s = State.initial ∧ T = ⟨0, 0⟩ := starts
      exact ⟨registered_initial, rfl, .inl rfl⟩
    · obtain ⟨s, T⟩ := p
      obtain ⟨registered, balance, -⟩ : Registered s ∧
        T.added = s.scheduled.length + T.deleted + s.pendingEventCount ∧ _ := holds
      obtain ⟨running, -⟩ : s.fault = none ∧ _ := available
      have onward : (ioMachine.observe ⟨0, 0⟩ record).next (s, T) a = (next s a, record s a T) :=
        rfl
      rw [onward]
      -- Each step settles its account, and none that is timely fails an assertion.
      rcases registered.step (a := a) (T := T) with
        ⟨added, deleted, settles, recorded⟩ | ⟨s', fault, fails, settles, recorded, may⟩
      · have moved := settles.balance
        refine ⟨settles.registered, ?_, .inl (settles.fault.trans running)⟩
        rw [recorded]
        simp only
        omega
      · have moved := settles.balance
        rw [fails, recorded]
        refine ⟨settles.registered.setFault, by simp only; omega, .inr ?_⟩
        cases may with
        | getEventContext => rfl
        | triggerEvent stale => exact absurd timely stale
  obtain ⟨registered, conserved, asserted⟩ := books
  refine ⟨registered.counted, fun ptr event slot found => ?_, registered.interest_eq, conserved,
    registered.carries, asserted⟩
  refine ⟨(registered.sound ptr).clear event slot found, fun empty => ?_⟩
  by_contra set
  exact ((registered.sound ptr).full event slot found (by simpa using set)).ne_empty empty

/-- Two events are registered on a descriptor, one is reported and dispatched, the
other one deleted after a failed attempt. -/
def registerAndDispatch : List (Move ℕ ℕ ℕ ℕ) :=
  [.addEvent 5 .read 0 1 none true, .addEvent 5 .write 0 2 none true,
    .epollWait 0 [(5, ⟨true, false, false⟩)], .delEvent 5 .write false, .dispatch 0 true,
    .delEvent 5 .write true]

theorem accounted_registerAndDispatch :
    let p := (ioMachine.observe ⟨0, 0⟩ record).after (State.initial, ⟨0, 0⟩) registerAndDispatch
    p.1.scheduled = [(0, ⟨some 1, none, none⟩)] ∧ p.2.added = 2 ∧ p.2.deleted = 1 ∧
      Accounted p.1 p.2 := by
  have starts : (ioMachine.observe ⟨0, 0⟩ record).init
      ((State.initial, ⟨0, 0⟩) : State ℕ ℕ ℕ ℕ × Tally) := ⟨rfl, rfl⟩
  have follows : (ioMachine.observe ⟨0, 0⟩ record).Follows (fun p a => Timely p.1 a)
      (State.initial, ⟨0, 0⟩) registerAndDispatch := by decide
  exact ⟨by decide, by decide, by decide,
    accounted_of_reaches ((Machine.Reaches.start starts).follow follows)⟩

end CoroutineService.IOManager
