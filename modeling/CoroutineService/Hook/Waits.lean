import CoroutineService.Hook.Isolation

/-!
# Where fibers wait

A fiber that yields in `do_io` relies on others to be woken: its event context keeps it until an
event, a timer or `close` triggers it, and then the scheduler does until a worker takes it. It is
kept in one place at a time, and nothing is kept of a fiber that has not yielded.

The queue here is that of the tasks that resume a fiber: the callbacks of expired timers, which
`idle` schedules as well, are counted in `Op.extracted` until they run. `addEvent` is one step, so
no growth of the descriptor table overtakes another and makes the table smaller again.

## Main definitions

* `names`, `queued`: the event contexts and the tasks that keep a fiber
* `Placed`: a fiber is kept where it waits
* `Hands`: an operation hands fibers from event contexts to the scheduler
* `KeptOnce`: every fiber is kept once or not at all

## Main results

* `hands_cancelEvent`, `hands_cancelAll`, `hands_dispatch`: the operations
* `keptOnce_of_reachable`: whatever the fibers, the timers and the kernel do
-/

set_option autoImplicit false

namespace CoroutineService.IOManager

open CoroutineService.Transition CoroutineService.Scheduler

variable {Tid Sch Fib Cb : Type}

namespace State

variable (s : State Tid Sch Fib Cb) (f : Fib)

/-- The event context of a descriptor keeps the fiber. -/
def names (fd : ℕ) (event : Event) : Prop :=
  ∃ slot, (s.context fd).getEventContext event = .ok slot ∧ slot.fiber = some f

/-- The number of tasks that are to resume the fiber. -/
def queued [DecidableEq Fib] : ℕ := s.scheduled.countP fun entry => entry.2.fiber = some f

/-- An event context is empty or keeps a fiber, and so does every task. -/
structure Plain : Prop where
  slots : ∀ fd event slot, (s.context fd).getEventContext event = .ok slot →
    slot = .empty ∨ ∃ scheduler f, slot = ⟨some scheduler, some f, none⟩
  tasks : ∀ entry ∈ s.scheduled, ∃ f, entry.2 = ⟨some f, none, none⟩

variable [DecidableEq Fib]

/-- The fiber is kept by this event context, if any, and by so many tasks. -/
def Kept (place : Option (ℕ × Event)) (tasks : ℕ) : Prop :=
  s.queued f = tasks ∧ ∀ fd event, s.names f fd event ↔ place = some (fd, event)

/-- A fiber that waits for an event is kept by its event context or by a task. -/
def Placed : Option (ℕ × Event) → Prop
  | none => s.Kept f none 0
  | some place => s.Kept f (some place) 0 ∨ s.Kept f none 1

end State

section contexts

variable {s s' : State Tid Sch Fib Cb} {f : Fib} {fd ptr : ℕ} {event : Event}

/-- The event contexts after one of them has been written to. -/
theorem getEventContext_written {slot : EventContext Sch Fib Cb} {events : Events}
    (proper : event ≠ .none) {other : Event} :
    ((s.setContext ptr ({ s.context ptr with events := events }.setEventContext event
      slot)).context fd).getEventContext other =
        if fd = ptr ∧ other = event then .ok slot else (s.context fd).getEventContext other := by
  unfold State.setContext
  dsimp only
  by_cases here : fd = ptr
  · subst here
    rw [Function.update_self, FdContext.getEventContext_setEventContext]
    by_cases same : other = event
    · rw [if_pos ⟨same, same ▸ proper⟩, if_pos ⟨rfl, same⟩]
    · rw [if_neg fun both => same both.1, if_neg fun both => same both.2,
        FdContext.getEventContext_mask]
  · rw [if_neg fun both => here both.1, Function.update_of_ne here]

/-- What `triggerEvent` leaves: the event context is empty, and what it kept is a task. -/
theorem triggerEvent_cases (plain : s.Plain) (triggers : s.triggerEvent event ptr = .ok s') :
    ∃ scheduler g, event ≠ .none ∧ s.names g ptr event ∧
      s' = { s.setContext ptr ({ s.context ptr with
        events := (s.context ptr).events.diff event.mask }.setEventContext event .empty) with
          scheduled := s.scheduled ++ [(scheduler, ⟨some g, none, none⟩)] } := by
  unfold State.triggerEvent FdContext.triggerEvent at triggers
  by_cases unset : (s.context ptr).events.has event = false
  · rw [if_pos unset] at triggers
    cases triggers
  have proper : event ≠ .none := Events.ne_none_of_has (eq_true_of_ne_false unset)
  obtain ⟨slot, found⟩ : ∃ slot, (s.context ptr).getEventContext event = .ok slot :=
    FdContext.exists_getEventContext proper
  rw [if_neg unset] at triggers
  dsimp only [pure, Except.pure, bind, Except.bind] at triggers
  rw [FdContext.getEventContext_mask, found] at triggers
  dsimp only at triggers
  rcases plain.slots ptr event slot found with rfl | ⟨scheduler, g, rfl⟩
  · cases triggers
  · cases triggers
    exact ⟨scheduler, g, proper, ⟨_, found, rfl⟩, rfl⟩

/-- An event context that is written to, and tasks that are added. -/
theorem State.Plain.write (plain : s.Plain) (proper : event ≠ .none)
    {slot : EventContext Sch Fib Cb} {events : Events}
    (isPlain : slot = .empty ∨ ∃ scheduler f, slot = ⟨some scheduler, some f, none⟩)
    (context : s'.context = (s.setContext ptr ({ s.context ptr with
      events := events }.setEventContext event slot)).context)
    (tasks : ∀ entry ∈ s'.scheduled, ∃ f, entry.2 = ⟨some f, none, none⟩) : s'.Plain := by
  refine ⟨fun fd other slot' found => ?_, tasks⟩
  rw [context, getEventContext_written proper] at found
  split at found
  · cases found
    exact isPlain
  · exact plain.slots fd other slot' found

theorem names_written {slot : EventContext Sch Fib Cb} {events : Events}
    (context : s'.context = (s.setContext ptr ({ s.context ptr with
      events := events }.setEventContext event slot)).context) (proper : event ≠ .none)
    {other : Event} : s'.names f fd other ↔
        if fd = ptr ∧ other = event then slot.fiber = some f else s.names f fd other := by
  unfold State.names
  rw [context, getEventContext_written proper]
  split
  · simp
  · rfl

/-- The context of a descriptor is found where the table has it. -/
theorem get_grownFor {T : Table} (straight : T.Straight) (large : 32 ≤ T.contexts.length)
    (fd : ℕ) : (grownFor T fd).Straight ∧ (grownFor T fd).get fd = some fd ∧
      T.contexts.length ≤ (grownFor T fd).contexts.length := by
  have grown : Registered { (State.initial : State ℕ ℕ ℕ ℕ) with table := T } :=
    registered_initial.grow straight (by simpa [State.initial, Table.initial] using large)
  exact grown.addEvent_table fd

/-- `addEvent` for a fiber, if no assertion fails: nothing is registered, or the event context of
the descriptor keeps the fiber from now on. -/
theorem addEvent_cases {success : Bool} {scheduler : Sch} {g : Fib} {rt : ℤ}
    (straight : s.table.Straight) (large : 32 ≤ s.table.contexts.length)
    (adds : addEvent s fd event scheduler g none success = .ok (rt, s')) :
    s'.table = grownFor s.table fd ∧ s'.scheduled = s.scheduled ∧
      (rt ≠ 0 ∧ s'.context = s.context ∨
        rt = 0 ∧ event ≠ .none ∧ s'.context = (s.setContext fd ({ s.context fd with
          events := (s.context fd).events.union event.mask }.setEventContext event
            ⟨some scheduler, some g, none⟩)).context ∧ ∀ f, ¬s.names f fd event) := by
  obtain ⟨-, found, -⟩ := get_grownFor straight large fd
  unfold addEvent addEventAt at adds
  dsimp only [bind, Except.bind, pure, Except.pure] at adds
  rw [found] at adds
  dsimp only at adds
  split at adds
  · cases adds
    exact ⟨rfl, rfl, .inl ⟨by decide, rfl⟩⟩
  · split at adds
    · cases adds
      exact ⟨rfl, rfl, .inl ⟨by decide, rfl⟩⟩
    · split at adds
      · cases adds
      · next slot read =>
        rw [FdContext.getEventContext_mask] at read
        split at adds
        · cases adds
        · next clear =>
          cases adds
          refine ⟨rfl, rfl, .inr ⟨rfl, ?_, rfl, ?_⟩⟩
          · rintro rfl
            cases read
          · rintro f ⟨slot', found', fiber⟩
            cases read.symm.trans found'
            simp [fiber] at clear

end contexts

variable [DecidableEq Fib] {s s' s'' : State Tid Sch Fib Cb} {f : Fib} {fd ptr : ℕ} {event : Event}
  {success : Bool}

/-- Nothing is kept twice or dropped: what was kept by an event context is, or has become a task. -/
structure Hands (s s' : State Tid Sch Fib Cb) : Prop where
  table : s'.table = s.table
  plain : s'.Plain
  placed : ∀ f place, s.Placed f place → s'.Placed f place

theorem Hands.trans (first : Hands s s') (second : Hands s' s'') : Hands s s'' :=
  ⟨second.table.trans first.table, second.plain,
    fun f place placed => second.placed f place (first.placed f place placed)⟩

theorem placed_congr (context : s'.context = s.context) (scheduled : s'.scheduled = s.scheduled)
    {place : Option (ℕ × Event)} (placed : s.Placed f place) : s'.Placed f place := by
  have kept : ∀ place n, s.Kept f place n → s'.Kept f place n := by
    intro place n kept
    unfold State.Kept State.queued State.names at kept ⊢
    rwa [context, scheduled]
  cases place with
  | none => exact kept _ _ placed
  | some place => exact placed.imp (kept _ _) (kept _ _)

/-- Only the kernel, the counter or a batch has changed. -/
theorem hands_of_same (plain : s.Plain) (table : s'.table = s.table)
    (context : s'.context = s.context) (scheduled : s'.scheduled = s.scheduled) : Hands s s' := by
  refine ⟨table, ⟨?_, ?_⟩, fun f place => placed_congr context scheduled⟩
  · rw [context]
    exact plain.slots
  · rw [scheduled]
    exact plain.tasks

theorem Hands.refl (plain : s.Plain) : Hands s s := hands_of_same plain rfl rfl rfl

/-- The task of an event that is triggered takes the place of its event context. -/
theorem hands_triggerEvent (plain : s.Plain) (triggers : s.triggerEvent event ptr = .ok s') :
    Hands s s' := by
  obtain ⟨scheduler, g, proper, named, rfl⟩ := triggerEvent_cases plain triggers
  refine ⟨rfl, plain.write proper (.inl rfl) rfl fun entry mem => ?_, fun f place placed => ?_⟩
  · rcases List.mem_append.mp mem with old | new
    · exact plain.tasks entry old
    · exact ⟨g, by rw [List.mem_singleton.mp new]⟩
  set s' : State Tid Sch Fib Cb := { s.setContext ptr ({ s.context ptr with
    events := (s.context ptr).events.diff event.mask }.setEventContext event .empty) with
      scheduled := s.scheduled ++ [(scheduler, ⟨some g, none, none⟩)] } with after
  have tasks : s'.queued f = s.queued f + if g = f then 1 else 0 := by
    unfold State.queued
    rw [after, List.countP_append, List.countP_singleton]
    simp
  have names : ∀ fd other, s'.names f fd other ↔
      ¬(fd = ptr ∧ other = event) ∧ s.names f fd other := by
    intro fd other
    have context : s'.context = (s.setContext ptr ({ s.context ptr with
      events := (s.context ptr).events.diff event.mask }.setEventContext event
        .empty)).context := rfl
    rw [names_written context proper]
    split
    · next here => exact iff_of_false nofun fun both => both.1 here
    · next other => exact (and_iff_right other).symm
  by_cases mine : g = f
  · subst mine
    rw [if_pos rfl] at tasks
    cases place with
    | none => exact absurd ((placed.2 ptr event).mp named) nofun
    | some place =>
      rcases placed with ⟨none, kept⟩ | ⟨-, kept⟩
      · obtain rfl := Option.some_inj.mp ((kept ptr event).mp named)
        refine .inr ⟨by rw [tasks, none], fun fd other => ?_⟩
        rw [names, kept]
        simp [eq_comm]
      · exact absurd ((kept ptr event).mp named) nofun
  · rw [if_neg mine, Nat.add_zero] at tasks
    have kept : ∀ place n, s.Kept f place n → s'.Kept f place n := by
      intro place n kept
      refine ⟨tasks.trans kept.1, fun fd other => ?_⟩
      rw [names, ← kept.2]
      refine and_iff_right_of_imp fun keeps here => mine ?_
      obtain ⟨rfl, rfl⟩ := here
      obtain ⟨slot, found, fiber⟩ := named
      obtain ⟨slot', found', fiber'⟩ := keeps
      cases found.symm.trans found'
      exact Option.some_inj.mp (fiber.symm.trans fiber')
    cases place with
    | none => exact kept _ _ placed
    | some place => exact placed.imp (kept _ _) (kept _ _)

theorem Hands.triggerEvent (before : Hands s s') (triggers : s'.triggerEvent event ptr = .ok s'') :
    Hands s s'' :=
  before.trans (hands_triggerEvent before.plain triggers)

theorem Hands.triggerIf {triggers : Bool} (before : Hands s s')
    (triggered : IOManager.triggerIf s' triggers event ptr = .ok s'') : Hands s s'' := by
  cases triggers with
  | false =>
    cases triggered
    exact before
  | true =>
    unfold IOManager.triggerIf at triggered
    dsimp only [bind, Except.bind, pure, Except.pure] at triggered
    cases one : s'.triggerEvent event ptr with
    | error fault =>
      rw [one] at triggered
      cases triggered
    | ok between =>
      rw [one] at triggered
      cases triggered
      have first := before.triggerEvent one
      exact first.trans (hands_of_same first.plain rfl rfl rfl)

variable {r : Bool × State Tid Sch Fib Cb}

theorem hands_cancelEvent (plain : s.Plain) (cancels : cancelEvent s fd event success = .ok r) :
    Hands s r.2 := by
  unfold cancelEvent at cancels
  cases found : s.lookup fd with
  | none =>
    rw [found] at cancels
    cases cancels
    exact .refl plain
  | some ptr =>
    rw [found] at cancels
    dsimp only [bind, Except.bind, pure, Except.pure] at cancels
    split at cancels
    · cases cancels
      exact .refl plain
    · split at cancels
      · cases cancels
        exact .refl plain
      · split at cancels
        · cases cancels
        · next s' triggers =>
          cases cancels
          refine Hands.triggerEvent ?_ triggers
          exact hands_of_same plain rfl rfl rfl

theorem hands_cancelAll (plain : s.Plain) (cancels : cancelAll s fd success = .ok r) :
    Hands s r.2 := by
  unfold cancelAll at cancels
  cases found : s.lookup fd with
  | none =>
    rw [found] at cancels
    cases cancels
    exact .refl plain
  | some ptr =>
    rw [found] at cancels
    dsimp only [bind, Except.bind, pure, Except.pure] at cancels
    split at cancels
    · cases cancels
      exact .refl plain
    · split at cancels
      · cases cancels
        exact .refl plain
      · split at cancels
        · cases cancels
        · next between first =>
          split at cancels
          · cases cancels
          · next last second =>
            split at cancels
            · cases cancels
            · cases cancels
              refine Hands.triggerIf (Hands.triggerIf ?_ first) second
              exact hands_of_same plain rfl rfl rfl

theorem hands_dispatch {ready : Ready} (plain : s.Plain)
    (handles : dispatch s ptr ready success = .ok s') : Hands s s' := by
  unfold dispatch at handles
  dsimp only [bind, Except.bind, pure, Except.pure] at handles
  split at handles
  · cases handles
    exact .refl plain
  · split at handles
    · cases handles
      exact .refl plain
    · split at handles
      · cases handles
      · next between first =>
        refine Hands.triggerIf (Hands.triggerIf ?_ first) handles
        exact hands_of_same plain rfl rfl rfl

/-- A failed assertion ends the process and changes nothing else. -/
theorem hands_close {result : Except Fault (State Tid Sch Fib Cb)} (plain : s.Plain)
    (succeeds : ∀ s', result = .ok s' → Hands s s') : Hands s (s.close result) := by
  cases result with
  | error fault => exact hands_of_same plain rfl rfl rfl
  | ok s' => exact succeeds s' rfl

theorem hands_close_map {result : Except Fault (Bool × State Tid Sch Fib Cb)} (plain : s.Plain)
    (succeeds : ∀ r, result = .ok r → Hands s r.2) : Hands s (s.close (result.map Prod.snd)) := by
  cases result with
  | error fault => exact hands_of_same plain rfl rfl rfl
  | ok r => exact succeeds r rfl

/-- A fiber that was kept nowhere is kept by the event context it is registered at, and the
others are where they were. -/
theorem placed_addEvent {scheduler : Sch} {g : Fib} {events : Events} (proper : event ≠ .none)
    (context : s'.context = (s.setContext ptr ({ s.context ptr with
      events := events }.setEventContext event ⟨some scheduler, some g, none⟩)).context)
    (scheduled : s'.scheduled = s.scheduled) (free : ∀ f, ¬s.names f ptr event) :
    (s.Placed g none → s'.Placed g (some (ptr, event))) ∧
      ∀ f ≠ g, ∀ place, s.Placed f place → s'.Placed f place := by
  have tasks : ∀ f, s'.queued f = s.queued f := by
    intro f
    unfold State.queued
    rw [scheduled]
  constructor
  · intro kept
    refine .inl ⟨(tasks g).trans kept.1, fun fd other => ?_⟩
    rw [names_written context proper]
    split
    · next here => exact iff_of_true rfl (by rw [here.1, here.2])
    · next other' =>
      rw [kept.2]
      refine iff_of_false nofun fun same => other' ?_
      cases same
      exact ⟨rfl, rfl⟩
  · intro f mine place placed
    have names : ∀ fd other, s'.names f fd other ↔ s.names f fd other := by
      intro fd other
      rw [names_written context proper]
      split
      · next here =>
        rw [here.1, here.2]
        exact iff_of_false (fun same => mine (Option.some_inj.mp same).symm) (free f)
      · rfl
    have kept : ∀ place n, s.Kept f place n → s'.Kept f place n := fun place n kept =>
      ⟨(tasks f).trans kept.1, fun fd other => (names fd other).trans (kept.2 fd other)⟩
    cases place with
    | none => exact kept _ _ placed
    | some place => exact placed.imp (kept _ _) (kept _ _)

end CoroutineService.IOManager

namespace CoroutineService.Hook

open CoroutineService.Transition CoroutineService.Scheduler
open CoroutineService.IOManager (Hands hands_of_same hands_cancelEvent hands_cancelAll
  hands_dispatch hands_close hands_close_map)

variable {Tid Fib Cb : Type}

/-- The event that a call of `do_io` waits for. -/
def Op.waitsFor (op : Op) : Option (ℕ × IOManager.Event) :=
  if op.pc = .parked then some (op.fd, op.kind.event) else none

/-- The same after a step of the call. -/
def Progress.waitsFor : Progress → Option (ℕ × IOManager.Event)
  | .goOn op => op.waitsFor
  | .returns _ => none

/-- The event that a fiber waits for. -/
def State.waitsFor (s : State Tid Fib Cb) (f : Fib) : Option (ℕ × IOManager.Event) :=
  (s.op f).bind Op.waitsFor

section outside

variable {s : State Tid Fib Cb} {f : Fib} {fd : ℕ}

/-- A fiber outside `do_io` waits for nothing. -/
theorem State.waitsFor_of_idle (idle : s.activity f = .idle) : s.waitsFor f = none := by
  unfold State.waitsFor State.op
  rw [idle]
  rfl

theorem State.waitsFor_of_closing {place : ℕ × ClosePc} (closing : s.closing f = some place) :
    s.waitsFor f = none := by
  unfold State.closing at closing
  unfold State.waitsFor State.op
  split at closing
  · next closes => rw [closes]; rfl
  · cases closing

theorem State.waitsFor_of_adopting (found : s.adopting f = some fd) : s.waitsFor f = none := by
  unfold State.adopting at found
  unfold State.waitsFor State.op
  split at found
  · next adopts => rw [adopts]; rfl
  · cases found

end outside

variable [DecidableEq Fib]

/-- A fiber in `do_io` is kept, from `addEvent` until it is resumed, either by the event context
it is registered at or by one task; nothing keeps another fiber, and no other task resumes one. -/
structure KeptOnce (s : State Tid Fib Cb) : Prop where
  parked : ∀ f op, s.op f = some op → op.pc = .parked →
    s.io.Kept f (some (op.fd, op.kind.event)) 0 ∨ s.io.Kept f none 1
  others : ∀ f, (∀ op, s.op f = some op → op.pc ≠ .parked) → s.io.Kept f none 0
  tasks : ∀ entry ∈ s.io.scheduled, ∃ f op, entry.2 = ⟨some f, none, none⟩ ∧
    s.op f = some op ∧ op.pc = .parked

/-- What every step keeps. -/
structure Waiting (s : State Tid Fib Cb) : Prop where
  straight : s.io.table.Straight
  large : 32 ≤ s.io.table.contexts.length
  plain : s.io.Plain
  placed : ∀ f, s.io.Placed f (s.waitsFor f)

section steps

variable {s s' : State Tid Fib Cb} {f g : Fib} {op : Op} {step : Op → Progress}

theorem Op.waitsFor_of_parked (parked : op.pc = .parked) :
    op.waitsFor = some (op.fd, op.kind.event) :=
  if_pos parked

theorem Op.waitsFor_of_ne (awake : op.pc ≠ .parked) : op.waitsFor = none :=
  if_neg awake

theorem Waiting.keptOnce (waiting : Waiting s) : KeptOnce s := by
  have kept : ∀ f, (∀ op, s.op f = some op → op.pc ≠ .parked) → s.io.Kept f none 0 := by
    intro f awake
    have nothing : s.waitsFor f = none := by
      unfold State.waitsFor
      cases inIo : s.op f with
      | none => rfl
      | some op => exact Op.waitsFor_of_ne (awake op inIo)
    have placed := waiting.placed f
    rwa [nothing] at placed
  refine ⟨fun f op inIo parked => ?_, kept, fun entry mem => ?_⟩
  · have placed := waiting.placed f
    unfold State.waitsFor at placed
    rw [inIo] at placed
    change s.io.Placed f op.waitsFor at placed
    rwa [Op.waitsFor_of_parked parked] at placed
  · obtain ⟨f, resumes⟩ := waiting.plain.tasks entry mem
    by_contra missing
    have awake : ∀ op, s.op f = some op → op.pc ≠ .parked :=
      fun op inIo parked => missing ⟨f, op, resumes, inIo, parked⟩
    have none := (kept f awake).1
    unfold IOManager.State.queued at none
    rw [List.countP_eq_zero] at none
    exact none entry mem (by simp [resumes])

theorem waitsFor_become {activity : Activity} :
    (s.become f activity).waitsFor g =
      if g = f then activity.op.bind Op.waitsFor else s.waitsFor g := by
  unfold State.waitsFor
  rw [op_become]
  split <;> rfl

theorem waitsFor_advance (inIo : s.op f = some op) :
    (s.advance f step).waitsFor g = if g = f then (step op).waitsFor else s.waitsFor g := by
  unfold State.advance
  rw [inIo]
  dsimp only
  split
  · next goes =>
    rw [waitsFor_become, goes]
    rfl
  · next goes _ =>
    rw [waitsFor_become, goes]
    rfl
  · next goes _ =>
    rw [waitsFor_become, goes]
    rfl

/-- The IOManager hands fibers to the scheduler, and every fiber waits for what it waited for. -/
theorem Waiting.hands (waiting : Waiting s) (hands : Hands s.io s'.io)
    (waits : ∀ f, s'.waitsFor f = s.waitsFor f) : Waiting s' := by
  obtain ⟨straight, large, -, placed⟩ := waiting
  refine ⟨?_, ?_, hands.plain, fun f => ?_⟩
  · rwa [hands.table]
  · rwa [hands.table]
  · rw [waits]
    exact hands.placed f _ (placed f)

theorem Waiting.become {activity : Activity} (waiting : Waiting s) (before : s.waitsFor f = none)
    (after : activity.op.bind Op.waitsFor = none) : Waiting (s.become f activity) := by
  refine waiting.hands (.refl waiting.plain) fun g => ?_
  rw [waitsFor_become]
  split
  · next here => rw [here, before, after]
  · rfl

theorem Waiting.advance (waiting : Waiting s) (inIo : s.op f = some op)
    (same : (step op).waitsFor = op.waitsFor) : Waiting (s.advance f step) := by
  refine waiting.hands ?_ fun g => ?_
  · rw [advance_io]
    exact .refl waiting.plain
  · rw [waitsFor_advance inIo]
    split
    · next here =>
      rw [here, same]
      unfold State.waitsFor
      rw [inIo]
      rfl
    · rfl

/-- A fiber in `do_io` does not wait for its event before `addEvent` or after it is resumed. -/
theorem Waiting.awake {step : Op → Progress} (waiting : Waiting s) (inIo : s.op f = some op)
    (awake : op.pc ≠ .parked) (after : (step op).waitsFor = none) : Waiting (s.advance f step) := by
  refine waiting.advance inIo ?_
  rw [Op.waitsFor_of_ne awake, after]

/-- A task of the fiber is taken from the queue, and no other fiber's. -/
theorem queued_take (scheduled : s.scheduled f = true) :
    (s.take f).io.queued f + 1 = s.io.queued f ∧
      ∀ g ≠ f, (s.take f).io.queued g = s.io.queued g := by
  obtain ⟨entry, mem, names⟩ := List.any_eq_true.mp scheduled
  obtain ⟨taken, before, after, -, ours, split, rest⟩ :=
    @List.exists_of_eraseP (Unit × ScheduleTask Tid Fib Cb)
      (fun entry => decide (entry.2.fiber = some f)) _ _ mem names
  have owner : taken.2.fiber = some f := of_decide_eq_true ours
  have erased : (s.take f).io.scheduled = before ++ after := rest
  unfold IOManager.State.queued
  rw [erased, split]
  constructor
  · rw [List.countP_append, List.countP_append, List.countP_cons, owner, decide_eq_true rfl,
      if_pos rfl, Nat.add_assoc]
  · intro g other
    have theirs : decide (some f = some g) = false :=
      decide_eq_false fun same => other (Option.some_inj.mp same).symm
    rw [List.countP_append, List.countP_append, List.countP_cons, owner, theirs, if_neg nofun,
      Nat.add_zero]

theorem Waiting.resume (waiting : Waiting s) (inIo : s.op f = some op) (parked : op.pc = .parked)
    (scheduled : s.scheduled f = true) :
    Waiting ((s.take f).advance f fun op => .goOn { op with pc := .resumed }) := by
  obtain ⟨straight, large, plain, placed⟩ := waiting
  obtain ⟨mine, others⟩ := queued_take scheduled
  have inIo' : (s.take f).op f = some op := inIo
  refine ⟨?_, ?_, ?_, fun g => ?_⟩
  · rwa [advance_io]
  · rwa [advance_io]
  · rw [advance_io]
    exact ⟨plain.slots, fun entry mem => plain.tasks entry (List.mem_of_mem_eraseP mem)⟩
  rw [advance_io, waitsFor_advance inIo']
  split
  · next here =>
    subst here
    have kept := placed g
    unfold State.waitsFor at kept
    rw [inIo] at kept
    change s.io.Placed g op.waitsFor at kept
    rw [Op.waitsFor_of_parked parked] at kept
    rcases kept with ⟨none, -⟩ | ⟨one, nowhere⟩
    · omega
    · exact ⟨by omega, nowhere⟩
  · next other =>
    have kept : ∀ place n, s.io.Kept g place n → (s.take f).io.Kept g place n :=
      fun place n kept => ⟨(others g other).trans kept.1, kept.2⟩
    have before : s.io.Placed g (s.waitsFor g) := placed g
    change (s.take f).io.Placed g (s.waitsFor g)
    cases place : s.waitsFor g with
    | none =>
      rw [place] at before
      exact kept _ _ before
    | some at' =>
      rw [place] at before
      exact before.imp (kept _ _) (kept _ _)

/-- The table has grown, and the fiber is not registered. -/
theorem Waiting.grown (waiting : Waiting s) (straight : s'.io.table.Straight)
    (large : 32 ≤ s'.io.table.contexts.length) (context : s'.io.context = s.io.context)
    (scheduled : s'.io.scheduled = s.io.scheduled) (waits : ∀ g, s'.waitsFor g = s.waitsFor g) :
    Waiting s' := by
  refine ⟨straight, large, ⟨?_, ?_⟩, fun g => ?_⟩
  · rw [context]
    exact waiting.plain.slots
  · rw [scheduled]
    exact waiting.plain.tasks
  · rw [waits]
    exact IOManager.placed_congr context scheduled (waiting.placed g)

/-- The fiber is registered, and is going to yield. -/
theorem Waiting.register {events : IOManager.Events} {scheduler : Unit} (waiting : Waiting s)
    (inIo : s.op f = some op) (awake : op.pc ≠ .parked) (activity : s'.activity = s.activity)
    (straight : s'.io.table.Straight) (large : 32 ≤ s'.io.table.contexts.length)
    (proper : op.kind.event ≠ .none)
    (context : s'.io.context = (s.io.setContext op.fd ({ s.io.context op.fd with
      events := events }.setEventContext op.kind.event ⟨some scheduler, some f, none⟩)).context)
    (scheduled : s'.io.scheduled = s.io.scheduled)
    (free : ∀ g, ¬s.io.names g op.fd op.kind.event)
    (parks : (step op).waitsFor = some (op.fd, op.kind.event)) : Waiting (s'.advance f step) := by
  have ops : ∀ g, s'.op g = s.op g := by
    intro g
    unfold State.op
    rw [activity]
  obtain ⟨registered, others⟩ := IOManager.placed_addEvent proper context scheduled free
  refine ⟨?_, ?_, ?_, fun g => ?_⟩
  · rwa [advance_io]
  · rwa [advance_io]
  · rw [advance_io]
    refine waiting.plain.write proper (.inr ⟨_, _, rfl⟩) context ?_
    rw [scheduled]
    exact waiting.plain.tasks
  rw [advance_io, waitsFor_advance ((ops f).trans inIo)]
  have before := waiting.placed g
  split
  · next here =>
    subst here
    rw [parks]
    unfold State.waitsFor at before
    rw [inIo] at before
    change s.io.Placed g op.waitsFor at before
    rw [Op.waitsFor_of_ne awake] at before
    exact registered before
  · next other =>
    have waits : s'.waitsFor g = s.waitsFor g := by
      unfold State.waitsFor
      rw [ops]
    rw [waits]
    exact others g other _ before

end steps

variable [DecidableEq Tid] {s : State Tid Fib Cb} {f : Fib} {op : Op}

/-! ### Registration -/

section registration

variable {success : Bool} {rt : ℤ} {io : IOManager.State Tid Unit Fib Cb} {fault : IOManager.Fault}

omit [DecidableEq Fib] in
theorem perform_addEvent (adds : s.registration f op success = .ok (rt, io)) :
    (s.perform (.addEvent op.fd op.kind.event () f none success)).io = io ∧
      s.registered f op success = rt := by
  constructor
  · rw [State.perform_io]
    unfold IOManager.next
    dsimp only
    unfold State.registration at adds
    rw [adds]
    rfl
  · unfold State.registered
    rw [adds]

omit [DecidableEq Fib] in
/-- An assertion of `addEvent` ends the process. -/
theorem perform_addEvent_error (fails : s.registration f op success = .error fault) :
    (s.perform (.addEvent op.fd op.kind.event () f none success)).io =
        { s.io with fault := some fault } ∧
      s.registered f op success = -1 := by
  constructor
  · rw [State.perform_io]
    unfold IOManager.next
    dsimp only
    unfold State.registration at fails
    rw [fails]
    rfl
  · unfold State.registered
    rw [fails]

theorem Waiting.addEvent (waiting : Waiting s) (inIo : s.op f = some op) (pc : op.pc = .addEvent)
    (success : Bool) : Waiting (next s (.addEvent f success)) := by
  rw [next_addEvent inIo]
  have awake : op.pc ≠ .parked := by simp [pc]
  cases adds : s.registration f op success with
  | error fault =>
    obtain ⟨stopped, result⟩ := perform_addEvent_error adds
    have stops : Waiting (s.perform (.addEvent op.fd op.kind.event () f none success)) := by
      refine waiting.hands ?_ fun _ => rfl
      rw [stopped]
      exact hands_of_same waiting.plain rfl rfl rfl
    refine stops.awake inIo awake ?_
    rw [result]
    rfl
  | ok r =>
    obtain ⟨rt, io⟩ := r
    obtain ⟨onward, result⟩ := perform_addEvent adds
    obtain ⟨table, scheduled, effect⟩ :=
      IOManager.addEvent_cases waiting.straight waiting.large adds
    obtain ⟨straight, -, grows⟩ := IOManager.get_grownFor waiting.straight waiting.large op.fd
    have large := waiting.large.trans grows
    rw [← table] at straight large
    rw [← onward] at straight large scheduled effect
    rcases effect with ⟨failed, context⟩ | ⟨rfl, proper, context, free⟩
    · refine (waiting.grown straight large context scheduled fun _ => rfl).awake inIo awake ?_
      rw [result]
      unfold Op.added
      rw [if_pos failed]
      rfl
    · refine waiting.register inIo awake rfl straight large proper context scheduled free ?_
      rw [result]
      rfl

end registration

/-! ### The steps, by what the fiber does -/

theorem Waiting.get (waiting : Waiting s) (inIo : s.op f = some op) (pc : op.pc = .get) :
    Waiting (next s (.get f)) := by
  refine waiting.awake inIo (by simp [pc]) ?_
  unfold Op.lookup
  split
  · rfl
  · split
    · rfl
    · split <;> rfl

theorem Waiting.call (waiting : Waiting s) (inIo : s.op f = some op)
    (pc : op.pc = .pass ∨ op.pc = .retry) (outcome : Outcome) :
    Waiting (next s (.call f outcome)) := by
  rw [next_call inIo]
  have answered : (s.answered op outcome).io = s.io ∧
      (s.answered op outcome).activity = s.activity := by
    unfold State.answered
    split <;> exact ⟨rfl, rfl⟩
  have ops : ∀ g, (s.answered op outcome).op g = s.op g := by
    intro g
    unfold State.op
    rw [answered.2]
  have onward : Waiting (s.answered op outcome) := by
    refine waiting.hands ?_ fun g => ?_
    · rw [answered.1]
      exact .refl waiting.plain
    · unfold State.waitsFor
      rw [ops]
  refine onward.awake ((ops f).trans inIo) (by rcases pc with pc | pc <;> simp [pc]) ?_
  unfold Op.call
  split
  · rfl
  · split <;> rfl

theorem Waiting.check (waiting : Waiting s) (inIo : s.op f = some op) (pc : op.pc = .resumed) :
    Waiting (next s (.check f)) := by
  refine waiting.awake inIo (by simp [pc]) ?_
  unfold Op.check
  split <;> rfl

/-- The callback of a timer is handed out, or runs: the fiber stays where it is. -/
theorem Waiting.onTimer (waiting : Waiting s) (inIo : s.op f = some op) :
    Waiting (next s (.onTimer f)) := by
  obtain ⟨cancels, stepped⟩ := next_onTimer inIo
  rw [stepped]
  have counted : Waiting { s with cancels } := waiting.hands (.refl waiting.plain) fun _ => rfl
  exact counted.advance inIo rfl

/-- Nothing but the kernel's descriptors and `m_datas` is written to. -/
theorem Waiting.adopt {fd : ℕ} (waiting : Waiting s) (found : s.adopting f = some fd) :
    Waiting (next s (.adopt f)) := by
  rw [next_adopt found]
  have known : Waiting (s.setData fd
      (some ((s.datas fd).getD (FdCtx.create (s.socket fd).isSome)))) :=
    waiting.hands (.refl waiting.plain) fun _ => rfl
  exact known.become (State.waitsFor_of_adopting found) rfl

theorem Waiting.socket (waiting : Waiting s) (idle : s.activity f = .idle) (fd : ℕ)
    (hookEnable : Bool) : Waiting (next s (.socket f fd hookEnable)) := by
  have opened : Waiting (s.openSocket fd) := waiting.hands (.refl waiting.plain) fun _ => rfl
  refine opened.become (State.waitsFor_of_idle idle) ?_
  cases hookEnable <;> rfl

theorem Waiting.cancelAll {fd : ℕ} {pc : ClosePc} (waiting : Waiting s)
    (closing : s.closing f = some (fd, pc)) (success : Bool) :
    Waiting (next s (.cancelAll f success)) := by
  rw [next_cancelAll closing]
  have cancelled : Waiting (s.perform (.cancelAll fd success)) :=
    waiting.hands (hands_close_map waiting.plain fun r cancels =>
      hands_cancelAll waiting.plain cancels) fun _ => rfl
  exact cancelled.become (State.waitsFor_of_closing closing) rfl

theorem Waiting.del {fd : ℕ} {pc : ClosePc} (waiting : Waiting s)
    (closing : s.closing f = some (fd, pc)) : Waiting (next s (.del f)) := by
  rw [next_del closing]
  have forgotten : Waiting (s.setData fd none) := waiting.hands (.refl waiting.plain) fun _ => rfl
  exact forgotten.become (State.waitsFor_of_closing closing) rfl

theorem Waiting.closeFd {fd : ℕ} {pc : ClosePc} (waiting : Waiting s)
    (closing : s.closing f = some (fd, pc)) : Waiting (next s (.closeFd f)) := by
  rw [next_closeFd closing]
  have closed : Waiting (s.closeSocket fd) :=
    waiting.hands (hands_of_same waiting.plain rfl rfl rfl) fun _ => rfl
  exact closed.become (State.waitsFor_of_closing closing) rfl

/-- A worker takes an event from its batch, and triggers what has become ready. -/
theorem Waiting.dispatch (waiting : Waiting s) (w : Tid) (success : Bool) :
    Waiting (next s (.dispatch w success)) := by
  refine waiting.hands ?_ fun _ => rfl
  show Hands s.io (IOManager.next s.io (.dispatch w success))
  unfold IOManager.next
  dsimp only
  split
  · exact .refl waiting.plain
  · next ptr ready rest batch =>
    have popped : Hands s.io { s.io with batch := Function.update s.io.batch w rest } :=
      hands_of_same waiting.plain rfl rfl rfl
    exact popped.trans (hands_close popped.plain fun io handles =>
      hands_dispatch popped.plain handles)

theorem Waiting.next {a : Move Tid Fib} (waiting : Waiting s)
    (available : hookMachine.enabled s a) : Waiting (hookMachine.next s a) := by
  obtain ⟨-, available⟩ := available
  show Waiting (Hook.next s a)
  cases a with
  | start f kind fd hookEnable =>
    refine waiting.become (State.waitsFor_of_idle available) ?_
    cases hookEnable <;> rfl
  | get f =>
    obtain ⟨op, inIo, pc⟩ := available
    exact waiting.get inIo pc
  | call f outcome =>
    obtain ⟨op, inIo, pc, -⟩ := available
    exact waiting.call inIo pc outcome
  | arm f =>
    obtain ⟨op, inIo, pc⟩ := available
    show Waiting (s.advance f Op.arm)
    exact waiting.awake inIo (by simp [pc]) rfl
  | addEvent f success =>
    obtain ⟨op, inIo, pc, -⟩ := available
    exact waiting.addEvent inIo pc success
  | fail f =>
    obtain ⟨op, inIo, pc⟩ := available
    show Waiting (s.advance f fun _ => .returns none)
    exact waiting.awake inIo (by simp [pc]) rfl
  | resume f =>
    obtain ⟨op, inIo, pc, scheduled⟩ := available
    exact waiting.resume inIo pc scheduled
  | check f =>
    obtain ⟨op, inIo, pc⟩ := available
    exact waiting.check inIo pc
  | expire f =>
    obtain ⟨op, inIo, -⟩ := available
    show Waiting (s.advance f fun op =>
      .goOn { op with pending := false, extracted := op.extracted + 1 })
    exact waiting.advance inIo rfl
  | onTimer f =>
    obtain ⟨op, inIo, -⟩ := available
    exact waiting.onTimer inIo
  | cancelEvent fd event success =>
    exact waiting.hands (hands_close_map waiting.plain fun r cancels =>
      hands_cancelEvent waiting.plain cancels) fun _ => rfl
  | socket f fd hookEnable => exact waiting.socket available.1 fd hookEnable
  | adopt f =>
    obtain ⟨fd, found⟩ := Option.isSome_iff_exists.mp available
    exact waiting.adopt found
  | close f fd hookEnable => exact waiting.become (State.waitsFor_of_idle available) rfl
  | closeGet f =>
    obtain ⟨⟨fd, pc⟩, found, -⟩ := available
    rw [next_closeGet found]
    exact waiting.become (State.waitsFor_of_closing found) rfl
  | cancelAll f success =>
    obtain ⟨⟨fd, pc⟩, found, -⟩ := available
    exact waiting.cancelAll found success
  | del f =>
    obtain ⟨⟨fd, pc⟩, found, -⟩ := available
    exact waiting.del found
  | closeFd f =>
    obtain ⟨⟨fd, pc⟩, found, -⟩ := available
    exact waiting.closeFd found
  | setUserNonblock fd nonblock => exact waiting.hands (.refl waiting.plain) fun _ => rfl
  | setTimeout fd recv ms => exact waiting.hands (.refl waiting.plain) fun _ => rfl
  | epollWait w ready => exact waiting.hands (hands_of_same waiting.plain rfl rfl rfl) fun _ => rfl
  | dispatch w success => exact waiting.dispatch w success

/-- In every run, a fiber that yields in `do_io` is kept in one place until it is resumed: by the
event context of its descriptor, or by one task. Growths of the descriptor table do not overlap. -/
theorem keptOnce_of_reachable {s : State Tid Fib Cb} (reached : hookMachine.Reachable s) :
    KeptOnce s := by
  have waiting : Waiting s := by
    refine reached.invariant (fun s starts => ?_) fun s a waiting available _ =>
      waiting.next available
    obtain rfl : s = State.initial := starts
    refine ⟨IOManager.Table.straight_initial, ?_, ⟨fun fd event slot found => .inl ?_, nofun⟩,
      fun f => ⟨rfl, fun fd event => iff_of_false ?_ nofun⟩⟩
    · simp [State.initial, IOManager.State.initial, IOManager.Table.initial]
    · cases event <;> cases found <;> rfl
    · rintro ⟨slot, found, names⟩
      cases event <;> cases found <;> cases names
  exact waiting.keptOnce

/-- A fiber has yielded, and its event has come in. -/
theorem keptOnce_woken :
    let s := hookMachine.after (State.initial : State ℕ (Fin 2) ℕ)
      (parkOn [] ++ [.epollWait 0 [(7, ⟨true, false, false⟩)], .dispatch 0 true])
    s.scheduled 0 = true ∧ KeptOnce s :=
  ⟨by decide, keptOnce_of_reachable (Machine.reachable_after rfl (by decide))⟩

end CoroutineService.Hook
