import CoroutineService.IOManager.Table
import CoroutineService.Scheduler.Queue
import Mathlib.Data.Int.Notation

/-!
# Registered events

An `FdContext` keeps, for each event registered on a descriptor, whom to schedule
when it happens. `addEvent`, `delEvent`, `cancelEvent`, `cancelAll` and the
dispatch of `idle` change it under its mutex, together with the registration the
kernel keeps and the count of pending events; each of them is one step here. A
failed assertion ends the process.

## Main definitions

* `Events`: the mask type of `FdContext::events`
* `FdContext`: the mask and the continuations it stands for
* `State`: table, contexts, kernel and counter
* `addEvent`, `delEvent`, `cancelEvent`, `cancelAll`, `dispatch`
-/

set_option autoImplicit false

namespace CoroutineService.IOManager

open CoroutineService.Scheduler

/-- `IOManager::Event` as the name of one event. -/
inductive Event
  | none | read | write
  deriving DecidableEq, Repr

/-- `IOManager::Event` as a mask: the bits `READ` and `WRITE`. -/
structure Events where
  read : Bool
  write : Bool
  deriving DecidableEq, Repr

namespace Events

/-- `NONE`. -/
def none : Events := ⟨false, false⟩

/-- `|`. -/
def union (m n : Events) : Events := ⟨m.read || n.read, m.write || n.write⟩

/-- `&`. -/
def inter (m n : Events) : Events := ⟨m.read && n.read, m.write && n.write⟩

/-- `m & ~n`. -/
def diff (m n : Events) : Events := ⟨m.read && !n.read, m.write && !n.write⟩

/-- The number of bits set. -/
def count (m : Events) : ℕ := m.read.toNat + m.write.toNat

end Events

/-- The bit of an event. -/
def Event.mask : Event → Events
  | .none => ⟨false, false⟩
  | .read => ⟨true, false⟩
  | .write => ⟨false, true⟩

/-- `m & event`. -/
def Events.has (m : Events) (event : Event) : Bool := m.inter event.mask ≠ Events.none

namespace Events

variable {m n : Events} {event other : Event}

@[simp]
theorem has_none : m.has .none = false := by
  cases m
  simp [has, inter, Event.mask, none]

@[simp]
theorem none_has : none.has event = false := by
  cases event <;> rfl

theorem has_read {m : Events} : m.has .read = m.read := by
  obtain ⟨r, w⟩ := m
  cases r <;> cases w <;> rfl

theorem has_write {m : Events} : m.has .write = m.write := by
  obtain ⟨r, w⟩ := m
  cases r <;> cases w <;> rfl

/-- Clearing a bit leaves the others. -/
theorem has_diff : (m.diff event.mask).has other = (m.has other && other ≠ event) := by
  obtain ⟨r, w⟩ := m
  cases event <;> cases other <;> cases r <;> cases w <;> rfl

/-- Setting a bit leaves the others. -/
theorem has_union (proper : event ≠ .none) :
    (m.union event.mask).has other = (m.has other || other = event) := by
  obtain ⟨r, w⟩ := m
  cases event
  · exact absurd rfl proper
  all_goals cases other <;> cases r <;> cases w <;> rfl

theorem ne_none_of_has (set : m.has event = true) : event ≠ .none := by
  rintro rfl
  simp at set

theorem union_ne_none (proper : event ≠ .none) : m.union event.mask ≠ none := by
  obtain ⟨r, w⟩ := m
  cases event
  · exact absurd rfl proper
  all_goals cases r <;> cases w <;> decide

theorem count_diff (set : m.has event = true) : (m.diff event.mask).count + 1 = m.count := by
  obtain ⟨r, w⟩ := m
  cases event <;> cases r <;> cases w <;> first | rfl | cases set

theorem count_union (proper : event ≠ .none) (unset : m.has event = false) :
    (m.union event.mask).count = m.count + 1 := by
  obtain ⟨r, w⟩ := m
  cases event
  · exact absurd rfl proper
  all_goals cases r <;> cases w <;> first | rfl | cases unset

end Events

variable {Tid Sch Fib Cb : Type}

/-- `FdContext::EventContext`. -/
structure EventContext (Sch Fib Cb : Type) where
  scheduler : Option Sch
  fiber : Option Fib
  cb : Option Cb
  deriving DecidableEq

/-- An event context after `resetEventContext`. -/
def EventContext.empty : EventContext Sch Fib Cb := ⟨.none, .none, .none⟩

/-- `FdContext`. Its field `fd` never changes and is kept with the table. -/
structure FdContext (Sch Fib Cb : Type) where
  read : EventContext Sch Fib Cb
  write : EventContext Sch Fib Cb
  events : Events
  deriving DecidableEq

/-- The assertions that can fail. -/
inductive Fault
  -- `assert(event==READ || event==WRITE)`.
  | getEventContext
  -- `assert(!event_ctx.scheduler && !event_ctx.fiber && !event_ctx.cb)`.
  | addEvent
  -- `assert(events & event)`.
  | triggerEvent
  -- `assert(fd_ctx->events == 0)`.
  | cancelAll
  -- A null pointer is followed.
  | nullPointer
  deriving DecidableEq, Repr

namespace FdContext

/-- `new FdContext()`. -/
def fresh : FdContext Sch Fib Cb := ⟨.empty, .empty, .none⟩

/-- `FdContext::getEventContext`. -/
def getEventContext (event : Event) (ctx : FdContext Sch Fib Cb) :
    Except Fault (EventContext Sch Fib Cb) :=
  match event with
  | .none => .error .getEventContext
  | .read => .ok ctx.read
  | .write => .ok ctx.write

/-- Write to the event context of an event. -/
def setEventContext (event : Event) (slot : EventContext Sch Fib Cb)
    (ctx : FdContext Sch Fib Cb) : FdContext Sch Fib Cb :=
  match event with
  | .none => ctx
  | .read => { ctx with read := slot }
  | .write => { ctx with write := slot }

theorem exists_getEventContext {event : Event} {ctx : FdContext Sch Fib Cb}
    (proper : event ≠ .none) : ∃ slot, ctx.getEventContext event = .ok slot := by
  cases event
  · exact absurd rfl proper
  all_goals exact ⟨_, rfl⟩

/-- The event contexts of different events are different. -/
theorem getEventContext_setEventContext {event other : Event} {slot : EventContext Sch Fib Cb}
    {ctx : FdContext Sch Fib Cb} :
    (ctx.setEventContext event slot).getEventContext other =
      if other = event ∧ other ≠ .none then .ok slot else ctx.getEventContext other := by
  cases event <;> cases other <;> rfl

@[simp]
theorem setEventContext_events {event : Event} {slot : EventContext Sch Fib Cb}
    {ctx : FdContext Sch Fib Cb} : (ctx.setEventContext event slot).events = ctx.events := by
  cases event <;> rfl

/-- `FdContext::triggerEvent`: the context left behind, and what is handed to the
`scheduleLock` of which scheduler. -/
def triggerEvent (event : Event) (ctx : FdContext Sch Fib Cb) :
    Except Fault (FdContext Sch Fib Cb × Sch × ScheduleTask Tid Fib Cb) := do
  if ctx.events.has event = false then throw .triggerEvent
  let left := { ctx with events := ctx.events.diff event.mask }
  let slot ← left.getEventContext event
  match slot.scheduler with
  | .none => throw .nullPointer
  | some scheduler =>
    let task := if slot.cb.isSome then ⟨.none, slot.cb, .none⟩ else ⟨slot.fiber, .none, .none⟩
    return (left.setEventContext event .empty, scheduler, task)

end FdContext

/-- What the kernel keeps for a registered descriptor: `data.ptr` and the events
of interest. -/
structure Registration where
  ptr : ℕ
  events : Events
  deriving DecidableEq, Repr

/-- The `op` of `epoll_ctl`. -/
inductive EpollOp
  | add | mod | del
  deriving DecidableEq, Repr

/-- The mask in an `epoll_event`. -/
structure Ready where
  epollin : Bool
  epollout : Bool
  -- `EPOLLERR` or `EPOLLHUP`.
  errhup : Bool
  deriving DecidableEq, Repr

/-- The parts of an IOManager that registrations touch. `context` names
`FdContext`s as `Table` does; `scheduled` lists the calls of `scheduleLock`;
`batch` is the part of `events` that an idle worker has still to handle. -/
structure State (Tid Sch Fib Cb : Type) where
  table : Table
  context : ℕ → FdContext Sch Fib Cb
  kernel : ℕ → Option Registration
  pendingEventCount : ℕ
  scheduled : List (Sch × ScheduleTask Tid Fib Cb)
  batch : Tid → List (ℕ × Ready)
  fault : Option Fault

namespace State

variable (s : State Tid Sch Fib Cb)

/-- A new IOManager. -/
def initial : State Tid Sch Fib Cb :=
  ⟨Table.initial, fun _ => .fresh, fun _ => .none, 0, [], fun _ => [], .none⟩

/-- The context of `fd`, for the operations that do not grow the table. -/
def lookup (fd : ℕ) : Option ℕ := if s.table.inRange fd then s.table.get fd else .none

/-- A successful `epoll_ctl`. -/
def epollCtl (op : EpollOp) (fd ptr : ℕ) (events : Events) : State Tid Sch Fib Cb :=
  { s with
    kernel := Function.update s.kernel fd
      (match op with
        | .add | .mod => some ⟨ptr, events⟩
        | .del => .none) }

@[simp]
theorem epollCtl_context {op : EpollOp} {fd ptr : ℕ} {events : Events} :
    (s.epollCtl op fd ptr events).context = s.context := rfl

/-- Write to an `FdContext`. -/
def setContext (ptr : ℕ) (ctx : FdContext Sch Fib Cb) : State Tid Sch Fib Cb :=
  { s with context := Function.update s.context ptr ctx }

/-- `fd_ctx->triggerEvent(event)` on the context `ptr`. -/
def triggerEvent (event : Event) (ptr : ℕ) : Except Fault (State Tid Sch Fib Cb) := do
  let (left, task) ← (s.context ptr).triggerEvent event
  return { s.setContext ptr left with scheduled := s.scheduled ++ [task] }

/-- `--m_pendingEventCount`. -/
def decrement : State Tid Sch Fib Cb :=
  { s with pendingEventCount := s.pendingEventCount - 1 }

end State

/-! ### The operations

Each runs under the mutex of one context. `success` is the outcome of its
`epoll_ctl`. -/

section Operations

variable (s : State Tid Sch Fib Cb)

/-- The section of `addEvent` under `fd_ctx->mutex`, with its result. The fiber
`fib` calls it on a thread of `scheduler`. -/
def addEventAt (ptr fd : ℕ) (event : Event) (scheduler : Sch) (fib : Fib) (cb : Option Cb)
    (success : Bool) : Except Fault (ℤ × State Tid Sch Fib Cb) := do
  let ctx := s.context ptr
  if ctx.events.has event then return (-1, s)
  let op := if ctx.events = .none then EpollOp.add else .mod
  if success = false then return (-1, s)
  let s := s.epollCtl op fd ptr (ctx.events.union event.mask)
  let s := { s with pendingEventCount := s.pendingEventCount + 1 }
  let ctx := { ctx with events := ctx.events.union event.mask }
  let slot ← ctx.getEventContext event
  if slot.scheduler.isSome || slot.fiber.isSome || slot.cb.isSome then throw .addEvent
  let slot := if cb.isSome then ⟨some scheduler, .none, cb⟩ else ⟨some scheduler, some fib, .none⟩
  return (0, s.setContext ptr (ctx.setEventContext event slot))

/-- The table after `addEvent` has looked at its size. -/
def grownFor (T : Table) (fd : ℕ) : Table :=
  if T.inRange fd then T else T.contextResize (Table.wanted fd)

/-- `IOManager::addEvent`. -/
def addEvent (fd : ℕ) (event : Event) (scheduler : Sch) (fib : Fib) (cb : Option Cb)
    (success : Bool) : Except Fault (ℤ × State Tid Sch Fib Cb) :=
  let table := grownFor s.table fd
  match table.get fd with
  | .none => throw .nullPointer
  | some ptr => addEventAt { s with table := table } ptr fd event scheduler fib cb success

/-- `IOManager::delEvent`. The `return -1` after a failed `epoll_ctl` is `true`. -/
def delEvent (fd : ℕ) (event : Event) (success : Bool) :
    Except Fault (Bool × State Tid Sch Fib Cb) := do
  match s.lookup fd with
  | .none => return (false, s)
  | some ptr =>
    let ctx := s.context ptr
    if ctx.events.has event = false then return (false, s)
    let newEvents := ctx.events.diff event.mask
    let op := if newEvents = .none then EpollOp.del else .mod
    if success = false then return (true, s)
    let s := (s.epollCtl op fd ptr newEvents).decrement
    let ctx := { ctx with events := newEvents }
    let _ ← ctx.getEventContext event
    return (true, s.setContext ptr (ctx.setEventContext event .empty))

/-- `IOManager::cancelEvent`. -/
def cancelEvent (fd : ℕ) (event : Event) (success : Bool) :
    Except Fault (Bool × State Tid Sch Fib Cb) := do
  match s.lookup fd with
  | .none => return (false, s)
  | some ptr =>
    let ctx := s.context ptr
    if ctx.events.has event = false then return (false, s)
    let newEvents := ctx.events.diff event.mask
    let op := if newEvents = .none then EpollOp.del else .mod
    if success = false then return (true, s)
    let s := (s.epollCtl op fd ptr newEvents).decrement
    return (true, ← s.triggerEvent event ptr)

/-- Trigger and count one event if a mask has it, as `cancelAll` and `idle` do
for `READ` and `WRITE` in turn. -/
def triggerIf (triggers : Bool) (event : Event) (ptr : ℕ) :
    Except Fault (State Tid Sch Fib Cb) := do
  if triggers then return (← s.triggerEvent event ptr).decrement else return s

/-- `IOManager::cancelAll`. -/
def cancelAll (fd : ℕ) (success : Bool) : Except Fault (Bool × State Tid Sch Fib Cb) := do
  match s.lookup fd with
  | .none => return (false, s)
  | some ptr =>
    if (s.context ptr).events = .none then return (false, s)
    if success = false then return (true, s)
    let s := s.epollCtl .del fd ptr .none
    let s ← triggerIf s ((s.context ptr).events.has .read) .read ptr
    let s ← triggerIf s ((s.context ptr).events.has .write) .write ptr
    if (s.context ptr).events ≠ .none then throw .cancelAll
    return (true, s)

/-- `real_events`: `EPOLLERR` and `EPOLLHUP` stand for the events registered. -/
def Ready.realEvents (ready : Ready) (events : Events) : Events :=
  ⟨ready.epollin || ready.errhup && events.read, ready.epollout || ready.errhup && events.write⟩

/-- What `idle` does with one entry of `events` that is not the pipe's. -/
def dispatch (ptr : ℕ) (ready : Ready) (success : Bool) : Except Fault (State Tid Sch Fib Cb) := do
  let ctx := s.context ptr
  let realEvents := ready.realEvents ctx.events
  if ctx.events.inter realEvents = .none then return s
  let leftEvents := ctx.events.diff realEvents
  let op := if leftEvents = .none then EpollOp.del else .mod
  if success = false then return s
  let s := s.epollCtl op (s.table.constructed.getD ptr 0) ptr leftEvents
  let s ← triggerIf s (realEvents.has .read) .read ptr
  triggerIf s (realEvents.has .write) .write ptr

end Operations

end CoroutineService.IOManager
