import CoroutineService.IOManager.Machine
import Mathlib.Tactic.Simps.Basic

/-!
# Hooked descriptors

Fibers of one IOManager call the hooked `accept`, `read`, `write` and their
variants, all of which are `do_io`, and the hooked `socket` and `close`. The kernel
is a map from descriptor numbers to open sockets; a number is free again once it is
closed. Every label is one atomic step of one fiber or timer callback.

## Main definitions

* `FdCtx`, `Op`: what `FdManager` knows of a descriptor, and a call of `do_io`
* `Op.lookup`, `Op.call`, `Op.check`: the steps of `do_io` between its kernel calls
* `hookMachine`: the steps of all fibers
-/

set_option autoImplicit false

namespace CoroutineService.Hook

open CoroutineService.Transition CoroutineService.Scheduler

/-- The callers of `do_io`: `accept`, the variants of `read` and those of `write`. -/
inductive Kind
  | accept | read | write
  deriving DecidableEq, Repr

/-- The argument `event`. -/
def Kind.event : Kind → IOManager.Event
  | .accept | .read => .read
  | .write => .write

/-- `FdCtx`. A timeout of `(uint64_t)-1` is `none`. -/
structure FdCtx where
  isSocket : Bool
  userNonblock : Bool
  isClosed : Bool
  recvTimeout : Option ℕ
  sendTimeout : Option ℕ
  deriving DecidableEq, Repr

namespace FdCtx

/-- `FdCtx(fd)`, with the answer of `fstat`. -/
def create (isSocket : Bool) : FdCtx := ⟨isSocket, false, false, none, none⟩

/-- `FdCtx::getTimeout` for the `timeout_so` of a caller. -/
def getTimeout (ctx : FdCtx) : Kind → Option ℕ
  | .accept | .read => ctx.recvTimeout
  | .write => ctx.sendTimeout

/-- `FdCtx::setTimeout`. -/
def setTimeout (ctx : FdCtx) (recv : Bool) (ms : ℕ) : FdCtx :=
  if recv then { ctx with recvTimeout := some ms } else { ctx with sendTimeout := some ms }

end FdCtx

/-- Where a call of `do_io` stands. -/
inductive Pc
  -- Before `FdMgr::GetInstance()->get(fd)`.
  | get
  -- Before a call whose result is returned as it is.
  | pass
  -- At `retry`, or in the loop for `EINTR`.
  | retry
  -- The kernel has answered `EAGAIN`.
  | arm
  -- Before `addEvent`.
  | addEvent
  -- `addEvent` has failed: the timer is to be cancelled, and `-1` returned.
  | fail
  -- At `yield`.
  | parked
  -- Back from `yield`.
  | resumed
  deriving DecidableEq, Repr

/-- A call of `do_io`. The flag `cancelled` stands for `tinfo->cancelled ==
ETIMEDOUT`; `pending` tells that the conditional timer has its callback, and
`extracted` counts the callbacks handed to the scheduler and not run yet. -/
structure Op where
  kind : Kind
  fd : ℕ
  timeout : Option ℕ
  cancelled : Bool
  pending : Bool
  extracted : ℕ
  pc : Pc
  deriving DecidableEq, Repr

/-- What a call into the kernel returns: a result, or `-1` with an `errno`. -/
inductive Outcome
  | value (n : ℕ)
  | eintr | eagain | error
  deriving DecidableEq, Repr

/-- The result without `errno`; `-1` is `none`. -/
def Outcome.result : Outcome → Option ℕ
  | .value n => some n
  | _ => none

/-- How `do_io` goes on after a step. -/
inductive Progress
  | goOn (op : Op)
  | returns (result : Option ℕ)
  deriving DecidableEq, Repr

namespace Op

/-- `do_io` is called. -/
def start (kind : Kind) (fd : ℕ) (hookEnable : Bool) : Op :=
  ⟨kind, fd, none, false, false, 0, if hookEnable then .get else .pass⟩

variable (op : Op)

/-- What `do_io` makes of the `FdCtx` of its descriptor. -/
def lookup (ctx : Option FdCtx) : Progress :=
  match ctx with
  | none => .goOn { op with pc := .pass }
  | some ctx =>
    if ctx.isClosed then .returns none
    else if ctx.isSocket = false ∨ ctx.userNonblock then .goOn { op with pc := .pass }
    else .goOn { op with timeout := ctx.getTimeout op.kind, pc := .retry }

/-- What `do_io` makes of the outcome of its call into the kernel. -/
def call (outcome : Outcome) : Progress :=
  if op.pc = .pass then .returns outcome.result
  else
    match outcome with
    | .eintr => .goOn { op with pc := .retry }
    | .eagain => .goOn { op with pc := .arm }
    | .value _ | .error => .returns outcome.result

/-- The conditional timer is added when a timeout has been set. -/
def arm : Progress := .goOn { op with pending := op.timeout.isSome, pc := .addEvent }

/-- What `do_io` makes of the result of `addEvent`. -/
def added (rt : ℤ) : Progress := .goOn { op with pc := if rt ≠ 0 then .fail else .parked }

/-- The timer is cancelled, and the call goes back to `retry` unless it timed out. -/
def check : Progress :=
  if op.cancelled then .returns none else .goOn { op with pending := false, pc := .retry }

end Op

/-- Where a call of `close` stands. -/
inductive ClosePc
  | get | cancelAll | del | close
  deriving DecidableEq, Repr

/-- What a fiber is doing. -/
inductive Activity
  | idle
  | doIo (op : Op)
  -- `socket` or `accept` has a new descriptor, before `FdMgr`'s `get(fd, true)`.
  | adopting (fd : ℕ)
  | closing (fd : ℕ) (pc : ClosePc)
  deriving DecidableEq, Repr

/-- The call of `do_io` a fiber is in. -/
def Activity.op : Activity → Option Op
  | .doIo op => some op
  | _ => none

/-- The kernel's descriptors, `FdManager`, the IOManager and the fibers. Sockets are
named in the order in which they are opened. `datas` is `m_datas`, empty beyond its
size; `cancels` lists the timer callbacks that have timed an operation out and are
still to call `cancelEvent`. -/
structure State (Tid Fib Cb : Type) where
  socket : ℕ → Option ℕ
  opened : ℕ
  datas : ℕ → Option FdCtx
  io : IOManager.State Tid Unit Fib Cb
  activity : Fib → Activity
  cancels : List (ℕ × IOManager.Event)

/-- The steps. Outcomes of kernel calls and new descriptors are arguments, and so is
`t_hook_enable`. -/
inductive Move (Tid Fib : Type)
  | start (f : Fib) (kind : Kind) (fd : ℕ) (hookEnable : Bool)
  | get (f : Fib)
  | call (f : Fib) (outcome : Outcome)
  | arm (f : Fib)
  | addEvent (f : Fib) (success : Bool)
  | fail (f : Fib)
  | resume (f : Fib)
  | check (f : Fib)
  -- `listExpiredCb` hands the callback of the timer to the scheduler.
  | expire (f : Fib)
  | onTimer (f : Fib)
  | cancelEvent (fd : ℕ) (event : IOManager.Event) (success : Bool)
  | socket (f : Fib) (fd : ℕ) (hookEnable : Bool)
  | adopt (f : Fib)
  | close (f : Fib) (fd : ℕ) (hookEnable : Bool)
  | closeGet (f : Fib)
  | cancelAll (f : Fib) (success : Bool)
  | del (f : Fib)
  | closeFd (f : Fib)
  -- `fcntl` with `F_SETFL`, and `setsockopt` with a timeout.
  | setUserNonblock (fd : ℕ) (nonblock : Bool)
  | setTimeout (fd : ℕ) (recv : Bool) (ms : ℕ)
  | epollWait (w : Tid) (ready : List (ℕ × IOManager.Ready))
  | dispatch (w : Tid) (success : Bool)

namespace State

variable {Tid Fib Cb : Type} (s : State Tid Fib Cb)

/-- No descriptor is open, and every fiber is idle. -/
def initial : State Tid Fib Cb :=
  ⟨fun _ => none, 0, fun _ => none, .initial, fun _ => .idle, []⟩

/-- The call of `do_io` the fiber `f` is in. -/
def op (f : Fib) : Option Op := (s.activity f).op

/-- The descriptor a fiber is closing, and where it stands. -/
def closing (f : Fib) : Option (ℕ × ClosePc) :=
  match s.activity f with
  | .closing fd pc => some (fd, pc)
  | _ => none

/-- The new descriptor a fiber is to make known to `FdManager`. -/
def adopting (f : Fib) : Option ℕ :=
  match s.activity f with
  | .adopting fd => some fd
  | _ => none

/-- The kernel opens a socket under a number. -/
@[simps -fullyApplied]
def openSocket (fd : ℕ) : State Tid Fib Cb :=
  { s with socket := Function.update s.socket fd (some s.opened), opened := s.opened + 1 }

/-- Write to `m_datas`. -/
@[simps -fullyApplied]
def setData (fd : ℕ) (ctx : Option FdCtx) : State Tid Fib Cb :=
  { s with datas := Function.update s.datas fd ctx }

/-- The fiber waits in the scheduler's queue. -/
def scheduled [DecidableEq Fib] (f : Fib) : Bool :=
  s.io.scheduled.any fun entry => entry.2.fiber = some f

variable [DecidableEq Fib]

/-- The fiber `f` turns to something else. -/
@[simps -fullyApplied]
def become (f : Fib) (activity : Activity) : State Tid Fib Cb :=
  { s with activity := Function.update s.activity f activity }

/-- Carry out the next step of the `do_io` of `f`. A new descriptor goes to `FdManager`. -/
def advance (f : Fib) (step : Op → Progress) : State Tid Fib Cb :=
  match s.op f with
  | none => s
  | some op =>
    match step op, op.kind with
    | .goOn op, _ => s.become f (.doIo op)
    | .returns (some fd), .accept => s.become f (.adopting fd)
    | .returns _, _ => s.become f .idle

/-- The outcomes of a call into the kernel by the `do_io` of `f`: a number that
is closed is an error, and `accept` gives a free number. -/
def mayAnswer (op : Op) : Outcome → Prop
  | .value n => s.socket op.fd ≠ none ∧ (op.kind = .accept → s.socket n = none)
  | .eintr | .eagain => s.socket op.fd ≠ none
  | .error => True

instance (op : Op) (outcome : Outcome) : Decidable (s.mayAnswer op outcome) := by
  cases outcome <;> (dsimp only [mayAnswer]; infer_instance)

/-- The kernel's side of such a call. -/
def answered (op : Op) (outcome : Outcome) : State Tid Fib Cb :=
  match op.kind, outcome with
  | .accept, .value n => s.openSocket n
  | _, _ => s

/-- `addEvent` for the `do_io` of `f`. -/
def registration (f : Fib) (op : Op) (success : Bool) :
    Except IOManager.Fault (ℤ × IOManager.State Tid Unit Fib Cb) :=
  IOManager.addEvent s.io op.fd op.kind.event () f none success

/-- The result of that call. -/
def registered (f : Fib) (op : Op) (success : Bool) : ℤ :=
  match s.registration f op success with
  | .ok (rt, _) => rt
  | .error _ => -1

/-- The scheduler takes a task of the fiber `f` from its queue. -/
@[simps -fullyApplied]
def take (f : Fib) : State Tid Fib Cb :=
  let scheduled := s.io.scheduled.eraseP fun entry => entry.2.fiber = some f
  { s with io := { s.io with scheduled := scheduled } }

/-- The kernel closes a number. It forgets a registration of the socket by itself. -/
@[simps -fullyApplied]
def closeSocket (fd : ℕ) : State Tid Fib Cb :=
  let kernel := Function.update s.io.kernel fd none
  { s with socket := Function.update s.socket fd none, io := { s.io with kernel := kernel } }

variable [DecidableEq Tid]

/-- An operation of the IOManager. -/
@[simps -fullyApplied]
def perform (a : IOManager.Move Tid Unit Fib Cb) : State Tid Fib Cb :=
  { s with io := IOManager.next s.io a }

end State

variable {Tid Fib Cb : Type} [DecidableEq Tid] [DecidableEq Fib]

/-- The effect of a step. -/
def next (s : State Tid Fib Cb) : Move Tid Fib → State Tid Fib Cb
  | .start f kind fd hookEnable => s.become f (.doIo (Op.start kind fd hookEnable))
  | .get f => s.advance f fun op => op.lookup (s.datas op.fd)
  | .call f outcome =>
    match s.op f with
    | none => s
    | some op => (s.answered op outcome).advance f fun op => op.call outcome
  | .arm f => s.advance f Op.arm
  | .addEvent f success =>
    match s.op f with
    | none => s
    | some op =>
      (s.perform (.addEvent op.fd op.kind.event () f none success)).advance f
        fun op => op.added (s.registered f op success)
  | .fail f => s.advance f fun _ => .returns none
  | .resume f => (s.take f).advance f fun op => .goOn { op with pc := .resumed }
  | .check f => s.advance f Op.check
  | .expire f => s.advance f fun op =>
    .goOn { op with pending := false, extracted := op.extracted + 1 }
  | .onTimer f =>
    match s.op f with
    | none => s
    | some op =>
      let timedOut : List (ℕ × IOManager.Event) :=
        if op.cancelled then [] else [(op.fd, op.kind.event)]
      { s with cancels := s.cancels ++ timedOut }.advance f
        fun op => .goOn { op with cancelled := true, extracted := op.extracted - 1 }
  | .cancelEvent fd event success =>
    { s with cancels := s.cancels.erase (fd, event) }.perform (.cancelEvent fd event success)
  | .socket f fd hookEnable =>
    (s.openSocket fd).become f (if hookEnable then .adopting fd else .idle)
  | .adopt f =>
    match s.adopting f with
    | none => s
    | some fd =>
      let ctx := (s.datas fd).getD (FdCtx.create (s.socket fd).isSome)
      (s.setData fd (some ctx)).become f .idle
  | .close f fd hookEnable => s.become f (.closing fd (if hookEnable then .get else .close))
  | .closeGet f =>
    match s.closing f with
    | none => s
    | some (fd, _) =>
      s.become f (.closing fd (if (s.datas fd).isSome then .cancelAll else .close))
  | .cancelAll f success =>
    match s.closing f with
    | none => s
    | some (fd, _) => (s.perform (.cancelAll fd success)).become f (.closing fd .del)
  | .del f =>
    match s.closing f with
    | none => s
    | some (fd, _) =>
      (s.setData fd none).become f (.closing fd .close)
  | .closeFd f =>
    match s.closing f with
    | none => s
    | some (fd, _) => (s.closeSocket fd).become f .idle
  | .setUserNonblock fd nonblock =>
    s.setData fd ((s.datas fd).map fun ctx => { ctx with userNonblock := nonblock })
  | .setTimeout fd recv ms =>
    s.setData fd ((s.datas fd).map fun ctx => ctx.setTimeout recv ms)
  | .epollWait w ready => s.perform (.epollWait w ready)
  | .dispatch w success => s.perform (.dispatch w success)

/-! ### What the steps do where they are available -/

section Equations

variable {s : State Tid Fib Cb} {f : Fib} {op : Op} {fd : ℕ} {pc : ClosePc}

theorem next_call (inIo : s.op f = some op) (outcome : Outcome) :
    next s (.call f outcome) =
      (s.answered op outcome).advance f fun op => op.call outcome := by
  unfold next
  simp only [inIo]

theorem next_addEvent (inIo : s.op f = some op) (success : Bool) :
    next s (.addEvent f success) =
      (s.perform (.addEvent op.fd op.kind.event () f none success)).advance f
        fun op => op.added (s.registered f op success) := by
  unfold next
  simp only [inIo]

theorem next_onTimer (inIo : s.op f = some op) :
    ∃ cancels, next s (.onTimer f) = { s with cancels }.advance f
      fun op => .goOn { op with cancelled := true, extracted := op.extracted - 1 } := by
  unfold next
  simp only [inIo]
  exact ⟨_, rfl⟩

theorem next_adopt (found : s.adopting f = some fd) :
    next s (.adopt f) =
      (s.setData fd (some ((s.datas fd).getD (FdCtx.create (s.socket fd).isSome)))).become f
        .idle := by
  unfold next
  simp only [found]

theorem next_closeGet (found : s.closing f = some (fd, pc)) :
    next s (.closeGet f) =
      s.become f (.closing fd (if (s.datas fd).isSome then .cancelAll else .close)) := by
  unfold next
  simp only [found]

theorem next_cancelAll (found : s.closing f = some (fd, pc)) (success : Bool) :
    next s (.cancelAll f success) =
      (s.perform (.cancelAll fd success)).become f (.closing fd .del) := by
  unfold next
  simp only [found]

theorem next_del (found : s.closing f = some (fd, pc)) :
    next s (.del f) = (s.setData fd none).become f (.closing fd .close) := by
  unfold next
  simp only [found]

theorem next_closeFd (found : s.closing f = some (fd, pc)) :
    next s (.closeFd f) = (s.closeSocket fd).become f .idle := by
  unfold next
  simp only [found]

end Equations

/-- The steps of all fibers, of the timer callbacks and of the idle workers. -/
def hookMachine : Machine (State Tid Fib Cb) (Move Tid Fib) where
  init s := s = State.initial
  enabled s a := s.io.fault = none ∧
    match a with
    | .start f _ _ _ | .close f _ _ => s.activity f = .idle
    | .get f => ∃ op ∈ s.op f, op.pc = .get
    | .call f outcome => ∃ op ∈ s.op f, (op.pc = .pass ∨ op.pc = .retry) ∧ s.mayAnswer op outcome
    | .arm f => ∃ op ∈ s.op f, op.pc = .arm
    | .addEvent f success =>
      ∃ op ∈ s.op f, op.pc = .addEvent ∧ (success = true → s.socket op.fd ≠ none)
    | .fail f => ∃ op ∈ s.op f, op.pc = .fail
    | .resume f => ∃ op ∈ s.op f, op.pc = .parked ∧ s.scheduled f = true
    | .check f => ∃ op ∈ s.op f, op.pc = .resumed
    | .expire f => ∃ op ∈ s.op f, op.pending = true
    | .onTimer f => ∃ op ∈ s.op f, 0 < op.extracted
    | .cancelEvent fd event _ => (fd, event) ∈ s.cancels
    | .socket f fd _ => s.activity f = .idle ∧ s.socket fd = none
    | .adopt f => (s.adopting f).isSome = true
    | .closeGet f => ∃ at' ∈ s.closing f, at'.2 = .get
    | .cancelAll f _ => ∃ at' ∈ s.closing f, at'.2 = .cancelAll
    | .del f => ∃ at' ∈ s.closing f, at'.2 = .del
    | .closeFd f => ∃ at' ∈ s.closing f, at'.2 = .close
    | .setUserNonblock fd _ => ∃ ctx ∈ s.datas fd, ctx.isClosed = false ∧ ctx.isSocket = true
    | .setTimeout fd _ _ => ∃ _ctx ∈ s.datas fd, True
    | .epollWait w ready => s.io.batch w = [] ∧ s.io.mayReport ready
    | .dispatch w _ => s.io.batch w ≠ []
  next := next

instance (s : State Tid Fib Cb) (a : Move Tid Fib) : Decidable (hookMachine.enabled s a) := by
  cases a <;> (dsimp only [hookMachine]; infer_instance)

end CoroutineService.Hook
