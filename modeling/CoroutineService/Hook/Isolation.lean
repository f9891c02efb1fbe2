import CoroutineService.Hook.Machine
import Mathlib.Data.Fintype.Basic

/-!
# Operations stay on their socket

A fiber parked in `do_io` is woken by `close` like by any other event. When it runs
again it looks at `tinfo->cancelled` alone, and goes back to `retry` on a number that
may denote another socket by then. Only operations that have timed out by then are
safe from this.

## Main definitions

* `History`: the kernel calls and late results of a run
* `Confined`: every call is made on the socket of its operation, and operations whose
  socket is closed fail
* `Undisturbed`: a number is closed only when its operations have timed out

## Main results

* `confined_of_reaches`: operations are confined in undisturbed runs
* `crossed_over`: a parked `recv` goes on to read from a new connection
-/

set_option autoImplicit false

namespace CoroutineService.Hook

open CoroutineService.Transition CoroutineService.Scheduler

variable {Tid Fib Cb : Type}

/-! ### The kernel -/

/-- A socket has one number while it is open and none afterwards. -/
structure Kernel (s : State Tid Fib Cb) (closed : List ℕ) : Prop where
  known : ∀ {n x}, s.socket n = some x → x < s.opened
  single : ∀ {n m x}, s.socket n = some x → s.socket m = some x → n = m
  gone : ∀ {x}, x ∈ closed → x < s.opened ∧ ∀ n, s.socket n ≠ some x

namespace Kernel

variable {s s' : State Tid Fib Cb} {closed : List ℕ} {fd : ℕ}

theorem congr (kernel : Kernel s closed) (sockets : s'.socket = s.socket)
    (opened : s'.opened = s.opened) : Kernel s' closed := by
  obtain ⟨known, single, gone⟩ := kernel
  constructor <;> simpa only [sockets, opened]

theorem openSocket (kernel : Kernel s closed) : Kernel (s.openSocket fd) closed := by
  have cases' : ∀ {n x}, (s.openSocket fd).socket n = some x →
      n = fd ∧ x = s.opened ∨ n ≠ fd ∧ s.socket n = some x := by
    intro n x denotes
    by_cases here : n = fd
    · left
      subst here
      simp only [State.openSocket_socket, Function.update_self, Option.some_inj] at denotes
      exact ⟨rfl, denotes.symm⟩
    · right
      rw [State.openSocket_socket, Function.update_of_ne here] at denotes
      exact ⟨here, denotes⟩
  constructor
  · intro n x denotes
    show x < s.opened + 1
    rcases cases' denotes with ⟨-, rfl⟩ | ⟨-, older⟩
    · exact Nat.lt_succ_self _
    · exact Nat.lt_succ_of_lt (kernel.known older)
  · intro n m x left right
    rcases cases' left with ⟨rfl, rfl⟩ | ⟨-, older⟩ <;>
      rcases cases' right with ⟨rfl, fresh⟩ | ⟨-, older'⟩
    · rfl
    · exact absurd (kernel.known older') (lt_irrefl _)
    · exact absurd (fresh ▸ kernel.known older) (lt_irrefl _)
    · exact kernel.single older older'
  · intro x mem
    obtain ⟨known, nowhere⟩ := kernel.gone mem
    refine ⟨Nat.lt_succ_of_lt known, fun n denotes => ?_⟩
    rcases cases' denotes with ⟨-, rfl⟩ | ⟨-, older⟩
    · exact lt_irrefl _ known
    · exact nowhere n older

theorem closeSocket (kernel : Kernel s closed) :
    Kernel (s.closeSocket fd) ((s.socket fd).toList ++ closed) := by
  have still : ∀ {n x}, (s.closeSocket fd).socket n = some x → n ≠ fd ∧ s.socket n = some x := by
    intro n x denotes
    by_cases here : n = fd
    · simp [here] at denotes
    · rw [State.closeSocket_socket, Function.update_of_ne here] at denotes
      exact ⟨here, denotes⟩
  constructor
  · intro n x denotes
    exact kernel.known (still denotes).2
  · intro n m x left right
    exact kernel.single (still left).2 (still right).2
  · intro x mem
    rcases List.mem_append.mp mem with now | before
    · have denoted : s.socket fd = some x := Option.mem_toList.mp now
      refine ⟨kernel.known denoted, fun n denotes => ?_⟩
      exact (still denotes).1 (kernel.single (still denotes).2 denoted)
    · obtain ⟨known, nowhere⟩ := kernel.gone before
      exact ⟨known, fun n denotes => nowhere n (still denotes).2⟩

end Kernel

/-! ### What is observed -/

/-- A call into the kernel: the socket its operation was started on, the socket it
is made on, and whether the former is closed. -/
structure Call where
  home : Option ℕ
  on : Option ℕ
  late : Bool
  deriving DecidableEq, Repr

/-- The socket each operation was started on, the sockets closed so far, the calls
into the kernel, and the results of operations whose socket had been closed. -/
structure History (Fib : Type) where
  home : Fib → Option ℕ
  closed : List ℕ
  calls : List Call
  late : List (Option ℕ)

/-- Nothing has happened. -/
def History.empty : History Fib := ⟨fun _ => none, [], [], []⟩

/-- The socket that the operation of `f` was started on is closed. -/
def History.isLate (h : History Fib) (f : Fib) : Bool :=
  match h.home f with
  | none => false
  | some x => x ∈ h.closed

theorem History.isLate_iff {h : History Fib} {f : Fib} :
    h.isLate f = true ↔ ∃ x ∈ h.closed, h.home f = some x := by
  unfold isLate
  cases h.home f <;> simp

/-- How the `do_io` of which fiber goes on, for the steps with which it may return. -/
def progress (s : State Tid Fib Cb) : Move Tid Fib → Option (Fib × Progress)
  | .get f => (s.op f).map fun op => (f, op.lookup (s.datas op.fd))
  | .call f outcome => (s.op f).map fun op => (f, op.call outcome)
  | .fail f => (s.op f).map fun _ => (f, .returns none)
  | .check f => (s.op f).map fun op => (f, op.check)
  | _ => none

theorem exists_op {s : State Tid Fib Cb} {a : Move Tid Fib} {f : Fib} {step : Progress}
    (steps : progress s a = some (f, step)) :
    ∃ op, s.op f = some op := by
  cases a with
  | get g | call g outcome | fail g | check g =>
    obtain ⟨op, inIo, same⟩ := Option.map_eq_some_iff.mp steps
    cases same
    exact ⟨op, inIo⟩
  | _ => cases steps

variable [DecidableEq Fib]

/-- What a step leaves in the history, apart from results. `addEvent` counts as a
call into the kernel, for it passes the number to `epoll_ctl`. -/
def note (s : State Tid Fib Cb) (a : Move Tid Fib) (h : History Fib) : History Fib :=
  match a with
  | .start f _ fd _ => { h with home := Function.update h.home f (s.socket fd) }
  | .call f _ | .addEvent f _ =>
    match s.op f with
    | none => h
    | some op => { h with calls := ⟨h.home f, s.socket op.fd, h.isLate f⟩ :: h.calls }
  | .closeFd f =>
    match s.closing f with
    | none => h
    | some (fd, _) => { h with closed := (s.socket fd).toList ++ h.closed }
  | _ => h

/-- The history goes on with a step. -/
def record (s : State Tid Fib Cb) (a : Move Tid Fib) (h : History Fib) : History Fib :=
  match progress s a with
  | some (f, .returns result) =>
    if h.isLate f then { note s a h with late := result :: h.late } else note s a h
  | _ => note s a h

/-- Every call into the kernel is made on the socket that the descriptor denoted when
the operation was started, and before it is closed. Operations whose socket is closed
return an error, or else have been handed to the scheduler if they are parked. -/
structure Confined (s : State Tid Fib Cb) (h : History Fib) : Prop where
  calls : ∀ call ∈ h.calls, ∀ x, call.home = some x → call.on = some x ∧ call.late = false
  late : ∀ result ∈ h.late, result = none
  woken : ∀ f op, s.op f = some op → h.isLate f = true → op.pc = .parked → s.scheduled f = true

/-- The operation will make no further call: it has failed, or it has timed out and is
about to find that out. -/
def Op.Settled (op : Op) (scheduled : Bool) : Prop :=
  op.pc = .fail ∨ op.cancelled = true ∧ (op.pc = .resumed ∨ op.pc = .parked ∧ scheduled = true)

/-- When a number is closed, all operations on it are settled. -/
def Undisturbed (s : State Tid Fib Cb) : Move Tid Fib → Prop
  | .closeFd f => ∀ at' ∈ s.closing f, ∀ g, ∀ op ∈ s.op g, op.fd = at'.1 →
    op.Settled (s.scheduled g)
  | _ => True

/-! ### The operations in flight -/

section Flight

variable {s s' s₁ : State Tid Fib Cb} {f g : Fib} {op op' : Op} {step : Op → Progress}

theorem op_become {activity : Activity} :
    (s.become f activity).op g = if g = f then activity.op else s.op g := by
  unfold State.op
  rw [State.become_activity]
  by_cases here : g = f
  · rw [if_pos here, here, Function.update_self]
  · rw [if_neg here, Function.update_of_ne here]

/-- What the fibers are in after a step of `f`. -/
theorem op_advance (after : (s.advance f step).op g = some op') :
    g ≠ f ∧ s.op g = some op' ∨ g = f ∧ ∃ op, s.op f = some op ∧ step op = .goOn op' := by
  unfold State.advance at after
  cases inIo : s.op f with
  | none =>
    left
    refine ⟨?_, by simpa only [inIo] using after⟩
    rintro rfl
    simp [inIo] at after
  | some op =>
    simp only [inIo] at after
    by_cases here : g = f
    · right
      refine ⟨here, op, rfl, ?_⟩
      split at after <;> rw [op_become, if_pos here] at after
      case h_1 progress goes => rw [goes, Option.some_inj.mp after]
      all_goals cases after
    · left
      refine ⟨here, ?_⟩
      split at after <;> rwa [op_become, if_neg here] at after

@[simp]
theorem advance_socket : (s.advance f step).socket = s.socket := by
  unfold State.advance
  split
  · rfl
  · split <;> rfl

@[simp]
theorem advance_opened : (s.advance f step).opened = s.opened := by
  unfold State.advance
  split
  · rfl
  · split <;> rfl

@[simp]
theorem advance_io : (s.advance f step).io = s.io := by
  unfold State.advance
  split
  · rfl
  · split <;> rfl

/-- Every operation in flight was in flight before, on the same number, and is settled
if it was settled. -/
def Keeps (s s' : State Tid Fib Cb) : Prop :=
  ∀ f op', s'.op f = some op' → ∃ op, s.op f = some op ∧ op'.fd = op.fd ∧
    (op.Settled (s.scheduled f) → op'.Settled (s'.scheduled f))

theorem Op.Settled.mono {before after : Bool} (settled : op.Settled before)
    (stays : before = true → after = true) : op.Settled after :=
  settled.imp_right fun ⟨cancelled, place⟩ => ⟨cancelled, place.imp_right fun ⟨parked, waits⟩ =>
    ⟨parked, stays waits⟩⟩

theorem keeps_of_activity (same : s'.activity = s.activity)
    (stays : ∀ f, s.scheduled f = true → s'.scheduled f = true) : Keeps s s' := by
  intro f op' inIo
  refine ⟨op', ?_, rfl, fun settled => settled.mono (stays f)⟩
  rwa [State.op, ← same]

/-- A fiber turns to something that is not `do_io`. -/
theorem Keeps.become {activity : Activity} (keeps : Keeps s s') (other : activity.op = none) :
    Keeps s (s'.become f activity) := by
  intro g op' inIo
  rw [op_become] at inIo
  by_cases here : g = f
  · rw [if_pos here, other] at inIo
    cases inIo
  · rw [if_neg here] at inIo
    exact keeps g op' inIo

/-- One operation makes a step, from a state in which the others are where they were. -/
theorem keeps_advance (same : s₁.activity = s.activity)
    (stays : ∀ g, g ≠ f → s.scheduled g = true → s₁.scheduled g = true)
    (goes : ∀ op op', s.op f = some op → step op = .goOn op' → op'.fd = op.fd ∧
      (op.Settled (s.scheduled f) → op'.Settled (s₁.scheduled f))) :
    Keeps s (s₁.advance f step) := by
  intro g op' inIo
  have ops : ∀ g, s₁.op g = s.op g := fun g => by rw [State.op, State.op, same]
  have waits : ∀ g, (s₁.advance f step).scheduled g = s₁.scheduled g := fun g => by
    rw [State.scheduled, advance_io, State.scheduled]
  rcases op_advance inIo with ⟨other, inIo⟩ | ⟨rfl, op, inIo, onward⟩
  · refine ⟨op', ops g ▸ inIo, rfl, fun settled => ?_⟩
    rw [waits]
    exact settled.mono (stays g other)
  · obtain ⟨number, settles⟩ := goes op op' (ops g ▸ inIo) onward
    refine ⟨op, ops g ▸ inIo, number, fun settled => ?_⟩
    rw [waits]
    exact settles settled

theorem scheduled_take (other : g ≠ f) (waits : s.scheduled g = true) :
    (s.take f).scheduled g = true := by
  obtain ⟨entry, mem, ours⟩ := List.any_eq_true.mp waits
  refine List.any_eq_true.mpr ⟨entry, (List.mem_eraseP_of_neg ?_).mpr mem, ours⟩
  have owner : entry.2.fiber = some g := of_decide_eq_true ours
  simpa [owner] using other

/-- Only an operation that has failed, is parked or has been resumed may be settled. -/
theorem Op.not_settled {scheduled : Bool} (busy : op.pc ≠ .fail) (runs : op.pc ≠ .resumed)
    (awake : op.pc ≠ .parked) : ¬ op.Settled scheduled := by
  rintro (failed | ⟨-, resumed | ⟨parked, -⟩⟩)
  · exact busy failed
  · exact runs resumed
  · exact awake parked

theorem Op.fd_lookup {ctx : Option FdCtx} (onward : op.lookup ctx = .goOn op') :
    op'.fd = op.fd := by
  unfold Op.lookup at onward
  split at onward
  · cases onward
    rfl
  · split at onward
    · cases onward
    · split at onward <;> cases onward <;> rfl

theorem Op.fd_call {outcome : Outcome} (onward : op.call outcome = .goOn op') :
    op'.fd = op.fd := by
  unfold Op.call at onward
  split at onward
  · cases onward
  · split at onward <;> cases onward <;> rfl

/-- A step from a place where no operation is settled. -/
theorem keeps_busy (same : s₁.activity = s.activity)
    (stays : ∀ g, s.scheduled g = true → s₁.scheduled g = true) (inIo : s.op f = some op)
    (busy : op.pc ≠ .fail ∧ op.pc ≠ .resumed ∧ op.pc ≠ .parked)
    (number : ∀ op', step op = .goOn op' → op'.fd = op.fd) : Keeps s (s₁.advance f step) := by
  refine keeps_advance same (fun g _ => stays g) fun op₀ op' inIo₀ onward => ?_
  obtain rfl : op₀ = op := Option.some_inj.mp (inIo₀.symm.trans inIo)
  exact ⟨number op' onward, fun settled => absurd settled
    (Op.not_settled busy.1 busy.2.1 busy.2.2)⟩

theorem keeps_self : Keeps s s := keeps_of_activity rfl fun _ waits => waits

/-- An operation in flight has its number still denote the socket it was started on,
or else is settled. -/
def Aimed (s : State Tid Fib Cb) (home : Fib → Option ℕ) : Prop :=
  ∀ f op, s.op f = some op → ∀ x, home f = some x →
    s.socket op.fd = some x ∨ op.Settled (s.scheduled f)

variable {home : Fib → Option ℕ}

theorem Aimed.keeps (aimed : Aimed s home) (keeps : Keeps s s')
    (stays : ∀ n x, s.socket n = some x → s'.socket n = some x) : Aimed s' home := by
  intro f op' inIo x started
  obtain ⟨op, before, number, settles⟩ := keeps f op' inIo
  rw [number]
  exact (aimed f op before x started).imp (stays op.fd x) settles

theorem Aimed.start (aimed : Aimed s home) {kind : Kind} {fd : ℕ} {hookEnable : Bool} :
    Aimed (s.become f (.doIo (Op.start kind fd hookEnable)))
      (Function.update home f (s.socket fd)) := by
  intro g op inIo x started
  rw [op_become] at inIo
  by_cases here : g = f
  · left
    subst here
    rw [if_pos rfl] at inIo
    rw [Function.update_self] at started
    obtain rfl : Op.start kind fd hookEnable = op := Option.some_inj.mp inIo
    exact started
  · rw [if_neg here] at inIo
    rw [Function.update_of_ne here] at started
    exact aimed g op inIo x started

/-- Closing a number hits no operation that is still to use it. -/
theorem Aimed.closeFd (aimed : Aimed s home) {fd : ℕ}
    (closes : s.closing f = some (fd, .close)) (undisturbed : Undisturbed s (.closeFd f)) :
    Aimed ((s.closeSocket fd).become f .idle) home := by
  intro g op inIo x started
  rw [op_become] at inIo
  by_cases here : g = f
  · rw [if_pos here] at inIo
    cases inIo
  · rw [if_neg here] at inIo
    have inIo : s.op g = some op := inIo
    by_cases hit : op.fd = fd
    · right
      exact undisturbed (fd, .close) closes g op inIo hit
    · refine (aimed g op inIo x started).imp_left fun denotes => ?_
      rw [State.become_socket, State.closeSocket_socket, Function.update_of_ne hit]
      exact denotes

/-! ### The steps -/

variable [DecidableEq Tid]

theorem scheduled_perform {a : IOManager.Move Tid Unit Fib Cb} (waits : s.scheduled f = true) :
    (s.perform a).scheduled f = true := by
  obtain ⟨entry, mem, ours⟩ := List.any_eq_true.mp waits
  exact List.any_eq_true.mpr
    ⟨entry, (IOManager.scheduled_prefix_next s.io a).subset mem, ours⟩

theorem keeps_call {op : Op} (inIo : s.op f = some op) (pc : op.pc = .pass ∨ op.pc = .retry)
    (outcome : Outcome) : Keeps s (next s (.call f outcome)) := by
  rw [next_call inIo]
  have same : (s.answered op outcome).activity = s.activity := by
    unfold State.answered
    split <;> rfl
  have queue : (s.answered op outcome).io = s.io := by
    unfold State.answered
    split <;> rfl
  refine keeps_busy same (fun g waits => ?_) inIo ?_ fun op' => Op.fd_call
  · rwa [State.scheduled, queue]
  · rcases pc with pc | pc <;> simp [pc]

/-- A fiber that is resumed has been timed out, or is not settled. -/
theorem keeps_resume {op : Op} (inIo : s.op f = some op) (parked : op.pc = .parked) :
    Keeps s (next s (.resume f)) := by
  refine keeps_advance rfl (fun g other => scheduled_take other) fun op₀ op' inIo₀ goes => ?_
  obtain rfl : op₀ = op := Option.some_inj.mp (inIo₀.symm.trans inIo)
  cases goes
  refine ⟨rfl, fun settled => .inr ⟨?_, .inl rfl⟩⟩
  rcases settled with failed | ⟨cancelled, -⟩
  · simp [parked] at failed
  · exact cancelled

theorem keeps_check {op : Op} (inIo : s.op f = some op) (resumed : op.pc = .resumed) :
    Keeps s (next s (.check f)) := by
  refine keeps_advance rfl (fun _ _ waits => waits) fun op₀ op' inIo₀ goes => ?_
  obtain rfl : op₀ = op := Option.some_inj.mp (inIo₀.symm.trans inIo)
  unfold Op.check at goes
  split at goes
  case isTrue => cases goes
  case isFalse runs =>
    cases goes
    refine ⟨rfl, fun settled => ?_⟩
    rcases settled with failed | ⟨cancelled, -⟩
    · simp [resumed] at failed
    · exact absurd cancelled runs

/-- A step starts an operation, or keeps those in flight. -/
theorem keeps_next {a : Move Tid Fib} (available : hookMachine.enabled s a)
    (onward : ∀ f kind fd hookEnable, a ≠ .start f kind fd hookEnable) : Keeps s (next s a) := by
  obtain ⟨-, available⟩ := available
  cases a with
  | start f kind fd hookEnable => exact absurd rfl (onward f kind fd hookEnable)
  | get f =>
    obtain ⟨op, inIo, pc⟩ := available
    exact keeps_busy rfl (fun _ waits => waits) inIo (by simp [pc]) fun op' => Op.fd_lookup
  | call f outcome =>
    obtain ⟨op, inIo, pc, -⟩ := available
    exact keeps_call inIo pc outcome
  | arm f =>
    obtain ⟨op, inIo, pc⟩ := available
    refine keeps_busy rfl (fun _ waits => waits) inIo (by simp [pc]) fun op' goes => ?_
    cases goes
    rfl
  | addEvent f success =>
    obtain ⟨op, inIo, pc, -⟩ := available
    rw [next_addEvent inIo]
    refine keeps_busy rfl (fun _ => scheduled_perform) inIo (by simp [pc]) fun op' goes => ?_
    cases goes
    rfl
  | fail f => exact keeps_advance rfl (fun _ _ waits => waits) fun _ _ _ goes => nomatch goes
  | resume f =>
    obtain ⟨op, inIo, parked, -⟩ := available
    exact keeps_resume inIo parked
  | check f =>
    obtain ⟨op, inIo, resumed⟩ := available
    exact keeps_check inIo resumed
  | expire f =>
    refine keeps_advance rfl (fun _ _ waits => waits) fun op op' _ goes => ?_
    cases goes
    exact ⟨rfl, fun settled => settled⟩
  | onTimer f =>
    obtain ⟨op, inIo, -⟩ := available
    obtain ⟨cancels, result⟩ := next_onTimer inIo
    rw [result]
    refine keeps_advance rfl (fun _ _ waits => waits) fun op op' _ goes => ?_
    cases goes
    exact ⟨rfl, fun settled => settled.imp_right fun ⟨_, place⟩ => ⟨rfl, place⟩⟩
  | cancelEvent fd event success => exact keeps_of_activity rfl fun _ => scheduled_perform
  | socket f fd hookEnable =>
    have opened : Keeps s (s.openSocket fd) := keeps_of_activity rfl fun _ waits => waits
    exact opened.become (by cases hookEnable <;> rfl)
  | adopt f =>
    obtain ⟨fd, found⟩ := Option.isSome_iff_exists.mp available
    rw [next_adopt found]
    have known : Keeps s (s.setData fd (some ((s.datas fd).getD
      (FdCtx.create (s.socket fd).isSome)))) := keeps_of_activity rfl fun _ waits => waits
    exact known.become rfl
  | close f fd hookEnable => exact keeps_self.become rfl
  | closeGet f =>
    obtain ⟨⟨fd, pc⟩, found, -⟩ := available
    rw [next_closeGet found]
    exact keeps_self.become rfl
  | cancelAll f success =>
    obtain ⟨⟨fd, pc⟩, found, -⟩ := available
    rw [next_cancelAll found]
    have cancelled : Keeps s (s.perform (.cancelAll fd success)) :=
      keeps_of_activity rfl fun _ => scheduled_perform
    exact cancelled.become rfl
  | del f =>
    obtain ⟨⟨fd, pc⟩, found, -⟩ := available
    rw [next_del found]
    have forgotten : Keeps s (s.setData fd none) := keeps_of_activity rfl fun _ waits => waits
    exact forgotten.become rfl
  | closeFd f =>
    obtain ⟨⟨fd, pc⟩, found, -⟩ := available
    rw [next_closeFd found]
    have closed : Keeps s (s.closeSocket fd) := keeps_of_activity rfl fun _ waits => waits
    exact closed.become rfl
  | setUserNonblock fd nonblock => exact keeps_of_activity rfl fun _ waits => waits
  | setTimeout fd recv ms => exact keeps_of_activity rfl fun _ waits => waits
  | epollWait w ready => exact keeps_of_activity rfl fun _ => scheduled_perform
  | dispatch w success => exact keeps_of_activity rfl fun _ => scheduled_perform

/-- What a step does to the kernel's map: nothing, or it opens a socket under a free
number, or it is the `close_f` of a number. -/
theorem kernel_cases {a : Move Tid Fib} (available : hookMachine.enabled s a) :
    ((next s a).socket = s.socket ∧ (next s a).opened = s.opened ∧ ∀ f, a ≠ .closeFd f) ∨
    (∃ fd, s.socket fd = none ∧ (next s a).socket = (s.openSocket fd).socket ∧
      (next s a).opened = (s.openSocket fd).opened ∧ ∀ f, a ≠ .closeFd f) ∨
    ∃ f fd, a = .closeFd f ∧ s.closing f = some (fd, .close) ∧
      next s a = (s.closeSocket fd).become f .idle := by
  obtain ⟨-, available⟩ := available
  cases a with
  | call f outcome =>
    obtain ⟨op, inIo, -, answers⟩ := available
    rw [next_call inIo, advance_socket, advance_opened]
    -- Only an `accept` that succeeds opens a socket, under a number that was free.
    by_cases accepts : ∃ n, op.kind = .accept ∧ outcome = .value n
    · right
      left
      obtain ⟨n, accepts, rfl⟩ := accepts
      have free : s.socket n = none := answers.2 accepts
      have opens : s.answered op (.value n) = s.openSocket n := by
        unfold State.answered
        rw [accepts]
      exact ⟨n, free, by rw [opens], by rw [opens], by rintro _ ⟨⟩⟩
    · left
      have stays : s.answered op outcome = s := by
        unfold State.answered
        split
        case h_1 n kind => exact absurd ⟨n, kind, rfl⟩ accepts
        case h_2 => rfl
      rw [stays]
      exact ⟨rfl, rfl, by rintro _ ⟨⟩⟩
  | addEvent f success =>
    left
    obtain ⟨op, inIo, -⟩ := available
    rw [next_addEvent inIo, advance_socket, advance_opened]
    exact ⟨rfl, rfl, by rintro _ ⟨⟩⟩
  | onTimer f =>
    left
    obtain ⟨op, inIo, -⟩ := available
    obtain ⟨cancels, result⟩ := next_onTimer inIo
    rw [result, advance_socket, advance_opened]
    exact ⟨rfl, rfl, by rintro _ ⟨⟩⟩
  | socket f fd hookEnable => exact .inr (.inl ⟨fd, available.2, rfl, rfl, by rintro _ ⟨⟩⟩)
  | adopt f =>
    left
    obtain ⟨fd, found⟩ := Option.isSome_iff_exists.mp available
    rw [next_adopt found]
    exact ⟨rfl, rfl, by rintro _ ⟨⟩⟩
  | closeFd f =>
    right
    right
    obtain ⟨⟨fd, pc⟩, found, rfl⟩ := available
    exact ⟨f, fd, rfl, found, next_closeFd found⟩
  | closeGet f =>
    left
    obtain ⟨⟨fd, pc⟩, found, -⟩ := available
    rw [next_closeGet found]
    exact ⟨rfl, rfl, by rintro _ ⟨⟩⟩
  | cancelAll f success =>
    left
    obtain ⟨⟨fd, pc⟩, found, -⟩ := available
    rw [next_cancelAll found]
    exact ⟨rfl, rfl, by rintro _ ⟨⟩⟩
  | del f =>
    left
    obtain ⟨⟨fd, pc⟩, found, -⟩ := available
    rw [next_del found]
    exact ⟨rfl, rfl, by rintro _ ⟨⟩⟩
  | get f | arm f | fail f | resume f | check f | expire f =>
    exact .inl ⟨by simp [next], by simp [next], by rintro _ ⟨⟩⟩
  | start f kind fd hookEnable | cancelEvent fd event success | close f fd hookEnable
  | setUserNonblock fd nonblock | setTimeout fd recv ms | epollWait w ready
  | dispatch w success => exact .inl ⟨rfl, rfl, by rintro _ ⟨⟩⟩

end Flight

/-! ### The invariant -/

/-- The kernel, the operations in flight and the history so far agree. -/
structure Isolated (s : State Tid Fib Cb) (h : History Fib) : Prop where
  kernel : Kernel s h.closed
  aimed : Aimed s h.home
  calls : ∀ call ∈ h.calls, ∀ x, call.home = some x → call.on = some x ∧ call.late = false
  late : ∀ result ∈ h.late, result = none

section Step

variable {s : State Tid Fib Cb} {h : History Fib} {a : Move Tid Fib} {f : Fib} {op : Op}

/-- Results are recorded apart from everything else. -/
theorem record_eq : record s a h = { note s a h with late := (record s a h).late } := by
  unfold record
  split
  · split <;> rfl
  · rfl

theorem record_home : (record s a h).home = (note s a h).home := by rw [record_eq]

theorem record_closed : (record s a h).closed = (note s a h).closed := by rw [record_eq]

theorem record_calls : (record s a h).calls = (note s a h).calls := by rw [record_eq]

theorem note_late : (note s a h).late = h.late := by
  cases a with
  | call f outcome => simp only [note]; split <;> rfl
  | addEvent f success => simp only [note]; split <;> rfl
  | closeFd f => simp only [note]; split <;> rfl
  | _ => rfl

theorem note_home (onward : ∀ f kind fd hookEnable, a ≠ .start f kind fd hookEnable) :
    (note s a h).home = h.home := by
  cases a with
  | start f kind fd hookEnable => exact absurd rfl (onward f kind fd hookEnable)
  | call f outcome => simp only [note]; split <;> rfl
  | addEvent f success => simp only [note]; split <;> rfl
  | closeFd f => simp only [note]; split <;> rfl
  | _ => rfl

theorem note_closed (open' : ∀ f, a ≠ .closeFd f) : (note s a h).closed = h.closed := by
  cases a with
  | call f outcome => simp only [note]; split <;> rfl
  | addEvent f success => simp only [note]; split <;> rfl
  | closeFd f => exact absurd rfl (open' f)
  | _ => rfl

namespace Isolated

/-- An operation whose socket is closed is settled. -/
theorem settled (isolated : Isolated s h) (inIo : s.op f = some op) (late : h.isLate f = true) :
    op.Settled (s.scheduled f) := by
  obtain ⟨x, mem, started⟩ := History.isLate_iff.mp late
  refine (isolated.aimed f op inIo x started).resolve_left fun denotes => ?_
  exact (isolated.kernel.gone mem).2 op.fd denotes

variable [DecidableEq Tid]

/-- The new call, if any, is made on the socket of its operation. -/
theorem calls_next (isolated : Isolated s h) (available : hookMachine.enabled s a) :
    ∀ call ∈ (note s a h).calls, ∀ x, call.home = some x →
      call.on = some x ∧ call.late = false := by
  -- An operation that is about to make a call is not settled, so its number still denotes.
  have made : ∀ f op, s.op f = some op → op.pc ≠ .fail → op.pc ≠ .resumed → op.pc ≠ .parked →
      ∀ call ∈ (⟨h.home f, s.socket op.fd, h.isLate f⟩ :: h.calls : List Call), ∀ x,
        call.home = some x → call.on = some x ∧ call.late = false := by
    intro f op inIo busy runs awake call mem x started
    rcases List.mem_cons.mp mem with rfl | earlier
    · have unsettled : ¬ op.Settled (s.scheduled f) := Op.not_settled busy runs awake
      refine ⟨(isolated.aimed f op inIo x started).resolve_right unsettled, ?_⟩
      exact Bool.eq_false_iff.mpr fun late => unsettled (isolated.settled inIo late)
    · exact isolated.calls call earlier x started
  obtain ⟨-, available⟩ := available
  cases a with
  | call f outcome =>
    obtain ⟨op, inIo, pc, -⟩ := available
    have inIo : s.op f = some op := inIo
    simp only [note, inIo]
    rcases pc with pc | pc <;> exact made f op inIo (by simp [pc]) (by simp [pc]) (by simp [pc])
  | addEvent f success =>
    obtain ⟨op, inIo, pc, -⟩ := available
    have inIo : s.op f = some op := inIo
    simp only [note, inIo]
    exact made f op inIo (by simp [pc]) (by simp [pc]) (by simp [pc])
  | closeFd f =>
    simp only [note]
    split <;> exact isolated.calls
  | _ => exact isolated.calls

/-- An operation that is settled returns `-1`. -/
theorem returns (available : hookMachine.enabled s a) {result : Option ℕ}
    (ends : progress s a = some (f, .returns result)) (inIo : s.op f = some op)
    (settled : op.Settled (s.scheduled f)) : result = none := by
  obtain ⟨-, available⟩ := available
  cases a with
  | get g =>
    obtain ⟨op', inIo', pc⟩ := available
    have inIo' : s.op g = some op' := inIo'
    simp only [progress, inIo', Option.map_some, Option.some_inj, Prod.mk.injEq] at ends
    obtain ⟨rfl, -⟩ := ends
    obtain rfl : op' = op := Option.some_inj.mp (inIo'.symm.trans inIo)
    exact absurd settled (Op.not_settled (by simp [pc]) (by simp [pc]) (by simp [pc]))
  | call g outcome =>
    obtain ⟨op', inIo', pc, -⟩ := available
    have inIo' : s.op g = some op' := inIo'
    simp only [progress, inIo', Option.map_some, Option.some_inj, Prod.mk.injEq] at ends
    obtain ⟨rfl, -⟩ := ends
    obtain rfl : op' = op := Option.some_inj.mp (inIo'.symm.trans inIo)
    rcases pc with pc | pc <;>
      exact absurd settled (Op.not_settled (by simp [pc]) (by simp [pc]) (by simp [pc]))
  | fail g =>
    cases inIo' : s.op g <;> simp [progress, inIo'] at ends
    exact ends.2.symm
  | check g =>
    cases inIo' : s.op g <;> simp [progress, inIo', Op.check] at ends
    obtain ⟨-, ends⟩ := ends
    split at ends <;> cases ends
    rfl
  | _ => cases ends

theorem late_next (isolated : Isolated s h) (available : hookMachine.enabled s a) :
    ∀ result ∈ (record s a h).late, result = none := by
  have before : ∀ result ∈ (note s a h).late, result = none := by
    rw [note_late]
    exact isolated.late
  unfold record
  split
  case h_1 f result ends =>
    split
    case isTrue late =>
      intro result' mem
      rcases List.mem_cons.mp mem with rfl | earlier
      · obtain ⟨op, inIo⟩ := exists_op ends
        exact returns available ends inIo (isolated.settled inIo late)
      · exact isolated.late result' earlier
    case isFalse => exact before
  case h_2 => exact before

/-- One step of an undisturbed run. -/
theorem next (isolated : Isolated s h) (available : hookMachine.enabled s a)
    (undisturbed : Undisturbed s a) : Isolated (hookMachine.next s a) (record s a h) := by
  refine ⟨?_, ?_, ?_, isolated.late_next available⟩
  · rw [record_closed]
    rcases kernel_cases available with
      ⟨sockets, opened, onward⟩ | ⟨fd, -, sockets, opened, onward⟩ | ⟨f, fd, rfl, closes, closed⟩
    · rw [note_closed onward]
      exact isolated.kernel.congr sockets opened
    · rw [note_closed onward]
      exact isolated.kernel.openSocket.congr sockets opened
    · show Kernel (Hook.next s (.closeFd f)) _
      rw [closed]
      simp only [note, closes]
      exact isolated.kernel.closeSocket.congr rfl rfl
  · rw [record_home]
    by_cases starts : ∃ f kind fd hookEnable, a = .start f kind fd hookEnable
    · obtain ⟨f, kind, fd, hookEnable, rfl⟩ := starts
      exact isolated.aimed.start
    · have onward : ∀ f kind fd hookEnable, a ≠ .start f kind fd hookEnable :=
        fun f kind fd hookEnable same => starts ⟨f, kind, fd, hookEnable, same⟩
      rw [note_home onward]
      have keeps : Keeps s (hookMachine.next s a) := keeps_next available onward
      rcases kernel_cases available with ⟨sockets, -, -⟩ | ⟨fd, free, sockets, -, -⟩ |
        ⟨f, fd, rfl, closes, closed⟩
      · exact isolated.aimed.keeps keeps fun n x denotes => sockets ▸ denotes
      · refine isolated.aimed.keeps keeps fun n x denotes => ?_
        have other : n ≠ fd := by
          rintro rfl
          simp [free] at denotes
        show (Hook.next s a).socket n = some x
        rw [sockets, State.openSocket_socket, Function.update_of_ne other, denotes]
      · show Aimed (Hook.next s (.closeFd f)) h.home
        rw [closed]
        exact isolated.aimed.closeFd closes undisturbed
  · rw [record_calls]
    exact isolated.calls_next available

omit [DecidableEq Tid] in
theorem confined (isolated : Isolated s h) : Confined s h := by
  refine ⟨isolated.calls, isolated.late, fun f op inIo late parked => ?_⟩
  rcases isolated.settled inIo late with failed | ⟨-, resumed | ⟨-, waits⟩⟩
  · simp [parked] at failed
  · simp [parked] at resumed
  · exact waits

end Isolated

end Step

variable [DecidableEq Tid]

/-- In a run that closes a number only when the operations on it have timed out and
been handed to the scheduler, operations stay on the socket they were started on. -/
theorem confined_of_reaches {p : State Tid Fib Cb × History Fib}
    (reached : (hookMachine.observe History.empty record).Reaches
      (fun q a => Undisturbed q.1 a) p) : Confined p.1 p.2 := by
  have isolated : Isolated p.1 p.2 := by
    refine reached.invariant (I := fun q => Isolated q.1 q.2) ?_ ?_
    · rintro ⟨_, _⟩ ⟨rfl, rfl⟩
      refine ⟨⟨nofun, nofun, nofun⟩, ?_, nofun, nofun⟩
      intro f op inIo
      cases inIo
    · intro q a isolated available undisturbed
      exact isolated.next available undisturbed
  exact isolated.confined

instance [Fintype Fib] (s : State Tid Fib Cb) (a : Move Tid Fib) : Decidable (Undisturbed s a) := by
  induction a using Move.casesOn <;> (dsimp only [Undisturbed, Op.Settled]; infer_instance)

/-- The fiber `0` opens the descriptor `7` and parks in a `recv` on it. -/
def parkOn (recvTimeout : List (Move ℕ (Fin 2))) : List (Move ℕ (Fin 2)) :=
  [.socket 0 7 true, .adopt 0] ++ recvTimeout ++
    [.start 0 .read 7 true, .get 0, .call 0 .eagain, .arm 0, .addEvent 0 true]

/-- The fiber `1` closes the descriptor, and is given it again for a new socket. -/
def replace : List (Move ℕ (Fin 2)) :=
  [.close 1 7 true, .closeGet 1, .cancelAll 1 true, .del 1, .closeFd 1, .socket 1 7 true, .adopt 1]

/-- An operation that has timed out before the descriptor is closed returns an error. -/
theorem confined_timedOut :
    let p := (hookMachine.observe History.empty record).after
      ((State.initial : State ℕ (Fin 2) ℕ), History.empty)
      (parkOn [.setTimeout 7 true 500] ++ [.expire 0, .onTimer 0, .cancelEvent 7 .read true] ++
        replace ++ [.resume 0, .check 0])
    p.1.socket 7 = some 1 ∧ p.2.late = [none] ∧ Confined p.1 p.2 := by
  have starts : (hookMachine.observe History.empty record).init
      ((State.initial : State ℕ (Fin 2) ℕ), History.empty) := ⟨rfl, rfl⟩
  have follows : (hookMachine.observe History.empty record).Follows
      (fun q a => Undisturbed q.1 a) ((State.initial : State ℕ (Fin 2) ℕ), History.empty)
      (parkOn [.setTimeout 7 true 500] ++ [.expire 0, .onTimer 0, .cancelEvent 7 .read true] ++
        replace ++ [.resume 0, .check 0]) := by decide
  exact ⟨by decide, by decide, confined_of_reaches ((Machine.Reaches.start starts).follow follows)⟩

/-- A parked `recv` is woken by `close` and reads from the next connection. -/
theorem crossed_over :
    ¬ ∀ p : State ℕ (Fin 2) ℕ × History (Fin 2),
      (hookMachine.observe History.empty record).Reachable p → Confined p.1 p.2 := by
  intro confined
  have starts : (hookMachine.observe History.empty record).init
      ((State.initial : State ℕ (Fin 2) ℕ), History.empty) := ⟨rfl, rfl⟩
  have follows : (hookMachine.observe History.empty record).Follows (fun _ _ => True)
      ((State.initial : State ℕ (Fin 2) ℕ), History.empty)
      (parkOn [] ++ replace ++ [.resume 0, .check 0, .call 0 (.value 5)]) := by decide
  have reached := (Machine.Reaches.start starts).follow follows
  have onNew : (⟨some 0, some 1, true⟩ : Call) ∈
      ((hookMachine.observe History.empty record).after
        ((State.initial : State ℕ (Fin 2) ℕ), History.empty)
        (parkOn [] ++ replace ++ [.resume 0, .check 0, .call 0 (.value 5)])).2.calls := by decide
  have same := ((confined _ reached).calls _ onNew 0 rfl).1
  cases same

end CoroutineService.Hook
