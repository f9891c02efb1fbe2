import CoroutineService.Hook.Isolation

/-!
# Calls that look blocking

A fiber that calls a hooked function on a managed socket is not to notice that the socket
is nonblocking underneath: `do_io` repeats its call into the kernel until there is a result.
But a descriptor has room for one fiber in each direction. A second one is refused by
`addEvent`, and `do_io` returns `-1` with the `errno` of its last call.

## Main definitions

* `Finished`, `Past`: a call of `do_io` that has returned, and what is recorded of a run
* `Finished.LooksBlocking`: the call has returned the first result that is neither `EINTR`
  nor `EAGAIN`, or has timed out
* `Unshared`: no fiber is registered already for the event that a call is to register

## Main results

* `looksBlocking_of_reaches`: calls look blocking in runs without shared events
* `shared_next`: every event that is shared shows `EAGAIN` to a caller
* `not_looksBlocking`: two fibers that read from one socket
-/

set_option autoImplicit false

namespace CoroutineService.Hook

open CoroutineService.Transition CoroutineService.Scheduler

variable {Tid Fib Cb : Type}

/-! ### What is observed -/

/-- The values of `errno` after a call has failed. -/
inductive Errno
  | eintr | eagain | etimedout | ebadf | other
  deriving DecidableEq, Repr

namespace Outcome

/-- The result of a call into the kernel, with `errno`. -/
def returned : Outcome → Except Errno ℕ
  | .value n => .ok n
  | .eintr => .error .eintr
  | .eagain => .error .eagain
  | .error => .error .other

/-- A blocking call would not return yet. -/
def Retried (outcome : Outcome) : Prop := outcome = .eintr ∨ outcome = .eagain

instance (outcome : Outcome) : Decidable outcome.Retried := inferInstanceAs (Decidable (_ ∨ _))

end Outcome

/-- `do_io` waits for the event on behalf of its caller. -/
def FdCtx.blocks (ctx : FdCtx) : Bool := !ctx.isClosed && ctx.isSocket && !ctx.userNonblock

/-- A call of `do_io` that has returned: whether its descriptor was a managed socket in
blocking mode, its timeout, the results of its calls into the kernel, whether a timer of its
own has expired, and what it has returned. -/
structure Finished where
  managed : Bool
  timeout : Option ℕ
  outcomes : List Outcome
  elapsed : Bool
  result : Except Errno ℕ

/-- The call has returned the first result that a blocking call would return, or it has
failed because its timeout has elapsed before there was one. -/
def Finished.LooksBlocking (c : Finished) : Prop :=
  (∃ retries last, c.outcomes = retries ++ [last] ∧ (∀ o ∈ retries, o.Retried) ∧
      ¬last.Retried ∧ c.result = last.returned) ∨
    (∀ o ∈ c.outcomes, o.Retried) ∧ c.timeout.isSome = true ∧ c.elapsed = true ∧
      c.result = .error .etimedout

/-- A call that looks blocking does not tell its caller to try again. -/
theorem Finished.LooksBlocking.never_again {c : Finished} (blocking : c.LooksBlocking) :
    c.result ≠ .error .eintr ∧ c.result ≠ .error .eagain := by
  rcases blocking with ⟨retries, last, -, -, ends, result⟩ | ⟨-, -, -, result⟩
  · rw [result]
    cases last with
    | eintr => exact absurd (.inl rfl) ends
    | eagain => exact absurd (.inr rfl) ends
    | value n | error => exact ⟨nofun, nofun⟩
  · rw [result]
    exact ⟨nofun, nofun⟩

/-- The same about the calls under way, and the calls that have returned. -/
structure Past (Fib : Type) where
  managed : Fib → Bool
  outcomes : Fib → List Outcome
  elapsed : Fib → Bool
  finished : List Finished

namespace Past

/-- Nothing has happened. -/
def empty : Past Fib := ⟨fun _ => false, fun _ => [], fun _ => false, []⟩

/-- What a step returns if it ends a call. After `addEvent` has failed, `errno` is what the
last call into the kernel has left. -/
def result (h : Past Fib) : Move Tid Fib → Except Errno ℕ
  | .get _ => .error .ebadf
  | .call _ outcome => outcome.returned
  | .fail f => ((h.outcomes f).getLast?.map Outcome.returned).getD (.error .other)
  | .check _ => .error .etimedout
  | _ => .error .other

variable [DecidableEq Fib]

/-- What a step adds for the calls under way. -/
def note (s : State Tid Fib Cb) (a : Move Tid Fib) (h : Past Fib) : Past Fib :=
  match a with
  | .start f _ _ _ =>
    { h with
      managed := Function.update h.managed f false
      outcomes := Function.update h.outcomes f []
      elapsed := Function.update h.elapsed f false }
  | .get f =>
    let managed := (s.op f).any fun op => (s.datas op.fd).any FdCtx.blocks
    { h with managed := Function.update h.managed f managed }
  | .call f outcome =>
    { h with outcomes := Function.update h.outcomes f (h.outcomes f ++ [outcome]) }
  | .expire f => { h with elapsed := Function.update h.elapsed f true }
  | _ => h

/-- The record goes on with a step. -/
def record (s : State Tid Fib Cb) (a : Move Tid Fib) (h : Past Fib) : Past Fib :=
  let noted := h.note s a
  match progress s a with
  | some (f, .returns _) =>
    let timeout := (s.op f).bind Op.timeout
    { noted with
      finished := ⟨noted.managed f, timeout, noted.outcomes f, noted.elapsed f, h.result a⟩ ::
        noted.finished }
  | _ => noted

end Past

/-- The `FdContext` of a descriptor has no fiber that waits for the event. -/
def State.Vacant (s : State Tid Fib Cb) (fd : ℕ) (event : IOManager.Event) : Prop :=
  ∀ ptr ∈ (IOManager.grownFor s.io.table fd).get fd, (s.io.context ptr).events.has event = false

instance (s : State Tid Fib Cb) (fd : ℕ) (event : IOManager.Event) :
    Decidable (s.Vacant fd event) :=
  inferInstanceAs (Decidable (∀ ptr ∈ (IOManager.grownFor s.io.table fd).get fd, _))

/-- An event is registered when no fiber waits for it, and `epoll_ctl` succeeds. -/
def Unshared (s : State Tid Fib Cb) : Move Tid Fib → Prop
  | .addEvent f success => success = true ∧ ∀ op ∈ s.op f, s.Vacant op.fd op.kind.event
  | _ => True

instance (s : State Tid Fib Cb) (a : Move Tid Fib) : Decidable (Unshared s a) := by
  induction a using Move.casesOn <;> (dsimp only [Unshared]; infer_instance)

/-! ### The steps of a call -/

section Steps

variable {s : State Tid Fib Cb} {h : Past Fib} {a : Move Tid Fib} {f g : Fib} {op op' : Op}
variable [DecidableEq Fib]

theorem op_advance_of_goOn {s₁ : State Tid Fib Cb} {step : Op → Progress}
    (inIo : s₁.op f = some op) (goes : step op = .goOn op') :
    (s₁.advance f step).op f = some op' := by
  unfold State.advance
  rw [inIo]
  dsimp only
  rw [goes]
  dsimp only
  rw [op_become, if_pos rfl]
  rfl

/-- The call that a step carries on, and how. -/
def stepOf (s : State Tid Fib Cb) : Move Tid Fib → Option (Fib × (Op → Progress))
  | .get f => some (f, fun op => op.lookup (s.datas op.fd))
  | .call f outcome => some (f, fun op => op.call outcome)
  | .arm f => some (f, Op.arm)
  | .addEvent f success => some (f, fun op => op.added (s.registered f op success))
  | .fail f => some (f, fun _ => .returns none)
  | .resume f => some (f, fun op => .goOn { op with pc := .resumed })
  | .check f => some (f, Op.check)
  | .expire f => some (f, fun op =>
    .goOn { op with pending := false, extracted := op.extracted + 1 })
  | .onTimer f => some (f, fun op =>
    .goOn { op with cancelled := true, extracted := op.extracted - 1 })
  | _ => none

/-- A call that is under way after a step was carried on by it, or is where it was. -/
def Carried (s : State Tid Fib Cb) (a : Move Tid Fib) (g : Fib) (op' : Op) : Prop :=
  (∃ step op, stepOf s a = some (g, step) ∧ s.op g = some op ∧ step op = .goOn op') ∨
    (∀ step, stepOf s a ≠ some (g, step)) ∧ s.op g = some op'

omit [DecidableEq Fib] in
/-- A step that carries on no call leaves all where they are. -/
theorem carried_aside (aside : stepOf s a = none) (inIo : s.op g = some op') :
    Carried s a g op' := by
  refine .inr ⟨fun step steps => ?_, inIo⟩
  cases aside.symm.trans steps

/-- A step that carries on the call of `f`, from a state with the same calls. -/
theorem carried_of_advance {s₁ : State Tid Fib Cb} {step : Op → Progress}
    (after : (s₁.advance f step).op g = some op') (same : s₁.activity = s.activity)
    (stepped : stepOf s a = some (f, step)) : Carried s a g op' := by
  have ops : s₁.op = s.op := funext fun g => by rw [State.op, State.op, same]
  rcases op_advance after with ⟨other, before⟩ | ⟨rfl, op, before, goes⟩
  · refine .inr ⟨fun step' steps => other ?_, ops ▸ before⟩
    rw [stepped] at steps
    cases steps
    rfl
  · exact .inl ⟨step, op, stepped, ops ▸ before, goes⟩

/-- A fiber turns to something else than a call. -/
theorem carried_of_become {s₁ : State Tid Fib Cb} {activity : Activity}
    (after : (s₁.become f activity).op g = some op') (same : s₁.activity = s.activity)
    (aside : stepOf s a = none) (none : activity.op = none) : Carried s a g op' := by
  rw [op_become] at after
  by_cases here : g = f
  · rw [if_pos here, none] at after
    cases after
  · rw [if_neg here, State.op, same] at after
    exact carried_aside aside after

/-- What a step does to the calls that are under way after it. -/
theorem op_next [DecidableEq Tid] (available : hookMachine.enabled s a)
    (onward : ∀ f kind fd hookEnable, a ≠ .start f kind fd hookEnable)
    (inIo : (next s a).op g = some op') : Carried s a g op' := by
  obtain ⟨-, available⟩ := available
  cases a with
  | start f kind fd hookEnable => exact absurd rfl (onward f kind fd hookEnable)
  | get f | arm f | fail f | check f | expire f => exact carried_of_advance inIo rfl rfl
  | resume f => exact carried_of_advance inIo rfl rfl
  | call f outcome =>
    obtain ⟨op, before, -⟩ := available
    rw [next_call before] at inIo
    refine carried_of_advance inIo ?_ rfl
    unfold State.answered
    split <;> rfl
  | addEvent f success =>
    obtain ⟨op, before, -⟩ := available
    rw [next_addEvent before] at inIo
    exact carried_of_advance inIo rfl rfl
  | onTimer f =>
    obtain ⟨op, before, -⟩ := available
    obtain ⟨cancels, result⟩ := next_onTimer before
    rw [result] at inIo
    exact carried_of_advance inIo rfl rfl
  | socket f fd hookEnable =>
    exact carried_of_become inIo rfl rfl (by cases hookEnable <;> rfl)
  | adopt f =>
    obtain ⟨fd, found⟩ := Option.isSome_iff_exists.mp available
    rw [next_adopt found] at inIo
    exact carried_of_become inIo rfl rfl rfl
  | close f fd hookEnable => exact carried_of_become inIo rfl rfl rfl
  | closeGet f =>
    obtain ⟨⟨fd, pc⟩, found, -⟩ := available
    rw [next_closeGet found] at inIo
    exact carried_of_become inIo rfl rfl rfl
  | cancelAll f success =>
    obtain ⟨⟨fd, pc⟩, found, -⟩ := available
    rw [next_cancelAll found] at inIo
    exact carried_of_become inIo rfl rfl rfl
  | del f =>
    obtain ⟨⟨fd, pc⟩, found, -⟩ := available
    rw [next_del found] at inIo
    exact carried_of_become inIo rfl rfl rfl
  | closeFd f =>
    obtain ⟨⟨fd, pc⟩, found, -⟩ := available
    rw [next_closeFd found] at inIo
    exact carried_of_become inIo rfl rfl rfl
  | cancelEvent fd event success | setUserNonblock fd nonblock | setTimeout fd recv ms
  | epollWait w ready | dispatch w success => exact carried_aside rfl inIo

/-- Where a call stands when a step carries it on. -/
def Op.Ready (op : Op) : Move Tid Fib → Prop
  | .get _ => op.pc = .get
  | .call _ _ => op.pc = .pass ∨ op.pc = .retry
  | .arm _ => op.pc = .arm
  | .addEvent _ _ => op.pc = .addEvent
  | .fail _ => op.pc = .fail
  | .resume _ => op.pc = .parked
  | .check _ => op.pc = .resumed
  | .expire _ => op.pending = true
  | .onTimer _ => 0 < op.extracted
  | _ => True

theorem ready_of_stepOf [DecidableEq Tid] {step : Op → Progress}
    (available : hookMachine.enabled s a) (stepped : stepOf s a = some (f, step))
    (inIo : s.op f = some op) : op.Ready a := by
  obtain ⟨-, available⟩ := available
  cases a with
  | get g | arm g | addEvent g success | fail g | resume g | check g | expire g | onTimer g
  | call g outcome =>
    cases stepped
    obtain ⟨op₀, inIo₀, place⟩ := available
    obtain rfl : op₀ = op := Option.some_inj.mp (Eq.trans (Eq.symm inIo₀) inIo)
    first | exact place | exact place.1
  | _ => trivial

/-- Where a step leaves a call that goes on. -/
def Op.Left (s : State Tid Fib Cb) (op op' : Op) : Move Tid Fib → Prop
  | .get _ => op'.pc = .pass ∨ op'.pc = .retry
  | .call _ _ => op'.pc = .retry ∨ op'.pc = .arm
  | .arm _ => op'.pc = .addEvent
  | .addEvent f success => op'.pc = if s.registered f op success ≠ 0 then .fail else .parked
  | .resume _ => op'.pc = .resumed
  | .check _ => op'.pc = .retry
  | .expire _ | .onTimer _ => op'.pc = op.pc
  | _ => False

omit [DecidableEq Fib] in
theorem left_of_stepOf {step : Op → Progress} (stepped : stepOf s a = some (f, step))
    (goes : step op = .goOn op') : op.Left s op' a := by
  cases a with
  | get g =>
    cases stepped
    unfold Op.lookup at goes
    dsimp only at goes
    split at goes
    · cases goes
      exact .inl rfl
    · split at goes
      · cases goes
      · split at goes
        · cases goes
          exact .inl rfl
        · cases goes
          exact .inr rfl
  | call g outcome =>
    cases stepped
    unfold Op.call at goes
    dsimp only at goes
    split at goes
    · cases goes
    · cases outcome with
      | eintr =>
        cases goes
        exact .inl rfl
      | eagain =>
        cases goes
        exact .inr rfl
      | value n | error => cases goes
  | check g =>
    cases stepped
    unfold Op.check at goes
    split at goes
    · cases goes
    · cases goes
      exact rfl
  | arm g | addEvent g success | resume g | expire g | onTimer g =>
    cases stepped
    cases goes
    exact rfl
  | fail g =>
    cases stepped
    cases goes
  | _ => cases stepped

omit [DecidableEq Fib] in
theorem stepOf_of_progress {progress' : Progress} (steps : progress s a = some (f, progress')) :
    ∃ step op, stepOf s a = some (f, step) ∧ s.op f = some op ∧ step op = progress' := by
  cases a with
  | get g | call g outcome | fail g | check g =>
    obtain ⟨op, inIo, same⟩ := Option.map_eq_some_iff.mp steps
    cases same
    exact ⟨_, op, rfl, inIo, rfl⟩
  | _ => cases steps

/-- What is recorded of a call changes with its own steps only. -/
theorem note_other (onward : ∀ f kind fd hookEnable, a ≠ .start f kind fd hookEnable)
    (aside : ∀ step, stepOf s a ≠ some (g, step)) :
    (h.note s a).managed g = h.managed g ∧ (h.note s a).outcomes g = h.outcomes g ∧
      (h.note s a).elapsed g = h.elapsed g := by
  have other : ∀ {f : Fib} {step : Op → Progress}, stepOf s a = some (f, step) → g ≠ f := by
    rintro f step stepped rfl
    exact aside step stepped
  cases a with
  | start f kind fd hookEnable => exact absurd rfl (onward f kind fd hookEnable)
  | get f => exact ⟨Function.update_of_ne (other rfl) _ _, rfl, rfl⟩
  | call f outcome => exact ⟨rfl, Function.update_of_ne (other rfl) _ _, rfl⟩
  | expire f => exact ⟨rfl, rfl, Function.update_of_ne (other rfl) _ _⟩
  | _ => exact ⟨rfl, rfl, rfl⟩

theorem note_managed (onward : ∀ f kind fd hookEnable, a ≠ .start f kind fd hookEnable)
    (looked : ∀ f, a ≠ .get f) : (h.note s a).managed = h.managed := by
  cases a with
  | start f kind fd hookEnable => exact absurd rfl (onward f kind fd hookEnable)
  | get f => exact absurd rfl (looked f)
  | _ => rfl

/-- A call that returns is recorded. -/
theorem record_of_returns {r : Option ℕ} (ends : progress s a = some (f, .returns r)) :
    ∃ c ∈ (h.record s a).finished, c.managed = (h.note s a).managed f ∧ c.result = h.result a := by
  unfold Past.record
  rw [ends]
  exact ⟨_, List.mem_cons_self, rfl, rfl⟩

/-- Recording a call that returns leaves what is noted of the calls. -/
theorem record_note : (h.record s a).managed = (h.note s a).managed ∧
    (h.record s a).outcomes = (h.note s a).outcomes ∧
      (h.record s a).elapsed = (h.note s a).elapsed := by
  unfold Past.record
  dsimp only
  split <;> exact ⟨rfl, rfl, rfl⟩

omit [DecidableEq Fib] in
/-- The critical section of `addEvent` succeeds if the bit is clear, or an assertion fails. -/
theorem addEventAt_of_clear {s : IOManager.State Tid Unit Fib Cb} {ptr fd : ℕ}
    {event : IOManager.Event} {rt : ℤ} {s' : IOManager.State Tid Unit Fib Cb}
    (clear : (s.context ptr).events.has event = false)
    (adds : IOManager.addEventAt s ptr fd event () f none true = .ok (rt, s')) : rt = 0 := by
  unfold IOManager.addEventAt at adds
  dsimp only at adds
  rw [clear] at adds
  cases event with
  | none => cases adds
  | read | write =>
    simp only [IOManager.FdContext.getEventContext, bind, Except.bind, pure, Except.pure] at adds
    rw [if_neg Bool.false_ne_true, if_neg (Bool.false_ne_true ∘ Eq.symm)] at adds
    split at adds
    · cases adds
    · cases adds
      rfl

/-- `addEvent` registers the event if no fiber waits for it. -/
theorem registered_of_vacant [DecidableEq Tid] (inIo : s.op f = some op)
    (vacant : s.Vacant op.fd op.kind.event) :
    s.registered f op true = 0 ∨ (next s (.addEvent f true)).io.fault ≠ none := by
  have io : (next s (.addEvent f true)).io =
      IOManager.next s.io (.addEvent op.fd op.kind.event () f none true) := by
    rw [next_addEvent inIo, advance_io]
    rfl
  have closed : IOManager.next s.io (.addEvent op.fd op.kind.event () f none true) =
      s.io.close ((s.registration f op true).map Prod.snd) := rfl
  rw [io, closed]
  unfold State.registered
  cases registers : s.registration f op true with
  | error fault => exact .inr (Option.some_ne_none fault)
  | ok added =>
    left
    unfold State.registration IOManager.addEvent at registers
    dsimp only at registers
    cases found : (IOManager.grownFor s.io.table op.fd).get op.fd with
    | none =>
      rw [found] at registers
      cases registers
    | some ptr =>
      rw [found] at registers
      let grown := { s.io with table := IOManager.grownFor s.io.table op.fd }
      have clear : (grown.context ptr).events.has op.kind.event = false := vacant ptr found
      exact addEventAt_of_clear clear registers

/-- `addEvent` refuses an event that a fiber waits for. -/
theorem registered_of_shared [DecidableEq Tid] (inIo : s.op f = some op)
    (shared : ¬s.Vacant op.fd op.kind.event) :
    s.registered f op true = -1 ∧ (next s (.addEvent f true)).io.fault = s.io.fault := by
  unfold State.Vacant at shared
  push Not at shared
  obtain ⟨ptr, found, taken⟩ := shared
  have taken : (s.io.context ptr).events.has op.kind.event = true := by simpa using taken
  have refuses : s.registration f op true =
      .ok (-1, { s.io with table := IOManager.grownFor s.io.table op.fd }) := by
    unfold State.registration IOManager.addEvent
    dsimp only
    rw [Option.mem_def.mp found]
    simp [IOManager.addEventAt, taken, pure, Except.pure]
  have closed : IOManager.next s.io (.addEvent op.fd op.kind.event () f none true) =
      s.io.close ((s.registration f op true).map Prod.snd) := rfl
  constructor
  · rw [State.registered, refuses]
  · rw [next_addEvent inIo, advance_io]
    show (IOManager.next s.io (.addEvent op.fd op.kind.event () f none true)).fault = _
    rw [closed, refuses]
    rfl

end Steps

/-! ### The invariant -/

/-- A call on a managed socket that is under way, and what is recorded of it. -/
structure Track (op : Op) (outcomes : List Outcome) (elapsed : Bool) : Prop where
  retried : ∀ o ∈ outcomes, o.Retried
  waits : op.pc ≠ .get ∧ op.pc ≠ .pass
  timed : op.pending = true ∨ 0 < op.extracted ∨ op.cancelled = true → op.timeout.isSome = true
  late : 0 < op.extracted ∨ op.cancelled = true → elapsed = true
  again : op.pc = .arm ∨ op.pc = .addEvent → outcomes.getLast? = some .eagain

/-- A call that has not looked at its descriptor yet. -/
structure Op.Fresh (op : Op) (outcomes : List Outcome) : Prop where
  none : outcomes = []
  pending : op.pending = false
  extracted : op.extracted = 0
  cancelled : op.cancelled = false

/-- What holds along a run without shared events. -/
structure Watched (s : State Tid Fib Cb) (h : Past Fib) : Prop where
  fresh : ∀ f op, s.op f = some op → op.pc = .get → op.Fresh (h.outcomes f)
  track : ∀ f op, s.op f = some op → h.managed f = true → Track op (h.outcomes f) (h.elapsed f)
  refused : ∀ f op, s.op f = some op → h.managed f = true → op.pc = .fail → s.io.fault ≠ none
  finished : ∀ c ∈ h.finished, c.managed = true → c.LooksBlocking

section Invariant

variable {s : State Tid Fib Cb} {h : Past Fib} {a : Move Tid Fib} {f : Fib} {op op' : Op}
variable {step : Op → Progress}
variable [DecidableEq Tid] [DecidableEq Fib]

/-- One step of a call on a managed socket. -/
theorem Track.goesOn (track : Track op (h.outcomes f) (h.elapsed f))
    (available : hookMachine.enabled s a) (stepped : stepOf s a = some (f, step))
    (inIo : s.op f = some op) (goes : step op = .goOn op') :
    Track op' ((h.note s a).outcomes f) ((h.note s a).elapsed f) := by
  have place := ready_of_stepOf available stepped inIo
  cases a with
  | get g => exact absurd place track.waits.1
  | call g outcome =>
    cases stepped
    have retry : op.pc = .retry := place.resolve_left track.waits.2
    have noted : (h.note s (.call f outcome)).outcomes f = h.outcomes f ++ [outcome] :=
      Function.update_self _ _ _
    have tried : outcome.Retried → ∀ o ∈ (h.note s (.call f outcome)).outcomes f, o.Retried := by
      intro again o mem
      rw [noted] at mem
      rcases List.mem_append.mp mem with before | now
      · exact track.retried o before
      · exact List.mem_singleton.mp now ▸ again
    unfold Op.call at goes
    dsimp only at goes
    rw [retry, if_neg nofun] at goes
    cases outcome with
    | eintr =>
      cases goes
      exact ⟨tried (.inl rfl), ⟨nofun, nofun⟩, track.timed, track.late, nofun⟩
    | eagain =>
      cases goes
      refine ⟨tried (.inr rfl), ⟨nofun, nofun⟩, track.timed, track.late, fun _ => ?_⟩
      rw [noted]
      exact List.getLast?_concat
    | value n | error => cases goes
  | arm g =>
    cases stepped
    cases goes
    refine ⟨track.retried, ⟨nofun, nofun⟩, ?_, track.late, fun _ => track.again (.inl place)⟩
    rintro (pending | later)
    · exact pending
    · exact track.timed (.inr later)
  | addEvent g success =>
    cases stepped
    cases goes
    refine ⟨track.retried, ?_, track.timed, track.late, ?_⟩
    · constructor <;> (dsimp only; split <;> exact nofun)
    · dsimp only
      split <;> exact nofun
  | fail g =>
    cases stepped
    cases goes
  | resume g =>
    cases stepped
    cases goes
    exact ⟨track.retried, ⟨nofun, nofun⟩, track.timed, track.late, nofun⟩
  | check g =>
    cases stepped
    unfold Op.check at goes
    split at goes
    · cases goes
    · cases goes
      refine ⟨track.retried, ⟨nofun, nofun⟩, ?_, track.late, nofun⟩
      rintro (pending | later)
      · cases pending
      · exact track.timed (.inr later)
  | expire g =>
    cases stepped
    cases goes
    exact ⟨track.retried, track.waits, fun _ => track.timed (.inl place),
      fun _ => Function.update_self _ _ _, track.again⟩
  | onTimer g =>
    cases stepped
    cases goes
    exact ⟨track.retried, track.waits, fun _ => track.timed (.inr (.inl place)),
      fun _ => track.late (.inl place), track.again⟩
  | _ => cases stepped

/-- What a call on a managed socket returns, unless it has been refused. -/
theorem Track.finishes (track : Track op (h.outcomes f) (h.elapsed f))
    (available : hookMachine.enabled s a) (stepped : stepOf s a = some (f, step))
    (inIo : s.op f = some op) {r : Option ℕ} (ends : step op = .returns r)
    (runs : op.pc ≠ .fail) :
    (⟨true, op.timeout, (h.note s a).outcomes f, (h.note s a).elapsed f, h.result a⟩ :
      Finished).LooksBlocking := by
  have place := ready_of_stepOf available stepped inIo
  cases a with
  | get g => exact absurd place track.waits.1
  | call g outcome =>
    cases stepped
    have retry : op.pc = .retry := place.resolve_left track.waits.2
    have noted : (h.note s (.call f outcome)).outcomes f = h.outcomes f ++ [outcome] :=
      Function.update_self _ _ _
    refine .inl ⟨h.outcomes f, outcome, noted, track.retried, ?_, rfl⟩
    unfold Op.call at ends
    dsimp only at ends
    rw [retry, if_neg nofun] at ends
    rintro (rfl | rfl)
    · cases ends
    · cases ends
  | fail g =>
    cases stepped
    exact absurd place runs
  | check g =>
    cases stepped
    unfold Op.check at ends
    split at ends
    case isTrue cancelled =>
      exact .inr ⟨track.retried, track.timed (.inr (.inr cancelled)), track.late (.inr cancelled),
        rfl⟩
    case isFalse => cases ends
  | arm g | addEvent g success | resume g | expire g | onTimer g =>
    cases stepped
    cases ends
  | _ => cases stepped

namespace Watched

variable (watched : Watched s h)
include watched

/-- A call on a managed socket has not been refused while steps are available. -/
theorem runs (available : hookMachine.enabled s a) (inIo : s.op f = some op)
    (managed : h.managed f = true) : op.pc ≠ .fail :=
  fun failed => watched.refused f op inIo managed failed available.1

/-- A call that looks at its descriptor. -/
theorem get (available : hookMachine.enabled s (.get f)) (inIo : s.op f = some op)
    (goes : op.lookup (s.datas op.fd) = .goOn op')
    (managed : (h.note s (.get f)).managed f = true) :
    Track op' (h.outcomes f) (h.elapsed f) ∧ op'.pc = .retry := by
  have place : op.pc = .get := ready_of_stepOf (a := .get f) available rfl inIo
  obtain ⟨none, pending, extracted, cancelled⟩ := watched.fresh f op inIo place
  have blocks : (s.datas op.fd).any FdCtx.blocks = true := by
    have noted : (h.note s (.get f)).managed f =
        (s.op f).any fun op => (s.datas op.fd).any FdCtx.blocks := Function.update_self _ _ _
    rw [noted, inIo] at managed
    exact managed
  cases found : s.datas op.fd with
  | none =>
    rw [found] at blocks
    cases blocks
  | some ctx =>
    have blocks : ctx.blocks = true := by
      rw [found] at blocks
      exact blocks
    obtain ⟨⟨isOpen, isSocket⟩, blocking⟩ : (ctx.isClosed = false ∧ ctx.isSocket = true) ∧
        ctx.userNonblock = false := by simpa [FdCtx.blocks] using blocks
    rw [found] at goes
    unfold Op.lookup at goes
    dsimp only at goes
    rw [isOpen, isSocket, blocking, if_neg nofun, if_neg (by decide)] at goes
    cases goes
    refine ⟨⟨?_, ⟨nofun, nofun⟩, ?_, ?_, nofun⟩, rfl⟩
    · rw [none]
      exact fun o mem => absurd mem List.not_mem_nil
    · simp [pending, extracted, cancelled]
    · simp [extracted, cancelled]

omit [DecidableEq Tid] watched in
/-- A call that fails when it looks at its descriptor is none on a managed socket. -/
theorem get_returns (inIo : s.op f = some op) {r : Option ℕ}
    (ends : op.lookup (s.datas op.fd) = .returns r) : (h.note s (.get f)).managed f = false := by
  have noted : (h.note s (.get f)).managed f =
      (s.op f).any fun op => (s.datas op.fd).any FdCtx.blocks := Function.update_self _ _ _
  rw [noted, inIo]
  unfold Op.lookup at ends
  split at ends
  case h_1 none => simp [none]
  case h_2 ctx found =>
    split at ends
    case isTrue closed => simp [found, FdCtx.blocks, closed]
    case isFalse => split at ends <;> cases ends

/-- A call that goes on has looked at its descriptor. -/
theorem leaves_get (available : hookMachine.enabled s a) (stepped : stepOf s a = some (f, step))
    (inIo : s.op f = some op) (goes : step op = .goOn op') : op'.pc ≠ .get := by
  have place := ready_of_stepOf available stepped inIo
  have left := left_of_stepOf stepped goes
  intro here
  cases a with
  | get g | call g outcome => rcases left with left | left <;> cases left.symm.trans here
  | arm g | resume g | check g => cases left.symm.trans here
  | addEvent g success =>
    have left : op'.pc = if s.registered g op success ≠ 0 then .fail else .parked := left
    split at left <;> cases left.symm.trans here
  | expire g =>
    cases place.symm.trans (watched.fresh f op inIo (left.symm.trans here)).pending
  | onTimer g =>
    exact absurd (watched.fresh f op inIo (left.symm.trans here)).extracted place.ne'
  | _ => exact left

/-- A call on a managed socket is not refused while nobody shares its event. -/
theorem refused_next (available : hookMachine.enabled s a) (unshared : Unshared s a)
    (stepped : stepOf s a = some (f, step)) (inIo : s.op f = some op)
    (goes : step op = .goOn op') (managed : h.managed f = true ∨ op.pc = .get)
    (failed : op'.pc = .fail) : (next s a).io.fault ≠ none := by
  have left := left_of_stepOf stepped goes
  have runs : op.pc ≠ .fail := by
    rcases managed with managed | here
    · exact watched.runs available inIo managed
    · rw [here]
      exact nofun
  cases a with
  | addEvent g success =>
    cases stepped
    obtain ⟨rfl, vacant⟩ := unshared
    refine (registered_of_vacant inIo (vacant op inIo)).resolve_left fun added => ?_
    have left : op'.pc = if s.registered f op true ≠ 0 then .fail else .parked := left
    rw [if_neg (not_not.mpr added)] at left
    cases left.symm.trans failed
  | get g | call g outcome => rcases left with left | left <;> cases left.symm.trans failed
  | arm g | resume g | check g => cases left.symm.trans failed
  | expire g | onTimer g => exact absurd (left.symm.trans failed) runs
  | _ => exact left.elim

omit [DecidableEq Tid] in
/-- A call that is started has not looked at its descriptor. -/
theorem start {kind : Kind} {fd : ℕ} {hookEnable : Bool} :
    Watched (s.become f (.doIo (Op.start kind fd hookEnable)))
      (h.note s (.start f kind fd hookEnable)) := by
  have outcomes : (h.note s (.start f kind fd hookEnable)).outcomes =
    Function.update h.outcomes f [] := rfl
  have managed : (h.note s (.start f kind fd hookEnable)).managed =
    Function.update h.managed f false := rfl
  have elapsed : (h.note s (.start f kind fd hookEnable)).elapsed =
    Function.update h.elapsed f false := rfl
  have unmanaged : ∀ {g}, Function.update h.managed f false g = true → g ≠ f := by
    rintro g set rfl
    rw [Function.update_self] at set
    cases set
  refine ⟨fun g op inIo here => ?_, fun g op inIo set => ?_, fun g op inIo set failed => ?_,
    watched.finished⟩
  · rw [op_become] at inIo
    rw [outcomes]
    by_cases same : g = f
    · rw [if_pos same] at inIo
      cases inIo
      rw [same, Function.update_self]
      exact ⟨rfl, rfl, rfl, rfl⟩
    · rw [if_neg same] at inIo
      rw [Function.update_of_ne same]
      exact watched.fresh g op inIo here
  · rw [managed] at set
    have other := unmanaged set
    rw [Function.update_of_ne other] at set
    rw [op_become, if_neg other] at inIo
    rw [outcomes, elapsed, Function.update_of_ne other, Function.update_of_ne other]
    exact watched.track g op inIo set
  · rw [managed] at set
    have other := unmanaged set
    rw [Function.update_of_ne other] at set
    rw [op_become, if_neg other] at inIo
    exact watched.refused g op inIo set failed

/-- What is recorded of the calls that have returned. -/
theorem finished_next (available : hookMachine.enabled s a)
    (onward : ∀ f kind fd hookEnable, a ≠ .start f kind fd hookEnable) :
    ∀ c ∈ (h.record s a).finished, c.managed = true → c.LooksBlocking := by
  have before : (h.note s a).finished = h.finished := by cases a <;> rfl
  unfold Past.record
  dsimp only
  split
  case h_1 f r ends =>
    intro c mem managed
    rcases List.mem_cons.mp mem with rfl | earlier
    · obtain ⟨step, op, stepped, inIo, returns⟩ := stepOf_of_progress ends
      have timeout : (s.op f).bind Op.timeout = op.timeout := by rw [inIo]; rfl
      dsimp only at managed ⊢
      rw [managed, timeout]
      by_cases looked : ∃ g, a = .get g
      · obtain ⟨g, rfl⟩ := looked
        cases stepped
        cases managed.symm.trans (get_returns inIo returns)
      · rw [note_managed onward fun g same => looked ⟨g, same⟩] at managed
        exact (watched.track f op inIo managed).finishes available stepped inIo returns
          (watched.runs available inIo managed)
    · exact watched.finished c (before ▸ earlier) managed
  case h_2 => exact fun c mem => watched.finished c (before ▸ mem)

/-- One step of a run without shared events. -/
theorem next (available : hookMachine.enabled s a) (unshared : Unshared s a) :
    Watched (hookMachine.next s a) (h.record s a) := by
  by_cases starts : ∃ f kind fd hookEnable, a = .start f kind fd hookEnable
  · obtain ⟨f, kind, fd, hookEnable, rfl⟩ := starts
    exact watched.start
  have onward : ∀ f kind fd hookEnable, a ≠ .start f kind fd hookEnable :=
    fun f kind fd hookEnable same => starts ⟨f, kind, fd, hookEnable, same⟩
  obtain ⟨sameManaged, sameOutcomes, sameElapsed⟩ := record_note (s := s) (h := h) (a := a)
  refine ⟨fun g op' inIo here => ?_, fun g op' inIo managed => ?_,
    fun g op' inIo managed failed => ?_, watched.finished_next available onward⟩
  · rw [sameOutcomes]
    rcases op_next available onward inIo with ⟨step, op, stepped, before, goes⟩ | ⟨aside, before⟩
    · exact absurd here (watched.leaves_get available stepped before goes)
    · rw [(note_other onward aside).2.1]
      exact watched.fresh g op' before here
  · rw [sameManaged] at managed
    rw [sameOutcomes, sameElapsed]
    rcases op_next available onward inIo with ⟨step, op, stepped, before, goes⟩ | ⟨aside, before⟩
    · by_cases looked : ∃ f, a = .get f
      · obtain ⟨f, rfl⟩ := looked
        cases stepped
        exact (watched.get available before goes managed).1
      · rw [note_managed onward fun f same => looked ⟨f, same⟩] at managed
        exact (watched.track g op before managed).goesOn available stepped before goes
    · obtain ⟨same, outcomes, elapsed⟩ := note_other (h := h) onward aside
      rw [outcomes, elapsed]
      exact watched.track g op' before (same ▸ managed)
  · rw [sameManaged] at managed
    rcases op_next available onward inIo with ⟨step, op, stepped, before, goes⟩ | ⟨aside, before⟩
    · refine watched.refused_next available unshared stepped before goes ?_ failed
      by_cases looked : ∃ f, a = .get f
      · obtain ⟨f, rfl⟩ := looked
        cases stepped
        exact .inr (ready_of_stepOf (a := .get g) available rfl before)
      · rw [note_managed onward fun f same => looked ⟨f, same⟩] at managed
        exact .inl managed
    · have same := (note_other (h := h) onward aside).1
      exact absurd failed (watched.runs available before (same ▸ managed))

end Watched

end Invariant

/-! ### Runs -/

variable [DecidableEq Tid] [DecidableEq Fib]

theorem watched_of_reaches {p : State Tid Fib Cb × Past Fib}
    (reached : (hookMachine.observe Past.empty Past.record).Reaches
      (fun q a => Unshared q.1 a) p) : Watched p.1 p.2 := by
  refine reached.invariant (I := fun q => Watched q.1 q.2) ?_ ?_
  · rintro ⟨_, _⟩ ⟨rfl, rfl⟩
    refine ⟨?_, ?_, ?_, nofun⟩ <;> exact fun f op inIo => nomatch inIo
  · intro q a watched available unshared
    exact watched.next available unshared

/-- As long as no event is shared, every call on a managed socket returns the first result
that is neither `EINTR` nor `EAGAIN`, or it times out; and the calls under way have had no
other results yet. -/
theorem looksBlocking_of_reaches {p : State Tid Fib Cb × Past Fib}
    (reached : (hookMachine.observe Past.empty Past.record).Reaches
      (fun q a => Unshared q.1 a) p) :
    (∀ c ∈ p.2.finished, c.managed = true → c.LooksBlocking) ∧
      ∀ f op, p.1.op f = some op → p.2.managed f = true → ∀ o ∈ p.2.outcomes f, o.Retried := by
  have watched := watched_of_reaches reached
  exact ⟨watched.finished, fun f op inIo managed => (watched.track f op inIo managed).retried⟩

/-- A call that registers a shared event fails with `EAGAIN`. -/
theorem shared_next {p : State Tid Fib Cb × Past Fib} {f : Fib}
    (reached : (hookMachine.observe Past.empty Past.record).Reaches
      (fun q a => Unshared q.1 a) p)
    (available : hookMachine.enabled p.1 (.addEvent f true)) (managed : p.2.managed f = true)
    (shared : ¬Unshared p.1 (.addEvent f true)) :
    let q := (hookMachine.observe Past.empty Past.record).next p (.addEvent f true)
    hookMachine.enabled q.1 (.fail f) ∧
      ∃ c ∈ (Past.record q.1 (.fail f) q.2).finished, c.managed = true ∧ ¬c.LooksBlocking := by
  have watched := watched_of_reaches reached
  obtain ⟨op, inIo, place, -⟩ := available.2
  have inIo : p.1.op f = some op := inIo
  have shared : ¬p.1.Vacant op.fd op.kind.event := fun vacant => by
    refine shared ⟨rfl, fun op' inIo' => ?_⟩
    obtain rfl : op' = op := Option.some_inj.mp (Eq.trans (Eq.symm inIo') inIo)
    exact vacant
  obtain ⟨refused, fault⟩ := registered_of_shared inIo shared
  have failing : (next p.1 (.addEvent f true)).op f = some { op with pc := .fail } := by
    have goes : op.added (p.1.registered f op true) = .goOn { op with pc := .fail } := by
      rw [refused]
      rfl
    rw [next_addEvent inIo]
    exact op_advance_of_goOn inIo goes
  have again := (watched.track f op inIo managed).again (.inr place)
  refine ⟨⟨fault.trans available.1, _, failing, rfl⟩, ?_⟩
  have ends : progress (next p.1 (.addEvent f true)) (.fail f) = some (f, .returns none) := by
    rw [progress, failing]
    rfl
  have result : (Past.record p.1 (.addEvent f true) p.2).result (.fail f : Move Tid Fib) =
      .error .eagain := by
    unfold Past.result
    dsimp only
    rw [record_note.2.1]
    show ((p.2.outcomes f).getLast?.map Outcome.returned).getD (.error .other) = .error .eagain
    rw [again]
    rfl
  obtain ⟨c, mem, same, told⟩ :=
    record_of_returns (h := Past.record p.1 (.addEvent f true) p.2) ends
  exact ⟨c, mem, same.trans managed, fun blocking => blocking.never_again.2 (told.trans result)⟩

/-- The fibers `0` and `1` read from one socket. -/
def readBoth : List (Move ℕ (Fin 2)) :=
  [.socket 0 7 true, .adopt 0, .start 0 .read 7 true, .get 0, .call 0 .eagain, .arm 0,
    .addEvent 0 true, .start 1 .read 7 true, .get 1, .call 1 .eagain, .arm 1]

/-- A call is interrupted, waits, and reads what has come. -/
theorem looksBlocking_interrupted :
    let p := (hookMachine.observe Past.empty Past.record).after
      ((State.initial : State ℕ (Fin 2) ℕ), Past.empty)
      [.socket 0 7 true, .adopt 0, .start 0 .read 7 true, .get 0, .call 0 .eintr,
        .call 0 .eagain, .arm 0, .addEvent 0 true, .epollWait 0 [(7, ⟨true, false, false⟩)],
        .dispatch 0 true, .resume 0, .check 0, .call 0 (.value 5)]
    p.2.finished.length = 1 ∧ (∀ c ∈ p.2.finished, c.managed = true → c.LooksBlocking) ∧
      ∀ f op, p.1.op f = some op → p.2.managed f = true → ∀ o ∈ p.2.outcomes f, o.Retried := by
  have starts : (hookMachine.observe Past.empty Past.record).init
      ((State.initial : State ℕ (Fin 2) ℕ), Past.empty) := ⟨rfl, rfl⟩
  have follows : (hookMachine.observe Past.empty Past.record).Follows
      (fun q a => Unshared q.1 a) ((State.initial : State ℕ (Fin 2) ℕ), Past.empty)
      [.socket 0 7 true, .adopt 0, .start 0 .read 7 true, .get 0, .call 0 .eintr,
        .call 0 .eagain, .arm 0, .addEvent 0 true, .epollWait 0 [(7, ⟨true, false, false⟩)],
        .dispatch 0 true, .resume 0, .check 0, .call 0 (.value 5)] := by decide
  exact ⟨by decide, looksBlocking_of_reaches ((Machine.Reaches.start starts).follow follows)⟩

/-- The second of two fibers that read from one socket is told to try again. -/
theorem not_looksBlocking :
    ¬ ∀ p : State ℕ (Fin 2) ℕ × Past (Fin 2),
      (hookMachine.observe Past.empty Past.record).Reachable p →
        ∀ c ∈ p.2.finished, c.managed = true → c.LooksBlocking := by
  intro blocking
  have starts : (hookMachine.observe Past.empty Past.record).init
      ((State.initial : State ℕ (Fin 2) ℕ), Past.empty) := ⟨rfl, rfl⟩
  have follows : (hookMachine.observe Past.empty Past.record).Follows (fun _ _ => True)
      ((State.initial : State ℕ (Fin 2) ℕ), Past.empty)
      (readBoth ++ [.addEvent 1 true, .fail 1]) := by decide
  have reached := (Machine.Reaches.start starts).follow follows
  have told : (hookMachine.observe Past.empty Past.record).after
      ((State.initial : State ℕ (Fin 2) ℕ), Past.empty)
      (readBoth ++ [.addEvent 1 true, .fail 1]) |>.2.finished =
        [⟨true, none, [.eagain], false, .error .eagain⟩] := by rfl
  have call := blocking _ reached ⟨true, none, [.eagain], false, .error .eagain⟩
    (by rw [told]; exact List.mem_singleton_self _) rfl
  exact call.never_again.2 rfl

end CoroutineService.Hook
