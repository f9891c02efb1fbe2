import CoroutineService.Hook.Blocking

/-!
# Connecting

One call of `connect_with_timeout`, step by step, beside the kernel's attempt to connect, the
callbacks of its timer, and the other fibers that use the descriptor. Once the fiber runs again
it infers success from `SO_ERROR`, which is also `0` while the attempt is still in progress.

## Main definitions

* `Connecting`, `connectMachine`: the call and what surrounds it
* `Connecting.Truthful`: success is returned for an attempt that has succeeded only
* `Undeceived`: the fiber waits until the attempt is decided, and reads the error of the
  socket it has connected

## Main results

* `truthful_of_reaches`: calls whose steps are all of this kind are truthful
* `deceived_next`: every other step may make a call untruthful
* `not_truthful`: `addEvent` fails, and `connect` succeeds
-/

set_option autoImplicit false

namespace CoroutineService.Hook

open CoroutineService.Transition

/-! ### The call -/

/-- How `connect_with_timeout` begins. -/
inductive Entry
  -- `connect_f` alone.
  | original
  | badFd
  | attempt
  deriving DecidableEq, Repr

/-- What `connect_with_timeout` makes of the `FdCtx` of its descriptor. -/
def Entry.of (hookEnable : Bool) (ctx : Option FdCtx) : Entry :=
  if hookEnable = false then .original
  else
    match ctx with
    | none => .badFd
    | some ctx =>
      if ctx.isClosed then .badFd
      else if ctx.isSocket = false then .original
      else if ctx.userNonblock then .original
      else .attempt

/-- What `connect_f` returns. -/
inductive ConnectCall
  | connected
  -- `-1` with `EINPROGRESS`.
  | inProgress
  | error (errno : ℕ)
  deriving DecidableEq, Repr

/-- The kernel's attempt to connect. -/
inductive Attempt
  | none | inProgress | established | failed
  deriving DecidableEq, Repr

/-- What the number of the descriptor denotes: the socket of the call, nothing once that is
closed, or a socket opened since. -/
inductive Number
  | own | closed | other
  deriving DecidableEq, Repr

/-- Where the call stands. -/
inductive ConnectPc
  -- Before `connect_f`.
  | call
  | arm
  | addEvent
  -- At `yield`.
  | parked
  -- Back from `yield`, before `timer->cancel()`.
  | resumed
  -- Before the test of `tinfo->cancelled`.
  | check
  -- `addEvent` has failed, before `timer->cancel()`.
  | refused
  -- Before `getsockopt`.
  | sockopt
  | returned
  deriving DecidableEq, Repr

/-- A call of `connect_with_timeout` on a managed socket in blocking mode. `soError` is the
pending error of the socket; the callbacks of the timer are counted as in `Wait`. -/
structure Connecting where
  pc : ConnectPc
  timeout : Option ℕ
  cancelled : Bool
  pending : Bool
  extracted : ℕ
  tested : ℕ
  marked : ℕ
  attempt : Attempt
  soError : ℕ
  number : Number
  registered : Bool
  wakeUps : ℕ
  result : Option (Except ℕ Unit)
  deriving Repr

/-- The steps of the fiber, of the callbacks, of the kernel and of other fibers. -/
inductive ConnectMove
  | call (outcome : ConnectCall)
  | arm
  | addEvent (success : Bool)
  | resume
  | cancelTimer
  | check
  -- `none` if `getsockopt` fails, and the error otherwise.
  | getsockopt (error : Option ℕ)
  | expire
  -- `!t || t->cancelled`.
  | test
  -- `t->cancelled = ETIMEDOUT`.
  | mark
  | cancelEvent (success : Bool)
  -- The attempt succeeds, or fails with an error.
  | establish
  | refuse (error : ℕ)
  -- The descriptor is writable, and the event is triggered.
  | ready
  -- The event is triggered by `close`, by the timer of another call, or by a report from
  -- before the attempt.
  | disturb
  -- Another call on the descriptor gets the pending error.
  | takeError
  | closeFd
  | reopen
  deriving DecidableEq, Repr

/-- `ETIMEDOUT`. -/
def etimedout : ℕ := 110

/-- An error of `getsockopt`, such as `EBADF`. -/
def ebadf : ℕ := 9

namespace Connecting

/-- The call before `connect_f`. -/
def start (timeout : Option ℕ) : Connecting where
  pc := .call
  timeout := timeout
  cancelled := false
  pending := false
  extracted := 0
  tested := 0
  marked := 0
  attempt := .none
  soError := 0
  number := .own
  registered := false
  wakeUps := 0
  result := none

variable (s : Connecting)

/-- The call returns. -/
def returns (result : Except ℕ Unit) : Connecting :=
  { s with pc := .returned, result := some result }

/-- The event is unregistered, and the fiber is scheduled. -/
def trigger : Connecting := { s with registered := false, wakeUps := s.wakeUps + 1 }

/-- What `getsockopt` may answer. A closed number is an error, and a socket has no error while
its attempt is in progress or when it is connected. -/
def MayAnswer (error : Option ℕ) : Prop :=
  match s.number, error with
  | _, none => True
  | .own, some error => error = s.soError
  | .closed, some _ => False
  | .other, some _ => True

instance (error : Option ℕ) : Decidable (s.MayAnswer error) := by
  unfold MayAnswer
  split <;> infer_instance

end Connecting

/-- One call of `connect_with_timeout`. A descriptor is writable when the attempt is decided. -/
def connectMachine : Machine Connecting ConnectMove where
  init s := ∃ ctx timeout, Entry.of true (some ctx) = .attempt ∧ s = .start timeout
  enabled s
    | .call _ => s.pc = .call
    | .arm => s.pc = .arm
    | .addEvent success => s.pc = .addEvent ∧ (success = true → s.number ≠ .closed)
    | .resume => s.pc = .parked ∧ 0 < s.wakeUps
    | .cancelTimer => s.pc = .resumed ∨ s.pc = .refused
    | .check => s.pc = .check
    | .getsockopt error => s.pc = .sockopt ∧ s.MayAnswer error
    | .expire => s.pending = true
    | .test => 0 < s.extracted
    | .mark => 0 < s.tested
    | .cancelEvent _ => 0 < s.marked
    | .establish => s.attempt = .inProgress ∧ s.number = .own
    | .refuse error => s.attempt = .inProgress ∧ s.number = .own ∧ error ≠ 0
    | .ready => s.registered = true ∧ (s.attempt = .established ∨ s.attempt = .failed)
    | .disturb => s.registered = true
    | .takeError => s.soError ≠ 0 ∧ s.number = .own
    | .closeFd => s.attempt ≠ .none ∧ s.number = .own
    | .reopen => s.number = .closed
  next s
    | .call .connected => { s with attempt := .established }.returns (.ok ())
    | .call .inProgress => { s with attempt := .inProgress, pc := .arm }
    | .call (.error errno) => { s with attempt := .failed, soError := errno }.returns (.error errno)
    | .arm => { s with pending := s.timeout.isSome, pc := .addEvent }
    | .addEvent success =>
      { s with
        registered := s.registered || success
        pc := if success then .parked else .refused }
    | .resume => { s with wakeUps := s.wakeUps - 1, pc := .resumed }
    | .cancelTimer =>
      { s with pending := false, pc := if s.pc = .resumed then .check else .sockopt }
    | .check => if s.cancelled then s.returns (.error etimedout) else { s with pc := .sockopt }
    | .getsockopt none => s.returns (.error ebadf)
    | .getsockopt (some error) => s.returns (if error = 0 then .ok () else .error error)
    | .expire => { s with pending := false, extracted := s.extracted + 1 }
    | .test =>
      { s with
        extracted := s.extracted - 1
        tested := if s.result.isSome || s.cancelled then s.tested else s.tested + 1 }
    | .mark => { s with cancelled := true, tested := s.tested - 1, marked := s.marked + 1 }
    | .cancelEvent success =>
      let after := { s with marked := s.marked - 1 }
      if s.registered && success then after.trigger else after
    | .establish => { s with attempt := .established }
    | .refuse error => { s with attempt := .failed, soError := error }
    | .ready | .disturb => s.trigger
    | .takeError => { s with soError := 0 }
    | .closeFd => { s with number := .closed }
    | .reopen => { s with number := .other }

instance (s : Connecting) (a : ConnectMove) : Decidable (connectMachine.enabled s a) := by
  cases a <;> (dsimp only [connectMachine]; infer_instance)

namespace Connecting

variable (s : Connecting)

/-- `connect_with_timeout` has returned `0` only if the attempt has succeeded. -/
def Truthful : Prop := s.result = some (.ok ()) → s.attempt = .established

/-- The attempt is over, or `getsockopt` would fail. -/
def Decided : Prop := s.attempt ≠ .inProgress ∨ s.number = .closed

/-- The call has returned, or is going to return `ETIMEDOUT`. -/
def GivenUp : Prop :=
  s.result.isSome = true ∨
    s.cancelled = true ∧ (s.pc = .parked ∨ s.pc = .resumed ∨ s.pc = .check)

/-- The fiber does not wait for its event any more. -/
def Awake : Prop :=
  0 < s.wakeUps ∨ s.pc = .resumed ∨ s.pc = .check ∨ s.pc = .refused ∨ s.pc = .sockopt

instance : Decidable s.Truthful := inferInstanceAs (Decidable (_ → _))

instance : Decidable s.Decided := inferInstanceAs (Decidable (_ ∨ _))

instance : Decidable s.GivenUp := inferInstanceAs (Decidable (_ ∨ _))

instance : Decidable s.Awake := inferInstanceAs (Decidable (_ ∨ _))

end Connecting

/-- Unless the call gives up, the fiber goes on only when the attempt is decided, the number of
its descriptor is not used again while that may be mistaken for success, and nobody else gets
the error. -/
def Undeceived (s : Connecting) : ConnectMove → Prop
  | .addEvent success => success = true ∨ s.Decided
  | .disturb => s.Decided ∨ s.GivenUp
  | .reopen => s.attempt = .established ∨ s.attempt = .inProgress ∧ ¬s.Awake ∨ s.GivenUp
  | .takeError => s.GivenUp
  | _ => True

instance (s : Connecting) (a : ConnectMove) : Decidable (Undeceived s a) := by
  cases a <;> (dsimp only [Undeceived]; infer_instance)

/-! ### What all steps keep -/

namespace Connecting

theorem next_cancelEvent (s : Connecting) (success : Bool) :
    s.registered = true ∧ connectMachine.next s (.cancelEvent success) =
        { s with marked := s.marked - 1 }.trigger ∨
      connectMachine.next s (.cancelEvent success) = { s with marked := s.marked - 1 } := by
  show s.registered = true ∧ (if s.registered && success then trigger _ else _) = _ ∨
    (if s.registered && success then trigger _ else _) = _
  split
  case isTrue found => exact .inl ⟨(Bool.and_eq_true_iff.mp found).1, rfl⟩
  case isFalse => exact .inr rfl

theorem next_check (s : Connecting) :
    s.cancelled = true ∧ connectMachine.next s .check = s.returns (.error etimedout) ∨
      s.cancelled = false ∧ connectMachine.next s .check = { s with pc := .sockopt } := by
  by_cases marked : s.cancelled = true
  · exact .inl ⟨marked, if_pos marked⟩
  · exact .inr ⟨eq_false_of_ne_true marked, if_neg marked⟩

/-- What holds in every run. -/
structure Sound (s : Connecting) : Prop where
  returned : s.result.isSome = true ↔ s.pc = .returned
  marks : 0 < s.marked → s.cancelled = true
  single : s.registered.toNat + s.wakeUps = if s.pc = .parked then 1 else 0
  begun : s.attempt = .none ↔ s.pc = .call
  own : s.attempt = .none → s.number = .own
  quiet : s.attempt ≠ .failed → s.soError = 0

namespace Sound

variable {s : Connecting} (sound : s.Sound)
include sound

theorem awake (other : s.pc ≠ .parked) : s.registered = false ∧ s.wakeUps = 0 := by
  have nothing := sound.single
  rw [if_neg other] at nothing
  obtain ⟨fresh, none⟩ := Nat.add_eq_zero_iff.mp nothing
  exact ⟨Bool.toNat_eq_zero.mp fresh, none⟩

theorem parked (registered : s.registered = true) : s.pc = .parked := by
  by_contra other
  exact absurd (registered.symm.trans (sound.awake other).1) nofun

theorem parked_of_wakeUps (some : 0 < s.wakeUps) : s.pc = .parked := by
  by_contra other
  exact absurd ((sound.awake other).2 ▸ some) (Nat.lt_irrefl 0)

theorem running (other : s.pc ≠ .returned) : s.result = none :=
  Option.not_isSome_iff_eq_none.mp fun ended => other (sound.returned.mp ended)

/-- A call that has neither returned nor waits goes on to another place. -/
theorem go {pc : ConnectPc} (call : s.pc ≠ .call) (awake : s.pc ≠ .parked)
    (ended : s.pc ≠ .returned) (call' : pc ≠ .call) (awake' : pc ≠ .parked)
    (ended' : pc ≠ .returned) : Sound { s with pc } where
  returned := ⟨fun some => absurd (sound.returned.mp some) ended, fun here => absurd here ended'⟩
  marks := sound.marks
  single := by
    have single := sound.single
    rw [if_neg awake] at single
    exact single.trans (if_neg awake').symm
  begun := ⟨fun none => absurd (sound.begun.mp none) call, fun here => absurd here call'⟩
  own := sound.own
  quiet := sound.quiet

theorem returns (result : Except ℕ Unit) (call : s.pc ≠ .call) (awake : s.pc ≠ .parked) :
    (s.returns result).Sound where
  returned := iff_of_true rfl rfl
  marks := sound.marks
  single := by
    have single := sound.single
    rw [if_neg awake] at single
    exact single.trans (if_neg nofun).symm
  begun := ⟨fun none => absurd (sound.begun.mp none) call, nofun⟩
  own := sound.own
  quiet := sound.quiet

theorem trigger (registered : s.registered = true) : s.trigger.Sound where
  returned := sound.returned
  marks := sound.marks
  single := by
    have single := sound.single
    rw [registered] at single
    rw [← show _ = (if s.trigger.pc = .parked then 1 else 0) from single]
    exact (Nat.zero_add _).trans (Nat.add_comm _ _)
  begun := sound.begun
  own := sound.own
  quiet := sound.quiet

/-- Steps that leave the fiber where it is. -/
theorem aside {s' : Connecting} (same : s'.pc = s.pc) (result : s'.result = s.result)
    (registered : s'.registered = s.registered) (wakeUps : s'.wakeUps = s.wakeUps)
    (marks : 0 < s'.marked → s'.cancelled = true) (begun : s'.attempt = .none ↔ s.attempt = .none)
    (own : s'.attempt = .none → s'.number = .own)
    (quiet : s'.attempt ≠ .failed → s'.soError = 0) : s'.Sound where
  returned := by rw [result, same, sound.returned]
  marks := marks
  single := by rw [registered, wakeUps, same, sound.single]
  begun := by rw [begun, same, sound.begun]
  own := own
  quiet := quiet

theorem call {outcome : ConnectCall} (here : s.pc = .call) :
    (connectMachine.next s (.call outcome)).Sound := by
  obtain ⟨fresh, none⟩ := sound.awake (by simp [here])
  have single : s.registered.toNat + s.wakeUps = 0 := by simp [fresh, none]
  have unused := sound.begun.mpr here
  cases outcome with
  | connected =>
    exact ⟨iff_of_true rfl rfl, sound.marks, single, by simp [connectMachine, Connecting.returns],
      fun _ => sound.own unused, fun _ => sound.quiet (by simp [unused])⟩
  | inProgress =>
    refine ⟨?_, sound.marks, single, by simp [connectMachine], fun _ => sound.own unused,
      fun _ => sound.quiet (by simp [unused])⟩
    show s.result.isSome = true ↔ ConnectPc.arm = .returned
    simp [sound.running (by simp [here])]
  | error errno =>
    exact ⟨iff_of_true rfl rfl, sound.marks, single, by simp [connectMachine, Connecting.returns],
      fun _ => sound.own unused, fun intact => absurd rfl intact⟩

theorem addEvent {success : Bool} (here : s.pc = .addEvent) :
    (connectMachine.next s (.addEvent success)).Sound := by
  obtain ⟨fresh, none⟩ := sound.awake (by simp [here])
  have running := sound.running (by simp [here])
  have begun : s.attempt ≠ .none := fun unused => by simpa [here] using sound.begun.mp unused
  refine ⟨?_, sound.marks, ?_, iff_of_false begun ?_, sound.own, sound.quiet⟩
  · show s.result.isSome = true ↔ (if success then ConnectPc.parked else .refused) = .returned
    cases success <;> simp [running]
  · show (s.registered || success).toNat + s.wakeUps =
      if (if success then ConnectPc.parked else .refused) = .parked then 1 else 0
    cases success <;> simp [fresh, none]
  · show (if success then ConnectPc.parked else .refused) ≠ .call
    cases success <;> simp

theorem resume (here : s.pc = .parked) (some : 0 < s.wakeUps) :
    (connectMachine.next s .resume).Sound where
  returned := by
    show s.result.isSome = true ↔ ConnectPc.resumed = .returned
    simp [sound.running (by simp [here])]
  marks := sound.marks
  single := by
    have single := sound.single
    rw [if_pos here] at single
    show s.registered.toNat + (s.wakeUps - 1) = 0
    omega
  begun := iff_of_false (fun unused => by simpa [here] using sound.begun.mp unused) nofun
  own := sound.own
  quiet := sound.quiet

theorem next {a : ConnectMove} (available : connectMachine.enabled s a) :
    (connectMachine.next s a).Sound := by
  have fewer : ∀ {n : ℕ}, 0 < s.marked - n → s.cancelled = true := fun some =>
    sound.marks (Nat.lt_of_lt_of_le some (Nat.sub_le _ _))
  cases a with
  | call outcome => exact sound.call available
  | arm =>
    have here : s.pc = .arm := available
    have gone : ({ s with pc := .addEvent } : Connecting).Sound :=
      sound.go (by simp [here]) (by simp [here]) (by simp [here]) nofun nofun nofun
    exact gone.aside rfl rfl rfl rfl sound.marks Iff.rfl sound.own sound.quiet
  | addEvent success => exact sound.addEvent available.1
  | resume => exact sound.resume available.1 available.2
  | cancelTimer =>
    rcases available with here | here
    · have gone : ({ s with pc := .check } : Connecting).Sound :=
        sound.go (by simp [here]) (by simp [here]) (by simp [here]) nofun nofun nofun
      exact gone.aside (by simp [connectMachine, here]) rfl rfl rfl sound.marks Iff.rfl sound.own
        sound.quiet
    · have gone : ({ s with pc := .sockopt } : Connecting).Sound :=
        sound.go (by simp [here]) (by simp [here]) (by simp [here]) nofun nofun nofun
      exact gone.aside (by simp [connectMachine, here]) rfl rfl rfl sound.marks Iff.rfl sound.own
        sound.quiet
  | check =>
    have here : s.pc = .check := available
    rcases next_check s with ⟨-, result⟩ | ⟨-, result⟩
    · rw [result]
      exact sound.returns _ (by simp [here]) (by simp [here])
    · rw [result]
      exact sound.go (by simp [here]) (by simp [here]) (by simp [here]) nofun nofun nofun
  | getsockopt error =>
    have here : s.pc = .sockopt := available.1
    cases error with
    | none => exact sound.returns _ (by simp [here]) (by simp [here])
    | some error => exact sound.returns _ (by simp [here]) (by simp [here])
  | expire => exact sound.aside rfl rfl rfl rfl sound.marks Iff.rfl sound.own sound.quiet
  | test => exact sound.aside rfl rfl rfl rfl sound.marks Iff.rfl sound.own sound.quiet
  | mark => exact sound.aside rfl rfl rfl rfl (fun _ => rfl) Iff.rfl sound.own sound.quiet
  | cancelEvent success =>
    have done : ({ s with marked := s.marked - 1 } : Connecting).Sound :=
      sound.aside rfl rfl rfl rfl fewer Iff.rfl sound.own sound.quiet
    rcases next_cancelEvent s success with ⟨registered, result⟩ | result
    · rw [result]
      exact done.trigger registered
    · rw [result]
      exact done
  | establish =>
    exact sound.aside rfl rfl rfl rfl sound.marks (by simp [connectMachine, available.1]) nofun
      fun _ => sound.quiet (by simp [available.1])
  | refuse error =>
    exact sound.aside rfl rfl rfl rfl sound.marks (by simp [connectMachine, available.1]) nofun
      fun intact => absurd rfl intact
  | ready => exact sound.trigger available.1
  | disturb => exact sound.trigger available
  | takeError =>
    exact sound.aside rfl rfl rfl rfl sound.marks Iff.rfl sound.own fun _ => rfl
  | closeFd =>
    exact sound.aside rfl rfl rfl rfl sound.marks Iff.rfl (fun none => absurd none available.1)
      sound.quiet
  | reopen =>
    refine sound.aside rfl rfl rfl rfl sound.marks Iff.rfl (fun none => ?_) sound.quiet
    exact absurd (available.symm.trans (sound.own none)) nofun

end Sound

theorem sound_of_reaches {permitted : Connecting → ConnectMove → Prop} {s : Connecting}
    (reached : connectMachine.Reaches permitted s) : s.Sound := by
  refine reached.invariant ?_ fun s a sound available _ => sound.next available
  rintro _ ⟨ctx, timeout, -, rfl⟩
  exact ⟨by simp [start], nofun, rfl, iff_of_true rfl rfl, fun _ => rfl, fun _ => rfl⟩

/-! ### What undeceived calls keep -/

variable {s : Connecting}

/-- A call that gives up does not change its mind. -/
theorem GivenUp.next {a : ConnectMove} (sound : s.Sound) (givenUp : s.GivenUp)
    (available : connectMachine.enabled s a) : (connectMachine.next s a).GivenUp := by
  rcases givenUp with ended | ⟨cancelled, place⟩
  · have here := sound.returned.mp ended
    left
    cases a with
    | call outcome | arm | check => simp [connectMachine, here] at available
    | addEvent success | getsockopt error => simp [connectMachine, here] at available
    | resume | cancelTimer => simp [connectMachine, here] at available
    | cancelEvent success =>
      rcases next_cancelEvent s success with ⟨registered, result⟩ | result
      · rw [result]
        exact ended
      · rw [result]
        exact ended
    | _ => exact ended
  · have waits : s.pc ≠ .call ∧ s.pc ≠ .arm ∧ s.pc ≠ .addEvent ∧ s.pc ≠ .refused ∧
        s.pc ≠ .sockopt := by
      rcases place with here | here | here <;> simp [here]
    obtain ⟨call, arm, addEvent, refused, sockopt⟩ := waits
    cases a with
    | call outcome => exact absurd available call
    | arm => exact absurd available arm
    | addEvent success => exact absurd available.1 addEvent
    | getsockopt error => exact absurd available.1 sockopt
    | resume => exact .inr ⟨cancelled, .inr (.inl rfl)⟩
    | cancelTimer =>
      have here : s.pc = .resumed := available.resolve_right refused
      exact .inr ⟨cancelled, .inr (.inr (if_pos here))⟩
    | check =>
      rcases next_check s with ⟨-, result⟩ | ⟨unmarked, -⟩
      · rw [result]
        exact .inl rfl
      · cases cancelled.symm.trans unmarked
    | cancelEvent success =>
      rcases next_cancelEvent s success with ⟨registered, result⟩ | result
      · rw [result]
        exact .inr ⟨cancelled, place⟩
      · rw [result]
        exact .inr ⟨cancelled, place⟩
    | mark => exact .inr ⟨rfl, place⟩
    | _ => exact .inr ⟨cancelled, place⟩

/-- What the end of the call relies on, unless it gives up. -/
structure Honest (s : Connecting) : Prop where
  other : s.number = .other → s.attempt = .established ∨ s.attempt = .inProgress
  error : s.attempt = .failed → s.soError ≠ 0
  decided : s.Awake → s.Decided

namespace Honest

variable (honest : s.Honest)
include honest

/-- The fiber is awake afterwards only if it was before. -/
theorem go {s' : Connecting} (number : s'.number = s.number) (attempt : s'.attempt = s.attempt)
    (soError : s'.soError = s.soError) (awake : s'.Awake → s.Awake) : s'.Honest where
  other := by rw [number, attempt]; exact honest.other
  error := by rw [attempt, soError]; exact honest.error
  decided awake' := by
    rw [Decided, attempt, number]
    exact honest.decided (awake awake')

/-- Whatever becomes of the fiber, the attempt is decided. -/
theorem of_decided {s' : Connecting} (number : s'.number = s.number)
    (attempt : s'.attempt = s.attempt) (soError : s'.soError = s.soError)
    (decided : s.Decided) : s'.Honest where
  other := by rw [number, attempt]; exact honest.other
  error := by rw [attempt, soError]; exact honest.error
  decided _ := by
    rw [Decided, attempt, number]
    exact decided

theorem next {a : ConnectMove} (sound : s.Sound) (goesOn : ¬s.GivenUp)
    (available : connectMachine.enabled s a) (undeceived : Undeceived s a) :
    (connectMachine.next s a).GivenUp ∨ (connectMachine.next s a).Honest := by
  have sound' := sound.next available
  cases a with
  | call outcome =>
    have here : s.pc = .call := available
    cases outcome with
    | connected => exact .inl (.inl rfl)
    | error errno => exact .inl (.inl rfl)
    | inProgress =>
      refine .inr ⟨fun _ => .inr rfl, nofun, fun awake => ?_⟩
      rcases awake with some | place
      · exact absurd (sound'.parked_of_wakeUps some) nofun
      · simp [connectMachine] at place
  | arm =>
    refine .inr (honest.go rfl rfl rfl fun awake => ?_)
    rcases awake with some | place
    · exact .inl some
    · simp [connectMachine] at place
  | addEvent success =>
    rcases undeceived with rfl | decided
    · refine .inr (honest.go rfl rfl rfl fun awake => ?_)
      rcases awake with some | place
      · exact .inl some
      · simp [connectMachine] at place
    · exact .inr (honest.of_decided rfl rfl rfl decided)
  | resume => exact .inr (honest.of_decided rfl rfl rfl (honest.decided (.inl available.2)))
  | cancelTimer =>
    refine .inr (honest.of_decided rfl rfl rfl (honest.decided ?_))
    rcases available with here | here <;> simp [Awake, here]
  | check =>
    have here : s.pc = .check := available
    rcases next_check s with ⟨-, result⟩ | ⟨-, result⟩
    · rw [result]
      exact .inl (.inl rfl)
    · rw [result]
      exact .inr (honest.of_decided rfl rfl rfl (honest.decided (by simp [Awake, here])))
  | getsockopt error =>
    cases error with
    | none => exact .inl (.inl rfl)
    | some error => exact .inl (.inl rfl)
  | expire | test | mark => exact .inr (honest.go rfl rfl rfl id)
  | cancelEvent success =>
    rcases next_cancelEvent s success with ⟨registered, result⟩ | result
    · -- the callback that cancels the event has set the mark
      rw [result]
      exact .inl (.inr ⟨sound.marks available, .inl (sound.parked registered)⟩)
    · rw [result]
      exact .inr (honest.go rfl rfl rfl id)
  | establish => exact .inr ⟨fun _ => .inl rfl, nofun, fun _ => .inl nofun⟩
  | refuse error =>
    obtain ⟨-, own, failure⟩ := available
    exact .inr ⟨fun other => absurd (own.symm.trans other) nofun, fun _ => failure,
      fun _ => .inl nofun⟩
  | ready =>
    refine .inr (honest.of_decided rfl rfl rfl (.inl ?_))
    rcases available.2 with ended | ended <;> simp [ended]
  | disturb => exact .inr (honest.of_decided rfl rfl rfl (undeceived.resolve_right goesOn))
  | takeError => exact absurd undeceived goesOn
  | closeFd => exact .inr ⟨nofun, honest.error, fun _ => .inr rfl⟩
  | reopen =>
    rcases undeceived with ended | ⟨inProgress, asleep⟩ | givenUp
    · refine .inr ⟨fun _ => .inl ended, honest.error, fun _ => .inl ?_⟩
      simp [connectMachine, ended]
    · exact .inr ⟨fun _ => .inr inProgress, honest.error, fun awake => absurd awake asleep⟩
    · exact absurd givenUp goesOn

/-- What `getsockopt` answers at the end is true. -/
theorem established (sound : s.Sound) (here : s.pc = .sockopt) (answer : s.MayAnswer (some 0)) :
    s.attempt = .established := by
  have decided := honest.decided (by simp [Awake, here])
  unfold Decided at decided
  unfold MayAnswer at answer
  cases attempt : s.attempt with
  | established => rfl
  | none => simpa [here] using sound.begun.mp attempt
  | inProgress =>
    have closed := decided.resolve_left (not_not.mpr attempt)
    rw [closed] at answer
    exact answer.elim
  | failed =>
    cases number : s.number with
    | own =>
      rw [number] at answer
      exact absurd answer.symm (honest.error attempt)
    | closed =>
      rw [number] at answer
      exact answer.elim
    | other => simpa [attempt] using honest.other number

end Honest

/-- An answer is given once. -/
theorem Truthful.next {a : ConnectMove} (truthful : s.Truthful) (sound : s.Sound)
    (kept : s.GivenUp ∨ s.Honest) (available : connectMachine.enabled s a) :
    (connectMachine.next s a).Truthful := by
  cases a with
  | call outcome =>
    cases outcome with
    | connected => exact fun _ => rfl
    | inProgress =>
      have running : s.result = none := sound.running (by simp [show s.pc = .call from available])
      exact fun ok => absurd (running.symm.trans ok) nofun
    | error errno => exact fun ok => absurd ok (by simp [connectMachine, returns])
  | check =>
    rcases next_check s with ⟨-, result⟩ | ⟨-, result⟩
    · rw [result]
      exact fun ok => absurd ok (by simp [returns])
    · rw [result]
      exact truthful
  | getsockopt error =>
    obtain ⟨here, answer⟩ := available
    have goesOn : ¬s.GivenUp := by
      rintro (ended | ⟨-, place⟩)
      · exact absurd (here.symm.trans (sound.returned.mp ended)) nofun
      · simp [here] at place
    have honest := kept.resolve_left goesOn
    cases error with
    | none => exact fun ok => absurd ok (by simp [connectMachine, returns])
    | some error =>
      intro ok
      by_cases success : error = 0
      · subst success
        exact honest.established sound here answer
      · simp [connectMachine, returns, success] at ok
  | establish => exact fun _ => rfl
  | refuse error => exact fun ok => absurd (available.1.symm.trans (truthful ok)) nofun
  | cancelEvent success =>
    rcases next_cancelEvent s success with ⟨registered, result⟩ | result
    · rw [result]
      exact truthful
    · rw [result]
      exact truthful
  | _ => exact truthful

end Connecting

/-! ### Runs -/

/-- A call returns `0` only if it has connected, as long as it is not deceived. -/
theorem truthful_of_reaches {s : Connecting} (reached : connectMachine.Reaches Undeceived s) :
    s.Truthful := by
  have kept : s.Truthful ∧ (s.GivenUp ∨ s.Honest) := by
    refine reached.invariant_of (I := fun s => s.Truthful ∧ (s.GivenUp ∨ s.Honest))
      (fun _ => Connecting.sound_of_reaches) ?_ ?_
    · rintro _ ⟨ctx, timeout, -, rfl⟩
      have asleep : ¬(Connecting.start timeout).Awake := by
        simp [Connecting.Awake, Connecting.start]
      exact ⟨nofun, .inr ⟨nofun, nofun, fun awake => absurd awake asleep⟩⟩
    · rintro s a sound ⟨truthful, kept⟩ available undeceived
      refine ⟨truthful.next sound kept available, ?_⟩
      by_cases givenUp : s.GivenUp
      · exact .inl (givenUp.next sound available)
      · exact (kept.resolve_left givenUp).next sound givenUp available undeceived
  exact kept.1

namespace Connecting

/-- An undeceived run may go on to an untruthful end. -/
def Deceived (s : Connecting) : Prop :=
  ∃ schedule, connectMachine.Follows Undeceived s schedule ∧
    ¬(connectMachine.after s schedule).Truthful

variable {s : Connecting}

theorem Deceived.step {a : ConnectMove} (available : connectMachine.enabled s a)
    (undeceived : Undeceived s a) (later : (connectMachine.next s a).Deceived) : s.Deceived := by
  obtain ⟨schedule, follows, untruthful⟩ := later
  exact ⟨a :: schedule, ⟨available, undeceived, follows⟩, untruthful⟩

/-- What deceives a call: `getsockopt` may answer `0`, and the attempt has not succeeded. -/
structure Deceptive (s : Connecting) : Prop where
  answer : s.MayAnswer (some 0)
  fails : s.attempt ≠ .established

namespace Deceptive

variable (deceptive : s.Deceptive)
include deceptive

theorem sockopt (here : s.pc = .sockopt) : s.Deceived := by
  refine ⟨[.getsockopt (some 0)], ⟨⟨here, deceptive.answer⟩, trivial, trivial⟩, fun truthful => ?_⟩
  exact deceptive.fails (truthful rfl)

theorem refused (here : s.pc = .refused) : s.Deceived := by
  have later : Deceptive (connectMachine.next s .cancelTimer) := ⟨deceptive.answer, deceptive.fails⟩
  exact .step (a := .cancelTimer) (.inr here) trivial
    (later.sockopt (by simp [connectMachine, here]))

theorem check (here : s.pc = .check) (unmarked : s.cancelled = false) : s.Deceived := by
  obtain ⟨-, result⟩ := (next_check s).resolve_left fun marked => by simp [unmarked] at marked
  have later : Deceptive (connectMachine.next s .check) := by
    rw [result]
    exact ⟨deceptive.answer, deceptive.fails⟩
  exact .step (a := .check) here trivial (later.sockopt (by rw [result]))

theorem resumed (here : s.pc = .resumed) (unmarked : s.cancelled = false) : s.Deceived := by
  have later : Deceptive (connectMachine.next s .cancelTimer) := ⟨deceptive.answer, deceptive.fails⟩
  exact .step (a := .cancelTimer) (.inl here) trivial
    (later.check (by simp [connectMachine, here]) unmarked)

theorem woken (here : s.pc = .parked) (some : 0 < s.wakeUps) (unmarked : s.cancelled = false) :
    s.Deceived := by
  have later : Deceptive (connectMachine.next s .resume) := ⟨deceptive.answer, deceptive.fails⟩
  exact .step (a := .resume) ⟨here, some⟩ trivial (later.resumed rfl unmarked)

theorem addEvent (here : s.pc = .addEvent) (decided : s.Decided) : s.Deceived := by
  have later : Deceptive (connectMachine.next s (.addEvent false)) :=
    ⟨deceptive.answer, deceptive.fails⟩
  exact .step (a := .addEvent false) ⟨here, nofun⟩ (.inr decided) (later.refused rfl)

/-- A call that goes on is deceived, if it need not wait or the attempt is decided. -/
theorem deceived (sound : s.Sound) (goesOn : ¬s.GivenUp) (begun : s.attempt ≠ .none)
    (ready : s.Awake ∨ s.Decided) : s.Deceived := by
  have decided (asleep : ¬s.Awake) : s.Decided := ready.resolve_left asleep
  have unmarked (place : s.pc = .parked ∨ s.pc = .resumed ∨ s.pc = .check) :
      s.cancelled = false :=
    eq_false_of_ne_true fun marked => goesOn (.inr ⟨marked, place⟩)
  have asleep (away : s.wakeUps = 0) (place : s.pc = .arm ∨ s.pc = .addEvent ∨ s.pc = .parked) :
      ¬s.Awake := by
    rcases place with here | here | here <;> simp [Awake, away, here]
  cases here : s.pc with
  | call => exact absurd (sound.begun.mpr here) begun
  | returned => exact absurd (.inl (sound.returned.mpr here)) goesOn
  | arm =>
    have none := (sound.awake (by simp [here])).2
    have later : Deceptive (connectMachine.next s .arm) := ⟨deceptive.answer, deceptive.fails⟩
    exact .step (a := .arm) here trivial
      (later.addEvent rfl (decided (asleep none (.inl here))))
  | addEvent =>
    have none := (sound.awake (by simp [here])).2
    exact deceptive.addEvent here (decided (asleep none (.inr (.inl here))))
  | parked =>
    rcases Nat.eq_zero_or_pos s.wakeUps with none | some
    · have registered : s.registered = true := by
        have single := sound.single
        rw [if_pos here, none] at single
        exact Bool.toNat_eq_one.mp single
      have later : Deceptive (connectMachine.next s .disturb) := ⟨deceptive.answer, deceptive.fails⟩
      exact .step (a := .disturb) registered (.inl (decided (asleep none (.inr (.inr here)))))
        (later.woken here (Nat.succ_pos _) (unmarked (.inl here)))
    · exact deceptive.woken here some (unmarked (.inl here))
  | resumed => exact deceptive.resumed here (unmarked (.inr (.inl here)))
  | check => exact deceptive.check here (unmarked (.inr (.inr here)))
  | refused => exact deceptive.refused here
  | sockopt => exact deceptive.sockopt here

end Deceptive

end Connecting

/-- After any other step, an undeceived run may end with a false success. -/
theorem deceived_next {s : Connecting} {a : ConnectMove}
    (reached : connectMachine.Reaches Undeceived s) (available : connectMachine.enabled s a)
    (deceives : ¬Undeceived s a) : (connectMachine.next s a).Deceived := by
  have sound := Connecting.sound_of_reaches reached
  have sound' := sound.next available
  -- while the attempt is in progress, the number denotes a socket without an error
  have inProgress (undecided : ¬s.Decided) :
      s.attempt ≠ .established ∧ s.MayAnswer (some 0) := by
    unfold Connecting.Decided at undecided
    push Not at undecided
    obtain ⟨inProgress, isOpen⟩ := undecided
    refine ⟨by simp [inProgress], ?_⟩
    unfold Connecting.MayAnswer
    cases number : s.number with
    | own => exact (sound.quiet (by simp [inProgress])).symm
    | closed => exact absurd number isOpen
    | other => trivial
  cases a with
  | addEvent success =>
    obtain ⟨failed, undecided⟩ := not_or.mp deceives
    obtain rfl : success = false := eq_false_of_ne_true failed
    obtain ⟨fails, answer⟩ := inProgress undecided
    have deceptive : (connectMachine.next s (.addEvent false)).Deceptive := ⟨answer, fails⟩
    exact deceptive.refused rfl
  | disturb =>
    obtain ⟨undecided, goesOn⟩ := not_or.mp deceives
    obtain ⟨fails, answer⟩ := inProgress undecided
    have deceptive : (connectMachine.next s .disturb).Deceptive := ⟨answer, fails⟩
    have here := sound.parked available
    exact deceptive.woken here (Nat.succ_pos _)
      (eq_false_of_ne_true fun marked => goesOn (.inr ⟨marked, .inl here⟩))
  | reopen =>
    obtain ⟨fails, deceives⟩ := not_or.mp deceives
    obtain ⟨wakes, goesOn⟩ := not_or.mp deceives
    have deceptive : (connectMachine.next s .reopen).Deceptive := ⟨trivial, fails⟩
    refine deceptive.deceived sound' goesOn (fun none => ?_) ?_
    · exact absurd (available.symm.trans (sound.own none)) nofun
    · by_cases waits : s.attempt = .inProgress
      · exact .inl (not_not.mp fun asleep => wakes ⟨waits, asleep⟩)
      · exact .inr (.inl waits)
  | takeError =>
    obtain ⟨error, own⟩ := available
    have failed : s.attempt = .failed := not_not.mp fun intact => error (sound.quiet intact)
    have answer : (connectMachine.next s .takeError).MayAnswer (some 0) := by
      simp [Connecting.MayAnswer, connectMachine, own]
    have deceptive : (connectMachine.next s .takeError).Deceptive :=
      ⟨answer, by simp [connectMachine, failed]⟩
    exact deceptive.deceived sound' deceives (by simp [connectMachine, failed])
      (.inr (.inl (by simp [connectMachine, failed])))
  | _ => exact absurd trivial deceives

/-- The peer answers, and the descriptor becomes writable. -/
theorem truthful_writable :
    let s := connectMachine.after (.start (some 100))
      [.call .inProgress, .arm, .addEvent true, .establish, .ready, .expire, .resume, .cancelTimer,
        .check, .getsockopt (some 0)]
    s.result = some (.ok ()) ∧ s.Truthful := by
  have starts : connectMachine.init (.start (some 100)) :=
    ⟨.create true, some 100, rfl, rfl⟩
  have follows : connectMachine.Follows Undeceived (.start (some 100))
      [.call .inProgress, .arm, .addEvent true, .establish, .ready, .expire, .resume, .cancelTimer,
        .check, .getsockopt (some 0)] := by
    decide
  exact ⟨rfl, truthful_of_reaches ((Machine.Reaches.start starts).follow follows)⟩

/-- `addEvent` fails, and `connect` returns `0` while the attempt is in progress. -/
theorem not_truthful : ¬ ∀ s, connectMachine.Reachable s → s.Truthful := by
  intro truthful
  have starts : connectMachine.init (.start none) :=
    ⟨.create true, none, rfl, rfl⟩
  have follows : connectMachine.Follows (fun _ _ => True) (.start none)
      [.call .inProgress, .arm, .addEvent false, .cancelTimer, .getsockopt (some 0)] := by
    decide
  have told := truthful _ (Machine.reachable_after starts follows)
  exact absurd told (by decide)

end CoroutineService.Hook
