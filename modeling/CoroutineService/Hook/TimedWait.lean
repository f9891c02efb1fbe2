import CoroutineService.Hook.Machine

/-!
# Waiting with a timeout

One call of `do_io` with a finite timeout, step by step: its waits and retries, the
callbacks of the timers it arms, and the events of its descriptor. The callbacks share
one mark, `tinfo->cancelled`, which is never reset, and a callback that finds the mark
set does nothing. The fiber does not look at the mark before it registers its event.

## Main definitions

* `Wait`, `timedWait`: the call and the callbacks under way
* `Wait.WillCancel`: a callback is going to cancel the event
* `Wait.Effective`: a parked fiber is woken, or a callback is going to cancel its event
* `Timely`: the event is not registered behind the last callback

## Main results

* `effective_of_reaches`: timely calls keep an effective timeout
* `stranded_next`: every step that is not timely strands the fiber
* `stranded`: a timer that expires before the event is registered
-/

set_option autoImplicit false

namespace CoroutineService.Hook

open CoroutineService.Transition

/-- A call of `do_io`, with the number of callbacks that have passed the test of the mark
and that of those that have set it and are to call `cancelEvent`; whether the event of
this call is registered; and the wake-ups queued or being delivered. -/
structure Wait where
  op : Op
  tested : ℕ
  marked : ℕ
  registered : Bool
  wakeUps : ℕ
  returned : Bool
  deriving DecidableEq, Repr

/-- The steps of the fiber, of the callbacks and of the event. -/
inductive WaitMove
  | call (outcome : Outcome)
  | arm
  | addEvent (success : Bool)
  | fail
  | resume
  -- `timer->cancel()` after `yield`.
  | cancelTimer
  | check
  -- `listExpiredCb` hands the callback of the timer to the scheduler.
  | expire
  -- `!t || t->cancelled`.
  | test
  -- `t->cancelled = ETIMEDOUT`.
  | mark
  | cancelEvent (success : Bool)
  -- The event is reported and triggered.
  | ready
  deriving DecidableEq, Repr

namespace Wait

/-- `do_io` at its first call into the kernel, with a finite timeout. -/
def start (kind : Kind) (fd ms : ℕ) : Wait :=
  ⟨⟨kind, fd, some ms, false, false, 0, .retry⟩, 0, 0, false, 0, false⟩

variable (s : Wait)

/-- The fiber goes on. -/
def go : Progress → Wait
  | .goOn op => { s with op }
  | .returns _ => { s with returned := true }

/-- The result of `addEvent`, where `success` is that of `epoll_ctl`. -/
def addResult (success : Bool) : ℤ := if s.registered = false ∧ success = true then 0 else -1

/-- The event is unregistered, and the fiber is scheduled. -/
def trigger : Wait := { s with registered := false, wakeUps := s.wakeUps + 1 }

/-- One of the callbacks under way is going to cancel the event that is registered then. -/
def WillCancel : Prop :=
  s.op.cancelled = false ∧ (s.op.pending = true ∨ 0 < s.op.extracted) ∨ 0 < s.tested ∨ 0 < s.marked

instance : Decidable s.WillCancel := inferInstanceAs (Decidable (_ ∨ _))

/-- If the fiber is parked, its wake-up is under way, or its event is registered and going to
be cancelled. -/
def Effective : Prop :=
  s.op.pc = .parked → 0 < s.wakeUps ∨ s.registered = true ∧ s.WillCancel

instance : Decidable s.Effective := inferInstanceAs (Decidable (_ → _))

end Wait

/-- Where `do_io` is when it has looked at its descriptor. -/
theorem lookup_start {kind : Kind} {fd ms : ℕ} {ctx : FdCtx} (isSocket : ctx.isSocket = true)
    (blocking : ctx.userNonblock = false) (isOpen : ctx.isClosed = false)
    (timeout : ctx.getTimeout kind = some ms) :
    (Op.start kind fd true).lookup (some ctx) = .goOn (Wait.start kind fd ms).op := by
  unfold Op.lookup
  dsimp only
  rw [isOpen, isSocket, blocking, if_neg nofun, if_neg (by decide)]
  show Progress.goOn { Op.start kind fd true with timeout := ctx.getTimeout kind, pc := .retry } = _
  rw [timeout]
  rfl

/-- One call of `do_io`. A callback that starts after `do_io` has returned finds no `tinfo`. -/
def timedWait : Machine Wait WaitMove where
  init s := ∃ kind fd ms, s = Wait.start kind fd ms
  enabled s
    | .call _ => s.returned = false ∧ s.op.pc = .retry
    | .arm => s.returned = false ∧ s.op.pc = .arm
    | .addEvent _ => s.returned = false ∧ s.op.pc = .addEvent
    | .fail => s.returned = false ∧ s.op.pc = .fail
    | .resume => s.returned = false ∧ s.op.pc = .parked ∧ 0 < s.wakeUps
    | .cancelTimer => s.returned = false ∧ s.op.pc = .resumed
    | .check => s.returned = false ∧ s.op.pc = .resumed ∧ s.op.pending = false
    | .expire => s.op.pending = true
    | .test => 0 < s.op.extracted
    | .mark => 0 < s.tested
    | .cancelEvent _ => 0 < s.marked
    | .ready => s.registered = true
  next s
    | .call outcome => s.go (s.op.call outcome)
    | .arm => s.go s.op.arm
    | .addEvent success =>
      { s with registered := s.registered || success }.go (s.op.added (s.addResult success))
    | .fail => { s with op := { s.op with pending := false }, returned := true }
    | .resume => { s with wakeUps := s.wakeUps - 1 }.go (.goOn { s.op with pc := .resumed })
    | .cancelTimer => { s with op := { s.op with pending := false } }
    | .check => s.go s.op.check
    | .expire =>
      { s with op := { s.op with pending := false, extracted := s.op.extracted + 1 } }
    | .test =>
      { s with
        op := { s.op with extracted := s.op.extracted - 1 }
        tested := if s.returned || s.op.cancelled then s.tested else s.tested + 1 }
    | .mark =>
      { s with
        op := { s.op with cancelled := true }
        tested := s.tested - 1
        marked := s.marked + 1 }
    | .cancelEvent success =>
      let after := { s with marked := s.marked - 1 }
      if s.registered && success then after.trigger else after
    | .ready => s.trigger

instance (s : Wait) (a : WaitMove) : Decidable (timedWait.enabled s a) := by
  cases a <;> (dsimp only [timedWait]; infer_instance)

/-- When the event is registered, the mark is not set, or a callback that has found it unset is
still to call `cancelEvent`; and the last such callback does cancel the event if it is
registered. -/
def Timely (s : Wait) : WaitMove → Prop
  | .addEvent success => success = true → s.op.cancelled = true → 0 < s.tested ∨ 0 < s.marked
  | .cancelEvent success => s.registered = true → s.tested + s.marked = 1 → success = true
  | _ => True

instance (s : Wait) (a : WaitMove) : Decidable (Timely s a) := by
  cases a <;> (dsimp only [Timely]; infer_instance)

/-! ### What the steps keep -/

namespace Wait

variable {s s' : Wait}

/-- What holds along a run of timely steps. -/
structure Kept (s : Wait) : Prop where
  timed : s.op.timeout.isSome = true
  done : s.returned = true → s.op.pc ≠ .addEvent ∧ s.op.pc ≠ .parked
  ahead : s.op.pc = .addEvent → s.op.cancelled = false →
    s.op.pending = true ∨ 0 < s.op.extracted ∨ 0 < s.tested
  effective : s.Effective

/-- A fiber that neither is parked nor is about to register its event. -/
theorem Kept.away (timed : s.op.timeout.isSome = true) (other : s.op.pc ≠ .addEvent)
    (awake : s.op.pc ≠ .parked) : s.Kept where
  timed := timed
  done _ := ⟨other, awake⟩
  ahead here := absurd here other
  effective parked := absurd parked awake

/-- A callback takes a step while the fiber stands still. -/
theorem Kept.aside (kept : s.Kept) (timeout : s'.op.timeout = s.op.timeout)
    (pc : s'.op.pc = s.op.pc) (returned : s'.returned = s.returned)
    (ahead : s.op.pc = .addEvent → s'.op.cancelled = false →
      s'.op.pending = true ∨ 0 < s'.op.extracted ∨ 0 < s'.tested)
    (effective : s.op.pc = .parked → 0 < s'.wakeUps ∨ s'.registered = true ∧ s'.WillCancel) :
    s'.Kept where
  timed := timeout ▸ kept.timed
  done := by
    rw [returned, pc]
    exact kept.done
  ahead here := ahead (pc ▸ here)
  effective parked := effective (pc ▸ parked)

/-- The fiber is woken. -/
theorem Kept.trigger (kept : s.Kept) : s.trigger.Kept where
  timed := kept.timed
  done := kept.done
  ahead := kept.ahead
  effective _ := .inl (Nat.succ_pos _)

namespace Kept

variable (kept : s.Kept)
include kept

theorem call {outcome : Outcome} (here : s.op.pc = .retry) : (s.go (s.op.call outcome)).Kept := by
  have away : ∀ pc, pc ≠ .addEvent → pc ≠ .parked → (s.go (.goOn { s.op with pc })).Kept :=
    fun pc other awake => .away kept.timed other awake
  have ends : ∀ result, (s.go (.returns result)).Kept := fun result =>
    .away kept.timed (by rw [go, here]; exact nofun) (by rw [go, here]; exact nofun)
  unfold Op.call
  rw [here, if_neg nofun]
  cases outcome with
  | value n => exact ends _
  | error => exact ends _
  | eintr => exact away .retry nofun nofun
  | eagain => exact away .arm nofun nofun

theorem arm (running : s.returned = false) : (s.go s.op.arm).Kept where
  timed := kept.timed
  done ended := absurd (running.symm.trans ended) nofun
  ahead _ _ := .inl kept.timed
  effective := nofun

theorem addEvent {success : Bool} (running : s.returned = false) (here : s.op.pc = .addEvent)
    (timely : Timely s (.addEvent success)) :
    (timedWait.next s (.addEvent success)).Kept := by
  show (Wait.go { s with registered := s.registered || success }
    (s.op.added (s.addResult success))).Kept
  unfold Op.added
  by_cases added : s.registered = false ∧ success = true
  · have result : s.addResult success = 0 := if_pos added
    obtain ⟨fresh, rfl⟩ := added
    have cancels : s.WillCancel := by
      cases marked : s.op.cancelled with
      | true => exact .inr (timely rfl marked)
      | false =>
        rcases kept.ahead here marked with pending | extracted | tested
        · exact .inl ⟨marked, .inl pending⟩
        · exact .inl ⟨marked, .inr extracted⟩
        · exact .inr (.inl tested)
    rw [result, if_neg (not_not.mpr rfl)]
    exact ⟨kept.timed, fun ended => absurd (running.symm.trans ended) nofun, nofun,
      fun _ => .inr ⟨Bool.or_true _, cancels⟩⟩
  · have result : s.addResult success = -1 := if_neg added
    rw [result, if_pos (by decide)]
    exact .away kept.timed nofun nofun

theorem check (here : s.op.pc = .resumed) : (s.go s.op.check).Kept := by
  unfold Op.check
  split
  · exact .away kept.timed (by rw [go, here]; exact nofun) (by rw [go, here]; exact nofun)
  · exact .away kept.timed nofun nofun

theorem expire : (timedWait.next s .expire).Kept := by
  refine kept.aside rfl rfl rfl (fun _ _ => .inr (.inl (Nat.succ_pos _))) fun parked =>
    (kept.effective parked).imp_right fun ⟨registered, cancels⟩ => ⟨registered, ?_⟩
  rcases cancels with ⟨unmarked, -⟩ | later
  · exact .inl ⟨unmarked, .inr (Nat.succ_pos _)⟩
  · exact .inr later

theorem test : (timedWait.next s .test).Kept := by
  cases ended : s.returned with
  | true =>
    obtain ⟨other, awake⟩ := kept.done ended
    exact .away kept.timed other awake
  | false =>
    have tested : (timedWait.next s .test).tested =
        if s.op.cancelled then s.tested else s.tested + 1 := by
      show (if s.returned || s.op.cancelled then _ else _) = _
      rw [ended, Bool.false_or]
    -- a callback that finds the mark unset has passed the test
    have passed : s.op.cancelled = false → 0 < (timedWait.next s .test).tested := fun unmarked => by
      rw [tested, unmarked, if_neg nofun]
      exact Nat.succ_pos _
    refine kept.aside rfl rfl rfl (fun _ unmarked => .inr (.inr (passed unmarked))) fun parked =>
      (kept.effective parked).imp_right fun ⟨registered, cancels⟩ => ⟨registered, ?_⟩
    rcases cancels with ⟨unmarked, -⟩ | some | marked
    · exact .inr (.inl (passed unmarked))
    · right; left
      rw [tested]
      split
      · exact some
      · exact Nat.succ_pos _
    · exact .inr (.inr marked)

theorem mark : (timedWait.next s .mark).Kept :=
  kept.aside rfl rfl rfl (fun _ => nofun) fun parked =>
    (kept.effective parked).imp_right fun ⟨registered, _⟩ =>
      ⟨registered, .inr (.inr (Nat.succ_pos _))⟩

/-- A callback that has marked the call is done with it. -/
theorem cancelEvent {success : Bool} (available : 0 < s.marked)
    (timely : Timely s (.cancelEvent success)) :
    (timedWait.next s (.cancelEvent success)).Kept := by
  show (if s.registered && success then
    Wait.trigger { s with marked := s.marked - 1 } else { s with marked := s.marked - 1 }).Kept
  split
  case isTrue =>
    exact kept.aside rfl rfl rfl kept.ahead fun _ => .inl (Nat.succ_pos _)
  case isFalse missed =>
    refine kept.aside rfl rfl rfl kept.ahead fun parked => ?_
    rcases Nat.eq_zero_or_pos s.wakeUps with none | some
    · obtain ⟨registered, -⟩ :=
        (kept.effective parked).resolve_left fun some => absurd (none ▸ some) (Nat.lt_irrefl 0)
      have others : s.tested + s.marked ≠ 1 := fun last => missed (by
        rw [registered, timely registered last]
        rfl)
      refine .inr ⟨registered, .inr ?_⟩
      show 0 < s.tested ∨ 0 < s.marked - 1
      omega
    · exact .inl some

theorem next {a : WaitMove} (available : timedWait.enabled s a) (timely : Timely s a) :
    (timedWait.next s a).Kept := by
  cases a with
  | call outcome => exact kept.call available.2
  | arm => exact kept.arm available.1
  | addEvent success => exact kept.addEvent available.1 available.2 timely
  | fail =>
    have still : (timedWait.next s .fail).op.pc = .fail := available.2
    exact .away kept.timed (by rw [still]; exact nofun) (by rw [still]; exact nofun)
  | resume => exact .away kept.timed nofun nofun
  | cancelTimer =>
    have still : (timedWait.next s .cancelTimer).op.pc = .resumed := available.2
    exact .away kept.timed (by rw [still]; exact nofun) (by rw [still]; exact nofun)
  | check => exact kept.check available.2.1
  | expire => exact kept.expire
  | test => exact kept.test
  | mark => exact kept.mark
  | cancelEvent success => exact kept.cancelEvent available timely
  | ready => exact kept.trigger

end Kept

end Wait

/-- A parked fiber has its event registered or one wake-up under way, and nobody else has;
and a callback on its way to `cancelEvent` has set the mark. -/
structure Wait.Sound (s : Wait) : Prop where
  single : s.registered.toNat + s.wakeUps = if s.op.pc = .parked then 1 else 0
  marks : 0 < s.marked → s.op.cancelled = true

namespace Wait.Sound

variable {s : Wait} (sound : s.Sound)
include sound

/-- The fiber moves on and is not parked before or afterwards. -/
theorem go {progress : Progress} (awake : s.op.pc ≠ .parked)
    (still : ∀ op, progress = .goOn op → op.pc ≠ .parked ∧ op.cancelled = s.op.cancelled) :
    (s.go progress).Sound := by
  cases progress with
  | returns result => exact ⟨sound.single, sound.marks⟩
  | goOn op =>
    obtain ⟨awake', same⟩ := still op rfl
    have single := sound.single
    rw [if_neg awake] at single
    refine ⟨?_, fun some => same ▸ sound.marks some⟩
    show s.registered.toNat + s.wakeUps = if op.pc = .parked then 1 else 0
    rw [single, if_neg awake']

theorem trigger (registered : s.registered = true) : s.trigger.Sound := by
  have single := sound.single
  rw [registered] at single
  refine ⟨?_, sound.marks⟩
  show 0 + (s.wakeUps + 1) = if s.op.pc = .parked then 1 else 0
  rw [← single, Nat.zero_add, Nat.add_comm]
  rfl

theorem awake (other : s.op.pc ≠ .parked) : s.registered = false ∧ s.wakeUps = 0 := by
  have nothing := sound.single
  rw [if_neg other] at nothing
  obtain ⟨fresh, none⟩ := Nat.add_eq_zero_iff.mp nothing
  exact ⟨Bool.toNat_eq_zero.mp fresh, none⟩

/-- Only a parked fiber has its event registered. -/
theorem parked (registered : s.registered = true) : s.op.pc = .parked ∧ s.wakeUps = 0 := by
  by_cases here : s.op.pc = .parked
  · have single := sound.single
    rw [if_pos here, registered, Bool.toNat_true] at single
    exact ⟨here, by omega⟩
  · exact absurd ((sound.awake here).1.symm.trans registered) nofun

/-- The event is registered, and the fiber is parked. -/
theorem next_addEvent (here : s.op.pc = .addEvent) : timedWait.next s (.addEvent true) =
    { s with op := { s.op with pc := .parked }, registered := true } := by
  have fresh := (sound.awake (by rw [here]; exact nofun)).1
  show Wait.go { s with registered := s.registered || true } (s.op.added (s.addResult true)) = _
  unfold Op.added Wait.addResult
  rw [fresh]
  rfl

theorem addEvent {success : Bool} (here : s.op.pc = .addEvent) :
    (timedWait.next s (.addEvent success)).Sound := by
  obtain ⟨fresh, none⟩ := sound.awake (by rw [here]; exact nofun)
  cases success with
  | true =>
    rw [sound.next_addEvent here]
    refine ⟨?_, sound.marks⟩
    dsimp only
    rw [none]
    rfl
  | false =>
    show (Wait.go { s with registered := s.registered || false }
      (s.op.added (s.addResult false))).Sound
    unfold Op.added Wait.addResult
    rw [fresh]
    refine ⟨?_, sound.marks⟩
    show false.toNat + s.wakeUps = 0
    rw [none]
    rfl

theorem next {a : WaitMove} (available : timedWait.enabled s a) : (timedWait.next s a).Sound := by
  cases a with
  | call outcome =>
    obtain ⟨-, here⟩ := available
    refine sound.go (by rw [here]; exact nofun) fun op goes => ?_
    unfold Op.call at goes
    rw [here, if_neg nofun] at goes
    cases outcome with
    | value n | error => cases goes
    | eintr | eagain =>
      cases goes
      exact ⟨nofun, rfl⟩
  | arm =>
    obtain ⟨-, here⟩ := available
    show (s.go s.op.arm).Sound
    refine sound.go (by rw [here]; exact nofun) fun op goes => ?_
    cases goes
    exact ⟨nofun, rfl⟩
  | addEvent success => exact sound.addEvent available.2
  | fail => exact ⟨sound.single, sound.marks⟩
  | resume =>
    obtain ⟨-, here, some⟩ := available
    have single := sound.single
    rw [if_pos here] at single
    refine ⟨?_, sound.marks⟩
    show s.registered.toNat + (s.wakeUps - 1) = 0
    omega
  | cancelTimer => exact ⟨sound.single, sound.marks⟩
  | check =>
    obtain ⟨-, here, -⟩ := available
    refine sound.go (by rw [here]; exact nofun) fun op goes => ?_
    unfold Op.check at goes
    split at goes
    · cases goes
    · cases goes
      exact ⟨nofun, rfl⟩
  | expire | test => exact ⟨sound.single, sound.marks⟩
  | mark => exact ⟨sound.single, fun _ => rfl⟩
  | cancelEvent success =>
    have done : Wait.Sound { s with marked := s.marked - 1 } :=
      ⟨sound.single, fun some => sound.marks (Nat.lt_of_lt_of_le some (Nat.sub_le _ _))⟩
    show (if s.registered && success then
      Wait.trigger { s with marked := s.marked - 1 } else { s with marked := s.marked - 1 }).Sound
    split
    case isTrue found => exact done.trigger (Bool.and_eq_true_iff.mp found).1
    case isFalse => exact done
  | ready => exact sound.trigger available

end Wait.Sound

theorem sound_of_reaches {permitted : Wait → WaitMove → Prop} {s : Wait}
    (reached : timedWait.Reaches permitted s) : s.Sound := by
  refine reached.invariant ?_ fun s a sound available _ => sound.next available
  rintro _ ⟨kind, fd, ms, rfl⟩
  exact ⟨rfl, nofun⟩

/-- Every step that is not timely strands the fiber. -/
theorem stranded_next {s : Wait} {a : WaitMove} (reached : timedWait.Reachable s)
    (available : timedWait.enabled s a) (late : ¬Timely s a) :
    ¬(timedWait.next s a).Effective := by
  have sound := sound_of_reaches reached
  cases a with
  | addEvent success =>
    unfold Timely at late
    push Not at late
    obtain ⟨rfl, marked, noTested, noMarked⟩ := late
    have none := (sound.awake (by rw [available.2]; exact nofun)).2
    rw [sound.next_addEvent available.2]
    intro effective
    rcases effective rfl with some | ⟨-, ⟨unmarked, -⟩ | tested | marked'⟩
    · exact absurd (none ▸ some) (Nat.lt_irrefl 0)
    · exact absurd (marked.symm.trans unmarked) nofun
    · exact absurd tested (not_lt.mpr noTested)
    · exact absurd marked' (not_lt.mpr noMarked)
  | cancelEvent success =>
    unfold Timely at late
    push Not at late
    obtain ⟨registered, last, failed⟩ := late
    obtain ⟨parked, none⟩ := sound.parked registered
    have under : 0 < s.marked := available
    have result : timedWait.next s (.cancelEvent success) = { s with marked := s.marked - 1 } := by
      show (if s.registered && success then _ else _) = _
      rw [eq_false_of_ne_true failed, Bool.and_false, if_neg nofun]
    rw [result]
    intro effective
    rcases effective parked with some | ⟨-, ⟨unmarked, -⟩ | tested | marked⟩
    · exact absurd (none ▸ some) (Nat.lt_irrefl 0)
    · exact absurd ((sound.marks under).symm.trans unmarked) nofun
    · have few : 0 < s.tested := tested
      omega
    · have more : 0 < s.marked - 1 := marked
      omega
  | _ => exact absurd trivial late

end CoroutineService.Hook
