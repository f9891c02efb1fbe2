import CoroutineService.IOManager.Pool
import CoroutineService.Scheduler.IdleFibers

/-!
# Timers wake a worker

A worker sleeps in `epoll_wait` until the deadline that was the earliest when it looked. When a
timer is inserted at the front, `tickle()` writes a byte, unless no worker is idle, and unless
`m_tickled` says that this has been done and nobody has looked since. So the workers that sleep
are covered: by a thread that is still about to tell, by a byte in the pipe, or by a worker that
is going to look at the timers before it sleeps.

## Main definitions

* `Overslept`: all workers sleep until a deadline that is not the earliest any more
* `Covered`: somebody is going to look at the timers
* `Attentive`: who sleeps too long is covered

## Main results

* `not_overslept_of_reaches`: nobody oversleeps as long as deadlines do not overflow
* `oversleeps`: a timer is refreshed beyond 64 bits
-/

set_option autoImplicit false

namespace CoroutineService.IOManager

open CoroutineService.Scheduler CoroutineService.Timers CoroutineService.Transition

variable {Tid Fib Cb : Type*}

/-- Every worker in `run` sleeps until a deadline later than the earliest, no byte is in the
pipe, and no thread is about to write one for a timer. -/
def Overslept (workers : Finset Tid) (s : Pool Tid Fib Cb) : Prop :=
  (∃ w ∈ workers, (s.sched.phase w).inRun = true) ∧
    (∀ w ∈ workers, (s.sched.phase w).inRun = true →
      s.sched.phase w = .blocked ∧ s.timers.manager.earliest < s.deadline w) ∧
    s.sched.unread = 0 ∧ ∀ p, s.inserting p = false

/-- The worker is going to compute a timeout before it sleeps. -/
structure Pool.Refreshes (s : Pool Tid Fib Cb) (w : Tid) : Prop where
  going : s.sched.idleEnded w = false
  inRun : (s.sched.phase w).inRun = true
  unsettled : (s.sched.phase w).settled = false
  outside : s.reads w = .outside

/-- Some worker holds a timeout. -/
def Pool.Settled (workers : Finset Tid) (s : Pool Tid Fib Cb) : Prop :=
  ∃ w ∈ workers, (s.sched.phase w).settled = true

/-- A thread is about to tell, or has told, or a worker is going to look at the timers. -/
def Covered (workers : Finset Tid) (s : Pool Tid Fib Cb) : Prop :=
  (∃ p, s.inserting p = true) ∨ 0 < s.sched.unread ∨ ∃ w ∈ workers, s.Refreshes w

/-- When workers hold timeouts, `m_tickled` says that they are covered; and they are, or one of
the timeouts is short enough. -/
structure Attentive (workers : Finset Tid) (s : Pool Tid Fib Cb) : Prop where
  told : s.timers.manager.tickled = true → s.Settled workers → Covered workers s
  short : s.Settled workers → Covered workers s ∨ ∃ w ∈ workers,
    (s.sched.phase w).settled = true ∧ s.deadline w ≤ s.timers.manager.earliest

/-- The readings of the clock so far. -/
def readRecord (_ : Pool Tid Fib Cb) (a : PoolMove Tid Fib Cb) (past : List ℤ) : List ℤ :=
  (timersMove a).elim past fun b => readings b ++ past

/-- Deadlines are pairwise distinct, and the readings of the clock do not decrease. -/
def Regular (q : Pool Tid Fib Cb × List ℤ) (a : PoolMove Tid Fib Cb) : Prop :=
  q.1.timers.manager.DistinctTimes ∧ ∀ b ∈ timersMove a, Ticks q.2 b

/-- No timer is put back without a word at a deadline that does not fit. -/
def Fits (s : Pool Tid Fib Cb) (a : PoolMove Tid Fib Cb) : Prop :=
  ∀ b ∈ timersMove a, NoOverflow s.timers.manager b

variable [DecidableEq Tid] [DecidableEq Fib]

instance (q : Pool Tid Fib Cb × List ℤ) (a : PoolMove Tid Fib Cb) : Decidable (Regular q a) :=
  inferInstanceAs (Decidable (_ ∧ _))

instance (s : Pool Tid Fib Cb) (a : PoolMove Tid Fib Cb) : Decidable (Fits s a) :=
  inferInstanceAs (Decidable (∀ b ∈ timersMove a, _))

instance [Fintype Tid] [DecidableEq Cb] (workers : Finset Tid) (s : Pool Tid Fib Cb) :
    Decidable (Overslept workers s) :=
  inferInstanceAs (Decidable (_ ∧ _ ∧ _ ∧ _))

variable {workers : Finset Tid} {s t : Pool Tid Fib Cb} {a : PoolMove Tid Fib Cb} {w : Tid}

theorem reading_next (reading : ∀ w, s.reads w ≠ .outside → s.sched.phase w = .idleTop)
    (available : (pool workers).enabled s a) :
    ∀ w, ((pool workers).next s a).reads w ≠ .outside →
      ((pool workers).next s a).sched.phase w = .idleTop := by
  -- a worker moves on to `arming` or ends its idle fiber when its reads are over
  have leaves : ∀ w v quiet, v ≠ w → s.reads v ≠ .outside →
      (Scheduler.next s.sched (.checkStopping w quiet)).phase v = .idleTop := by
    intro w v quiet other inside
    have apart : (Move.checkStopping w quiet : Scheduler.Move Tid Fib Cb).worker ≠ some v :=
      fun same => other (Option.some_inj.mp same).symm
    rw [phase_next_of_ne apart]
    exact reading v inside
  have enters : ∀ w value v, s.sched.phase w = .idleTop → (s.read w value).reads v ≠ .outside →
      s.sched.phase v = .idleTop := by
    intro w value v stands inside
    by_cases here : v = w
    · exact here ▸ stands
    · refine reading v fun outside => inside ?_
      exact (Function.update_of_ne here _ _).trans outside
  -- A worker that has read its last is not among those that read.
  have apart : ∀ w v, (s.read w .outside).reads v ≠ .outside → v ≠ w ∧ s.reads v ≠ .outside := by
    intro w v inside
    have here : v ≠ w := fun here => inside (here ▸ Function.update_self _ _ _)
    exact ⟨here, fun outside => inside ((Function.update_of_ne here _ _).trans outside)⟩
  intro v inside
  cases a with
  | sched a =>
    refine idleTop_next available.1.2 ?_ (reading v inside)
    rintro w quiet rfl
    exact absurd available.2.1 nofun
  | timers p a =>
    revert inside
    dsimp only [pool]
    split
    · exact reading v
    · exact reading v
  | listExpiredCb w now now' rounds | scheduleExpired w | addEvent p | endEvent p =>
    exact reading v inside
  | readTimers w =>
    obtain ⟨⟨-, -, stands⟩, before⟩ := available
    revert inside
    dsimp only [pool]
    split
    · exact enters w .timers v stands
    · exact fun inside => leaves w v false (fun here => inside (here ▸ before)) inside
  | readPending w =>
    obtain ⟨⟨-, -, stands⟩, before⟩ := available
    revert inside
    dsimp only [pool]
    split
    · exact enters w .pending v stands
    · exact fun inside => leaves w v false (apart w v inside).1 (apart w v inside).2
  | readQueue w => exact leaves w v true (apart w v inside).1 (apart w v inside).2
  | computeTimeout w => exact idleTop_next available.2 nofun (reading v inside)

/-- The reads of `stopping()` are made there. -/
theorem reading_of_reachable (reached : (pool workers).Reachable s) :
    ∀ w, s.reads w ≠ .outside → s.sched.phase w = .idleTop := by
  refine reached.invariant (I := fun s => ∀ w, s.reads w ≠ .outside → s.sched.phase w = .idleTop)
    ?_ fun s a reading available _ => reading_next reading available
  rintro _ ⟨now, rfl⟩ w inside
  exact absurd rfl inside

/-! ### Who is covered -/

omit [DecidableEq Tid] [DecidableEq Fib] in
theorem Covered.congr (covered : Covered workers s) (sched : t.sched = s.sched)
    (reads : t.reads = s.reads) (inserting : t.inserting = s.inserting) :
    Covered workers t := by
  rcases covered with ⟨p, inserts⟩ | bytes | ⟨w, member, going, inRun, unsettled, outside⟩
  · exact .inl ⟨p, inserting ▸ inserts⟩
  · exact .inr (.inl (sched ▸ bytes))
  · exact .inr (.inr ⟨w, member, sched ▸ going, sched ▸ inRun, sched ▸ unsettled, reads ▸ outside⟩)

omit [DecidableEq Tid] [DecidableEq Fib] in
theorem attentive_of_covered (covered : Covered workers s) : Attentive workers s :=
  ⟨fun _ _ => covered, fun _ => .inl covered⟩

omit [DecidableEq Tid] [DecidableEq Fib] in
theorem attentive_of_not_settled (none : ¬s.Settled workers) : Attentive workers s :=
  ⟨fun _ some => absurd some none, fun some => absurd some none⟩

/-- A worker that is going to look at the timers still is after a step of another kind. -/
theorem Pool.Refreshes.next (refreshes : s.Refreshes w) {b : Scheduler.Move Tid Fib Cb}
    (available : guard workers s.sched b) (other : ∀ v, b ≠ .computeTimeout v)
    (sched : t.sched = Scheduler.next s.sched b) (going : t.sched.idleEnded w = false)
    (outside : t.reads w = .outside) : t.Refreshes w where
  going := going
  inRun := by
    rw [sched]
    exact inRun_next available refreshes.going refreshes.inRun
  unsettled := by
    rw [sched]
    by_contra settled
    have before := settled_next available other (eq_true_of_ne_false settled)
    exact absurd (refreshes.unsettled.symm.trans before) nofun
  outside := outside

namespace Attentive

omit [DecidableEq Tid] [DecidableEq Fib] in
/-- A step by which no worker settles, no cover is lost, and the earliest deadline is not
earlier than before; workers that wake up cover the others. -/
theorem frame (attentive : Attentive workers s)
    (settled : ∀ w, (t.sched.phase w).settled = true → (s.sched.phase w).settled = true)
    (covers : Covered workers s → Covered workers t)
    (wakes : ∀ w ∈ workers, (s.sched.phase w).settled = true →
      (t.sched.phase w).settled = true ∨ Covered workers t)
    (same : t.deadline = s.deadline)
    (later : s.timers.manager.earliest ≤ t.timers.manager.earliest)
    (told : t.timers.manager.tickled = true → s.timers.manager.tickled = true) :
    Attentive workers t where
  told tickled := fun ⟨w, member, holds⟩ =>
    covers (attentive.told (told tickled) ⟨w, member, settled w holds⟩)
  short := fun ⟨w, member, holds⟩ => by
    rcases attentive.short ⟨w, member, settled w holds⟩ with covered | ⟨v, member', holdt, le⟩
    · exact .inl (covers covered)
    · rcases wakes v member' holdt with still | covered
      · exact .inr ⟨v, member', still, same ▸ le.trans later⟩
      · exact .inl covered

/-- A step of a worker or a thread that neither settles nor empties the pipe. -/
theorem perform (attentive : Attentive workers s)
    (consistent : Consistent s.sched.phase s.sched.idleEnded)
    (reading : ∀ w, s.reads w ≠ .outside → s.sched.phase w = .idleTop)
    {b : Scheduler.Move Tid Fib Cb} (available : guard workers s.sched b)
    (settles : ∀ v, b ≠ .computeTimeout v) (drains : ∀ v, b ≠ .drain v)
    (sched : t.sched = Scheduler.next s.sched b)
    (kept : ∀ v, s.reads v = .outside →
      t.reads v = .outside ∧ t.sched.idleEnded v = s.sched.idleEnded v)
    (inserting : ∀ p, s.inserting p = true → t.inserting p = true)
    (same : t.deadline = s.deadline)
    (later : s.timers.manager.earliest ≤ t.timers.manager.earliest)
    (told : t.timers.manager.tickled = true → s.timers.manager.tickled = true) :
    Attentive workers t := by
  refine attentive.frame (fun w holds => ?_) (fun covered => ?_) (fun w member holds => ?_) same
    later told
  · rw [sched] at holds
    exact settled_next available settles holds
  · rcases covered with ⟨p, inserts⟩ | bytes | ⟨w, member, refreshes⟩
    · exact .inl ⟨p, inserting p inserts⟩
    · refine .inr (.inl (bytes.trans_le ?_))
      rw [sched]
      exact unread_next drains
    · obtain ⟨outside, ended⟩ := kept w refreshes.outside
      exact .inr (.inr ⟨w, member,
        refreshes.next available settles sched (ended.trans refreshes.going) outside⟩)
  · cases still : (t.sched.phase w).settled with
    | true => exact .inl rfl
    | false =>
      -- the worker has woken up
      have outside : s.reads w = .outside := by
        by_contra inside
        rw [reading w inside] at holds
        cases holds
      have going : s.sched.idleEnded w = false := (consistent w).1 (loops_of_settled holds)
      obtain ⟨outside', ended⟩ := kept w outside
      refine .inr (.inr (.inr ⟨w, member, ended.trans going, ?_, still, outside'⟩))
      rw [sched]
      exact inRun_next available going (inRun_of_settled holds)

omit [DecidableEq Tid] [DecidableEq Fib] in
/-- Nobody oversleeps. -/
theorem not_overslept (attentive : Attentive workers s) : ¬Overslept workers s := by
  rintro ⟨⟨w, member, runs⟩, asleep, empty, silent⟩
  have uncovered : ¬Covered workers s := by
    rintro (⟨p, inserting⟩ | bytes | ⟨v, member', refreshes⟩)
    · exact absurd ((silent p).symm.trans inserting) nofun
    · exact absurd empty bytes.ne'
    · have stands := (asleep v member' refreshes.inRun).1
      have unsettled := refreshes.unsettled
      rw [stands] at unsettled
      cases unsettled
  have settled : s.Settled workers := ⟨w, member, by rw [(asleep w member runs).1]; rfl⟩
  obtain ⟨v, member', holds, le⟩ := (attentive.short settled).resolve_left uncovered
  exact absurd (asleep v member' (inRun_of_settled holds)).2 le.not_gt

end Attentive

/-! ### Runs -/

namespace Attentive

variable {past : List ℤ}

omit [DecidableEq Fib] in
/-- A locked section that does not tell of a timer. -/
theorem locked (attentive : Attentive workers s) {b : SharedMove Tid Cb}
    (placed : Placed s.timers) (started : Started past s.timers.manager)
    (available : sharedTimers.enabled s.timers b) (distinct : s.timers.manager.DistinctTimes)
    (ticks : Ticks past b) (fits : NoOverflow s.timers.manager b)
    (quiet : atFront s.timers b = false) : Attentive workers (s.locked b) := by
  rcases earliest_next placed started available distinct ticks fits quiet with
    ⟨told, -⟩ | ⟨later, told⟩
  · have covers : s.Settled workers → Covered workers (s.locked b) := fun settled =>
      (attentive.told told settled).congr rfl rfl rfl
    exact ⟨fun _ => covers, fun settled => .inl (covers settled)⟩
  · exact attentive.frame (t := s.locked b) (fun _ => id) (fun covered => covered.congr rfl rfl rfl)
      (fun _ _ => .inl) rfl later told

/-- A step of the scheduler. -/
theorem sched (attentive : Attentive workers s)
    (counted : s.sched.idleThreadCount = census workers Phase.idle s.sched.phase)
    (consistent : Consistent s.sched.phase s.sched.idleEnded)
    (reading : ∀ w, s.reads w ≠ .outside → s.sched.phase w = .idleTop)
    {b : Scheduler.Move Tid Fib Cb} (available : guard workers s.sched b)
    (other : looksAtTimers b = false) : Attentive workers ((pool workers).next s (.sched b)) := by
  have settles : ∀ v, b ≠ .computeTimeout v := by
    rintro v rfl
    cases other
  have kept : ∀ v, s.reads v = .outside → s.reads v = .outside ∧
      (Scheduler.next s.sched b).idleEnded v = s.sched.idleEnded v := by
    refine fun v outside => ⟨outside, ?_⟩
    rw [Scheduler.idleEnded_next]
    rintro w rfl
    cases other
  have step : (∀ w, b ≠ .drain w) → (∀ p, s.inserting p = true → s.stillInserting b p = true) →
      Attentive workers ((pool workers).next s (.sched b)) := fun drains inserting =>
    attentive.perform (t := (pool workers).next s (.sched b)) consistent reading available settles
      drains rfl kept inserting rfl le_rfl id
  cases b with
  | hasIdleThreads p push =>
    by_cases some : s.sched.idleThreadCount > 0
    · refine step nofun fun q inserts => ?_
      dsimp only [Pool.stillInserting]
      rwa [if_pos some]
    · -- nobody is told, and nobody has a timeout
      refine attentive_of_not_settled ?_
      rintro ⟨w, member, settled⟩
      have outside := census_eq_zero_iff.mp (counted.symm.trans (Nat.eq_zero_of_not_pos some)) w
        member
      have inside : (s.sched.phase w).idle = true := idle_of_settled settled
      exact absurd (outside.symm.trans inside) nofun
  | writePipe p push => exact attentive_of_covered (.inr (.inl (Nat.succ_pos _)))
  | drain w =>
    obtain ⟨member, -, stands⟩ := available
    have moved : ((pool workers).next s (.sched (.drain w))).sched.phase w = .woken false :=
      Function.update_self _ _ _
    refine attentive_of_covered (.inr (.inr ⟨w, member, ?_, ?_, ?_, ?_⟩))
    · exact (consistent w).1 (by rw [stands]; rfl)
    · rw [moved]
      rfl
    · rw [moved]
      rfl
    · by_contra inside
      exact absurd (stands.symm.trans (reading w inside)) nofun
  | _ => exact step nofun fun _ => id

omit [DecidableEq Tid] [DecidableEq Fib] in
/-- What a step leaves alone. -/
theorem congr (attentive : Attentive workers s) (sched : t.sched = s.sched)
    (reads : t.reads = s.reads) (inserting : t.inserting = s.inserting)
    (deadline : t.deadline = s.deadline) (timers : t.timers = s.timers) :
    Attentive workers t := by
  refine attentive.frame (fun w => sched ▸ id) (fun covered => covered.congr sched reads inserting)
    (fun w _ holds => .inl (sched ▸ holds)) deadline (timers ▸ le_rfl) (timers ▸ id)

/-- The reads of `stopping()`. -/
theorem readTimers (attentive : Attentive workers s)
    (consistent : Consistent s.sched.phase s.sched.idleEnded)
    (reading : ∀ w, s.reads w ≠ .outside → s.sched.phase w = .idleTop)
    (available : (pool workers).enabled s (.readTimers w)) :
    Attentive workers ((pool workers).next s (.readTimers w)) := by
  obtain ⟨⟨-, able⟩, -⟩ := available
  dsimp only [pool]
  split
  case isTrue none =>
    -- no timer is left to wait for
    have never : s.timers.manager.earliest = ⊤ := by
      unfold TimerManager.earliest
      rw [none]
    refine ⟨nofun, fun ⟨v, member, holds⟩ => .inr ⟨v, member, holds, ?_⟩⟩
    exact le_top.trans_eq never.symm
  case isFalse =>
    have ended : (Scheduler.next s.sched (.checkStopping w false)).idleEnded = s.sched.idleEnded :=
      Scheduler.idleEnded_next fun _ => nofun
    exact attentive.perform (t := (s.locked .getNextTimer).perform (.checkStopping w false))
      consistent reading able nofun nofun rfl (fun v outside => ⟨outside, congrFun ended v⟩)
      (fun _ => id) rfl le_rfl nofun

theorem readPending (attentive : Attentive workers s)
    (consistent : Consistent s.sched.phase s.sched.idleEnded)
    (reading : ∀ w, s.reads w ≠ .outside → s.sched.phase w = .idleTop)
    (available : (pool workers).enabled s (.readPending w)) :
    Attentive workers ((pool workers).next s (.readPending w)) := by
  obtain ⟨⟨-, able⟩, before⟩ := available
  have elsewhere : ∀ v value, s.reads v = .outside → (s.read w value).reads v = .outside := by
    intro v value outside
    have apart : v ≠ w := by
      rintro rfl
      exact absurd (before.symm.trans outside) nofun
    exact (Function.update_of_ne apart _ _).trans outside
  dsimp only [pool]
  split
  case isTrue =>
    refine attentive.frame (t := s.read w .pending) (fun _ => id) (fun covered => ?_)
      (fun _ _ => .inl) rfl le_rfl id
    rcases covered with inserting | bytes | ⟨v, member, going, inRun, unsettled, outside⟩
    · exact .inl inserting
    · exact .inr (.inl bytes)
    · exact .inr (.inr ⟨v, member, going, inRun, unsettled, elsewhere v .pending outside⟩)
  case isFalse =>
    have ended : (Scheduler.next s.sched (.checkStopping w false)).idleEnded = s.sched.idleEnded :=
      Scheduler.idleEnded_next fun _ => nofun
    exact attentive.perform (t := (s.read w .outside).perform (.checkStopping w false)) consistent
      reading able nofun nofun rfl
      (fun v outside => ⟨elsewhere v .outside outside, congrFun ended v⟩) (fun _ => id) rfl
      le_rfl id

theorem readQueue (attentive : Attentive workers s)
    (consistent : Consistent s.sched.phase s.sched.idleEnded)
    (reading : ∀ w, s.reads w ≠ .outside → s.sched.phase w = .idleTop)
    (available : (pool workers).enabled s (.readQueue w)) :
    Attentive workers ((pool workers).next s (.readQueue w)) := by
  obtain ⟨⟨-, able⟩, before⟩ := available
  refine attentive.perform (t := (s.read w .outside).perform (.checkStopping w true)) consistent
    reading able nofun nofun rfl (fun v outside => ?_) (fun _ => id) rfl le_rfl id
  have apart : v ≠ w := by
    rintro rfl
    exact absurd (before.symm.trans outside) nofun
  refine ⟨(Function.update_of_ne apart _ _).trans outside, ?_⟩
  show (Scheduler.next s.sched (.checkStopping w true)).idleEnded v = s.sched.idleEnded v
  simp only [Scheduler.next]
  split
  · exact Function.update_of_ne apart _ _
  · rfl

/-- Every step keeps the workers covered that sleep too long. -/
theorem next (attentive : Attentive workers s)
    (counted : s.sched.idleThreadCount = census workers Phase.idle s.sched.phase)
    (consistent : Consistent s.sched.phase s.sched.idleEnded)
    (reading : ∀ w, s.reads w ≠ .outside → s.sched.phase w = .idleTop)
    (placed : Placed s.timers) (started : Started past s.timers.manager)
    (available : (pool workers).enabled s a) (regular : Regular (s, past) a) (fits : Fits s a) :
    Attentive workers ((pool workers).next s a) := by
  obtain ⟨distinct, ticks⟩ := regular
  cases a with
  | sched b => exact attentive.sched counted consistent reading available.1.2 available.2.1
  | timers p b =>
    dsimp only [pool]
    split
    case isTrue => exact attentive_of_covered (.inl ⟨p, Function.update_self _ _ _⟩)
    case isFalse quiet =>
      exact attentive.locked placed started available.2.2.2.2 distinct (ticks b rfl) (fits b rfl)
        (eq_false_of_ne_true quiet)
  | listExpiredCb w now now' rounds =>
    have locked := attentive.locked placed started available.2.2.2 distinct (ticks _ rfl)
      (fits _ rfl) rfl
    exact locked.congr rfl rfl rfl rfl rfl
  | scheduleExpired w =>
    exact attentive.perform (t := (pool workers).next s (.scheduleExpired w)) consistent reading
      available.2.2.2.2 nofun nofun rfl (fun _ outside => ⟨outside, rfl⟩) (fun _ => id) rfl
      le_rfl id
  | readTimers w => exact attentive.readTimers consistent reading available
  | readPending w => exact attentive.readPending consistent reading available
  | readQueue w => exact attentive.readQueue consistent reading available
  | computeTimeout w =>
    refine ⟨nofun, fun _ => .inr ⟨w, available.2.1, ?_, ?_⟩⟩
    · show (Function.update s.sched.phase w .armed w).settled = true
      rw [Function.update_self]
      rfl
    · show Function.update s.deadline w s.timers.manager.earliest w ≤ s.timers.manager.earliest
      rw [Function.update_self]
  | addEvent p | endEvent p => exact attentive.congr rfl rfl rfl rfl rfl

end Attentive

/-- Deadlines stay counted from readings of the clock. -/
theorem counted_next {past : List ℤ} (placed : Placed s.timers)
    (started : Started past s.timers.manager) (available : (pool workers).enabled s a)
    (regular : Regular (s, past) a) : Placed ((pool workers).next s a).timers ∧
      Started (readRecord s a past) ((pool workers).next s a).timers.manager := by
  rw [timers_next]
  unfold readRecord
  cases move : timersMove a with
  | none => exact ⟨placed, started⟩
  | some b =>
    have able := timersMove_enabled available move
    exact ⟨placed.next able regular.1, started.next placed able (regular.2 b move)⟩

/-- What is known along a run. -/
structure Known (workers : Finset Tid) (q : Pool Tid Fib Cb × List ℤ) : Prop where
  placed : Placed q.1.timers
  started : Started q.2 q.1.timers.manager
  attentive : Attentive workers q.1

/-- In a run on distinct deadlines in which the clock does not go back and no timer is put back
beyond 64 bits without a word, no worker oversleeps. -/
theorem not_overslept_of_reaches {q : Pool Tid Fib Cb × List ℤ}
    (reached : ((pool workers).observe [] readRecord).Reaches
      (fun q a => Regular q a ∧ Fits q.1 a) q) : ¬Overslept workers q.1 := by
  have known : Known workers q := by
    refine reached.invariant_of (I := Known workers) (J := fun q => (pool workers).Reachable q.1)
      (fun q prior => prior.reachable.reachable_of_observe) ?_ ?_
    · rintro ⟨_, _⟩ ⟨⟨now, rfl⟩, rfl⟩
      refine ⟨Placed.initially, fun t known => absurd known (Nat.not_lt_zero t),
        attentive_of_not_settled ?_⟩
      rintro ⟨w, -, settled⟩
      cases settled
    · rintro ⟨s, past⟩ a before ⟨placed, started, attentive⟩ available ⟨regular, fits⟩
      have sched := sched_reachable before
      obtain ⟨placed', started'⟩ := counted_next placed started available regular
      exact ⟨placed', started', attentive.next (idle_of_reachable sched)
        (consistent_of_reachable sched) (reading_of_reachable before) placed started available
        regular fits⟩
  exact known.attentive.not_overslept

/-! ### Two runs -/

/-- The thread `true` adds a timer while no worker is idle, and the worker `false` goes to
sleep. -/
def sleepsFor (ms : ℕ) : List (PoolMove Bool ℕ ℕ) :=
  [.timers true (.addTimer ms (some 7) false 1700000000000000000), .sched (.hasIdleThreads true false),
    .sched (.startRun false), .sched (.scan false), .sched (.enterIdle false), .readTimers false,
    .computeTimeout false, .sched (.epollWait false)]

/-- The timer is refreshed, and an earlier one wakes the worker, which looks again. -/
def wokenEarlier : List (PoolMove Bool ℕ ℕ) :=
  sleepsFor 100 ++
  [.timers true (.refresh 0 1700000001000000000),
    .timers true (.addTimer 10 (some 8) false 1700000001000000005), .sched (.hasIdleThreads true false),
    .sched (.writePipe true false), .sched (.wake false true),
    .listExpiredCb false 1700000001000000006 1700000001000000007 1, .sched (.drain false),
    .sched (.idleYield false), .sched (.leaveIdle false), .sched (.scan false),
    .sched (.enterIdle false), .readTimers false, .computeTimeout false, .sched (.epollWait false)]

theorem not_overslept_wokenEarlier :
    let q := ((pool {false}).observe [] readRecord).after
      (Pool.initial 1700000000000000000, []) wokenEarlier
    (q.1.sched.phase false = .blocked ∧ q.1.deadline false = (1700000001010000005 : ℤ)) ∧
      ¬Overslept {false} q.1 := by
  have starts : ((pool {false}).observe [] readRecord).init
      ((Pool.initial 1700000000000000000 : Pool Bool ℕ ℕ), []) := ⟨⟨_, rfl⟩, rfl⟩
  have follows : ((pool {false}).observe [] readRecord).Follows
      (fun q a => Regular q a ∧ Fits q.1 a) (Pool.initial 1700000000000000000, [])
      wokenEarlier := by
    decide +kernel
  exact ⟨by decide +kernel,
    not_overslept_of_reaches ((Machine.Reaches.start starts).follow follows)⟩

/-- A timer of 238 years is refreshed after a second, at a deadline beyond 64 bits. -/
theorem oversleeps :
    ¬ ∀ q : Pool Bool ℕ ℕ × List ℤ,
      ((pool {false}).observe [] readRecord).Reaches Regular q → ¬Overslept {false} q.1 := by
  intro never
  have starts : ((pool {false}).observe [] readRecord).init
      ((Pool.initial 1700000000000000000 : Pool Bool ℕ ℕ), []) := ⟨⟨_, rfl⟩, rfl⟩
  have follows : ((pool {false}).observe [] readRecord).Follows Regular
      (Pool.initial 1700000000000000000, [])
      (sleepsFor 7523372036854 ++ [.timers true (.refresh 0 1700000001000000000)]) := by
    decide +kernel
  exact never _ ((Machine.Reaches.start starts).follow follows) (by decide +kernel)

end CoroutineService.IOManager
