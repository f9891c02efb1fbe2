import CoroutineService.Timers.Earliest
import CoroutineService.Timers.Expired

/-!
# No timer is early

The deadline of a timer is counted from a reading of the clock: when it is made, refreshed or
reset, and when a pass of `listExpiredCb` puts it back. A reset that is not `from_now` keeps the
reading and changes the period. While the clock is not set back and no deadline overflows, nothing
is handed out before its period is over, so that two callbacks of one timer are apart by at least
the period.

## Main definitions

* `Firing`: a callback that is handed out, with what its deadline was counted from
* `Watch`: a record of the readings and the firings
* `Steady`: the clock is not set back, and deadlines fit into 64 bits
* `Punctual`: what the record shows

## Main results

* `punctual_of_reaches`: nothing is handed out early or twice
-/

set_option autoImplicit false

namespace CoroutineService.Timers

open CoroutineService.Containers CoroutineService.Transition

variable {Tid Cb : Type*}

/-- A callback that a pass with the reading `now` hands out. Its deadline was counted from the
reading `start`, with the period `ms`. -/
structure Firing where
  timer : ℕ
  start : ℤ
  ms : ℕ
  now : ℤ
  deriving DecidableEq, Repr

/-- The readings so far, the reading each deadline is counted from, the readings there were when
the `reset` of each thread erased its timer, and the firings, the last one first. -/
structure Watch (Tid : Type*) where
  past : List ℤ
  start : ℕ → ℤ
  seen : Tid → List ℤ
  fired : List Firing

namespace Watch

variable (w : Watch Tid) (s : TimerManager Cb) (now : ℤ)

/-- Nothing has happened yet. -/
def fresh : Watch Tid := ⟨[], fun _ => 0, fun _ => [], []⟩

/-- A round of `listExpiredCb`. -/
def fire : Watch Tid :=
  match s.timers with
  | [] => w
  | t :: _ =>
    { w with
      fired := ⟨t, w.start t, (s.timer t).ms, now⟩ :: w.fired
      start := if (s.timer t).recurring then Function.update w.start t now else w.start }

/-- The rounds of `expireLoop`. -/
def fireLoop (rollover : Bool) (now : ℤ) : ℕ → TimerManager Cb → Watch Tid → Watch Tid
  | 0, _, w => w
  | rounds + 1, s, w =>
    if s.due rollover now then fireLoop rollover now rounds (s.expireFirst now) (w.fire s now)
    else w

variable [DecidableEq Tid]

/-- What a section adds to the record. -/
def next (s : Shared Tid Cb) (a : SharedMove Tid Cb) (w : Watch Tid) : Watch Tid :=
  let w := { w with past := readings a ++ w.past }
  match a with
  | .addTimer _ _ _ now => { w with start := Function.update w.start s.manager.created now }
  | .refresh t now =>
    if (s.manager.refresh t now).1 then { w with start := Function.update w.start t now } else w
  | .resetErase p _ _ _ => { w with seen := Function.update w.seen p w.past }
  | .resetInsert p now =>
    match s.resetting p with
    | none => w
    | some r =>
      if r.fromNow then { w with start := Function.update w.start r.timer now } else w
  | .listExpiredCb now now' rounds =>
    let (rollover, manager) := s.manager.detectClockRollover now'
    w.fireLoop rollover now rounds manager
  | .cancel _ | .getNextTimer => w

end Watch

/-- The reading that `reset` counts from. -/
def TimerManager.restart (s : TimerManager Cb) (r : Reset) (now : ℤ) : ℤ :=
  if r.fromNow then now else earlier (s.timer r.timer).next (s.timer r.timer).ms

/-- The clock is not set back: what is read under the lock, and what `reset` reads after its first
section, is not earlier than what was read before. Deadlines are not too late for 64 bits. -/
def Steady (s : Shared Tid Cb) (w : Watch Tid) : SharedMove Tid Cb → Prop
  | .addTimer ms _ _ now => isTime now ∧ now + ms * 1000000 < 2 ^ 63
  | .refresh t now => isTime now ∧ (∀ x ∈ w.past, x ≤ now) ∧
    now + (s.manager.timer t).ms * 1000000 < 2 ^ 63
  | .resetInsert p now => isTime now ∧ (∀ x ∈ w.seen p, x ≤ now) ∧
    ∀ r ∈ s.resetting p, s.manager.restart r now + r.ms * 1000000 < 2 ^ 63
  | .listExpiredCb now now' _ => isTime now ∧ s.manager.previouseTime ≤ now' ∧
    isTime (s.manager.previouseTime - 60 * 60 * 1000 * 1000000) ∧
    ∀ t ∈ s.manager.timers, (s.manager.timer t).Rearms now
  | .cancel _ | .resetErase _ _ _ _ | .getNextTimer => True

instance (s : Shared Tid Cb) (w : Watch Tid) (a : SharedMove Tid Cb) :
    Decidable (Steady s w a) := by
  induction a using SharedMove.casesOn <;> (dsimp only [Steady]; infer_instance)

/-- The record of what `cbs` has received: every callback not before its period is over, and
a second one of a timer only if the timer recurs, with a deadline counted from no earlier than the
first. -/
structure Punctual (s : TimerManager Cb) (fired : List Firing) : Prop where
  logged : s.cbs.map Prod.fst = (fired.map Firing.timer).reverse
  due : ∀ f ∈ fired, f.start + f.ms * 1000000 ≤ f.now
  spaced : fired.Pairwise fun f f' => f.timer = f'.timer →
    (s.timer f.timer).recurring = true ∧ f'.now ≤ f.start

/-- The deadline is counted from this reading, without an overflow. -/
structure Timer.CountedFrom (start : ℤ) (timer : Timer Cb) : Prop where
  fits : isTime start
  fits' : isTime timer.next
  next : timer.next = start + timer.ms * 1000000

/-- A timer that will not fire again. -/
def TimerManager.Dead (s : TimerManager Cb) (t : ℕ) : Prop :=
  (s.timer t).cb = none ∧ t ∉ s.timers

/-- The record agrees with the timers. -/
structure Watched (s : Shared Tid Cb) (w : Watch Tid) : Prop where
  placed : Placed s
  punctual : Punctual s.manager w.fired
  armed : ∀ t < s.manager.created, (s.manager.timer t).CountedFrom (w.start t)
  known : ∀ f ∈ w.fired, f.timer < s.manager.created ∧ f.now ∈ w.past
  again : ∀ f ∈ w.fired, (s.manager.timer f.timer).recurring = true → f.now ≤ w.start f.timer
  once : ∀ f ∈ w.fired, (s.manager.timer f.timer).recurring = false → s.manager.Dead f.timer
  resets : ∀ p, ∀ r ∈ s.resetting p, ∀ f ∈ w.fired, f.timer = r.timer →
    (s.manager.timer f.timer).recurring = true ∧ f.now ∈ w.seen p

/-! ### Deadlines -/

theorem Timer.countedFrom_later {start : ℤ} {ms : ℕ} (fits : isTime start)
    (below : start + ms * 1000000 < 2 ^ 63) (recurring : Bool) (cb : Option Cb) :
    Timer.CountedFrom start ⟨recurring, ms, later start ms, cb⟩ := by
  have inside : isTime (start + ms * 1000000) := by
    have low := fits.1
    constructor <;> omega
  have same : later start ms = start + ms * 1000000 := wrap_eq inside
  exact ⟨fits, by rw [same]; exact inside, same⟩

theorem Timer.CountedFrom.earlier {start : ℤ} {timer : Timer Cb}
    (counted : timer.CountedFrom start) : Timers.earlier timer.next timer.ms = start := by
  unfold Timers.earlier
  rw [counted.next, Int.add_sub_cancel]
  exact wrap_eq counted.fits

theorem Timer.CountedFrom.start_le {start : ℤ} {timer : Timer Cb}
    (counted : timer.CountedFrom start) : start ≤ timer.next := by
  have same := counted.next
  omega

/-- Without a clock that is set back there is no rollover. -/
theorem TimerManager.detectClockRollover_eq {s : TimerManager Cb} {now' : ℤ}
    (onward : s.previouseTime ≤ now')
    (fits : isTime (s.previouseTime - 60 * 60 * 1000 * 1000000)) :
    s.detectClockRollover now' = (false, { s with previouseTime := now' }) := by
  have same : Timers.earlier s.previouseTime (60 * 60 * 1000) =
      s.previouseTime - 60 * 60 * 1000 * 1000000 := wrap_eq fits
  unfold detectClockRollover
  rw [same, decide_eq_false (by omega)]

/-! ### What the sections leave alone -/

namespace TimerManager

variable {s s' : TimerManager Cb} {t u : ℕ} {now : ℤ}

theorem addShared_same : (s.addShared t).2.timer = s.timer ∧ (s.addShared t).2.cbs = s.cbs := by
  unfold addShared
  dsimp only
  split
  · exact ⟨rfl, rfl⟩
  · exact ⟨rfl, rfl⟩

theorem cbs_cancel : (s.cancel t).2.cbs = s.cbs := by
  rcases cancel_cases s t with ⟨-, same⟩ | ⟨-, blank, -, -, result | ⟨result, -⟩⟩
  · rw [same]
  · rw [result]
    rfl
  · rw [result]
    rfl

/-- `cancel` takes nothing but the callback from the timer. -/
theorem timer_cancel (s : TimerManager Cb) (t u : ℕ) : (s.cancel t).2.timer u = s.timer u ∨
    (s.cancel t).2.timer u = { s.timer u with cb := none } := by
  have blanked : Function.update s.timer t { s.timer t with cb := none } u = s.timer u ∨
      Function.update s.timer t { s.timer t with cb := none } u =
        { s.timer u with cb := none } := by
    by_cases here : u = t
    · subst here
      exact .inr (Function.update_self _ _ _)
    · exact .inl (Function.update_of_ne here _ _)
  unfold cancel
  split
  · exact .inl rfl
  · dsimp only
    split
    · exact blanked
    · exact blanked

/-- `refresh` is refused, or counts the deadline from the reading. -/
theorem refresh_result (s : TimerManager Cb) (t : ℕ) (now : ℤ) :
    s.refresh t now = (false, s) ∨ (s.timer t).cb.isSome = true ∧ s.finds t = true ∧
      s.refresh t now = (true,
        ((s.erase t).put t { s.timer t with next := later now (s.timer t).ms }).insert t) := by
  unfold refresh
  split
  case isTrue => exact .inl rfl
  case isFalse given =>
    split
    case isTrue => exact .inl rfl
    case isFalse found =>
      exact .inr ⟨by simpa [Option.isSome_iff_ne_none] using given, by simpa using found, rfl⟩

/-- The first section of `reset` is refused, or takes the timer out. -/
theorem resetErase_cases (s : TimerManager Cb) (t : ℕ) :
    s.resetErase t = (false, s) ∨
      (s.timer t).cb.isSome = true ∧ s.resetErase t = (true, s.erase t) := by
  unfold resetErase
  split
  case isTrue => exact .inl rfl
  case isFalse given =>
    split
    case isTrue => exact .inl rfl
    case isFalse => exact .inr ⟨by simpa [Option.isSome_iff_ne_none] using given, rfl⟩

theorem recurring_expireFirst :
    ((s.expireFirst now).timer u).recurring = (s.timer u).recurring := by
  cases whole : s.timers with
  | nil => simp [expireFirst, whole]
  | cons t rest =>
    by_cases here : u = t
    · subst here
      by_cases recurring : (s.timer u).recurring = true
      · rw [timer_expireFirst_recurring now whole recurring]
      · rw [timer_expireFirst_once whole recurring]
    · rw [timer_expireFirst now whole here]

theorem Dead.untouched (dead : s.Dead t) (untouched : s.Untouched s' t) : s'.Dead t := by
  obtain ⟨out, same⟩ := untouched dead.2
  exact ⟨same.trans dead.1, out⟩

end TimerManager

theorem Watch.fire_cons (w : Watch Tid) {s : TimerManager Cb} {t : ℕ} {rest : List ℕ} (now : ℤ)
    (whole : s.timers = t :: rest) :
    (w.fire s now).fired = ⟨t, w.start t, (s.timer t).ms, now⟩ :: w.fired ∧
      (w.fire s now).start =
        (if (s.timer t).recurring then Function.update w.start t now else w.start) ∧
      (w.fire s now).past = w.past ∧ (w.fire s now).seen = w.seen := by
  unfold Watch.fire
  rw [whole]
  exact ⟨rfl, rfl, rfl, rfl⟩

/-- What has been handed out stays punctual when nothing is added. -/
theorem Punctual.same {s s' : TimerManager Cb} {fired : List Firing} (punctual : Punctual s fired)
    (cbs : s'.cbs = s.cbs)
    (recurring : ∀ f ∈ fired, (s'.timer f.timer).recurring = (s.timer f.timer).recurring) :
    Punctual s' fired where
  logged := by
    rw [cbs]
    exact punctual.logged
  due := punctual.due
  spaced := punctual.spaced.imp_of_mem fun mem _ apart same => by
    rw [recurring _ mem]
    exact apart same

/-! ### Sections -/

namespace Watched

variable {s s' : Shared Tid Cb} {w w' : Watch Tid} {t : ℕ} {now : ℤ}

/-- A section that hands nothing out. The timers that are dead stay dead, and a deadline of a timer
that has fired is not counted from an earlier reading than its last pass had. -/
theorem quiet (watched : Watched s w) (placed : Placed s')
    (grown : s.manager.created ≤ s'.manager.created) (fired : w'.fired = w.fired)
    (past : ∀ x ∈ w.past, x ∈ w'.past) (cbs : s'.manager.cbs = s.manager.cbs)
    (recurring : ∀ u < s.manager.created,
      (s'.manager.timer u).recurring = (s.manager.timer u).recurring)
    (armed : ∀ u < s'.manager.created, (s'.manager.timer u).CountedFrom (w'.start u))
    (again : ∀ f ∈ w.fired, f.now ≤ w.start f.timer → f.now ≤ w'.start f.timer)
    (dead : ∀ f ∈ w.fired, (s.manager.timer f.timer).recurring = false →
      s.manager.Dead f.timer → s'.manager.Dead f.timer)
    (resets : ∀ p, ∀ r ∈ s'.resetting p, ∀ f ∈ w.fired, f.timer = r.timer →
      (s.manager.timer f.timer).recurring = true ∧ f.now ∈ w'.seen p) : Watched s' w' := by
  have kind : ∀ f ∈ w.fired, (s'.manager.timer f.timer).recurring =
      (s.manager.timer f.timer).recurring := fun f mem =>
    recurring f.timer (watched.known f mem).1
  refine ⟨placed, ?_, armed, ?_, ?_, ?_, ?_⟩
  · rw [fired]
    exact watched.punctual.same cbs kind
  · rw [fired]
    intro f mem
    obtain ⟨made, read⟩ := watched.known f mem
    exact ⟨made.trans_le grown, past _ read⟩
  · rw [fired]
    intro f mem recurs
    exact again f mem (watched.again f mem ((kind f mem).symm.trans recurs))
  · rw [fired]
    intro f mem recurs
    have recurs := (kind f mem).symm.trans recurs
    exact dead f mem recurs (watched.once f mem recurs)
  · rw [fired]
    intro p r under f mem same
    rw [kind f mem]
    exact resets p r under f mem same

theorem initially : Watched (⟨TimerManager.initial now, fun _ => none⟩ : Shared Tid Cb) .fresh where
  placed := Placed.initially
  punctual := ⟨rfl, fun _ mem => absurd mem List.not_mem_nil, List.Pairwise.nil⟩
  armed t made := absurd made (Nat.not_lt_zero t)
  known _ mem := absurd mem List.not_mem_nil
  again _ mem := absurd mem List.not_mem_nil
  once _ mem := absurd mem List.not_mem_nil
  resets _ r under := absurd under (Option.not_mem_none r)

/-- A timer in the set that has fired recurs, and its deadline is counted from no earlier reading
than its last pass had. -/
theorem fired_before (watched : Watched s w) (mem : t ∈ s.manager.timers) :
    ∀ f ∈ w.fired, f.timer = t → (s.manager.timer t).recurring = true ∧ f.now ≤ w.start t := by
  rintro f fired rfl
  have recurs : (s.manager.timer f.timer).recurring = true := by
    by_contra once
    exact (watched.once f fired (Bool.eq_false_iff.mpr once)).2 mem
  exact ⟨recurs, watched.again f fired recurs⟩

/-- A round of `listExpiredCb` hands out the callback of a timer that is due. -/
theorem fire (watched : Watched s w) (due : s.manager.due false now = true) (fits : isTime now)
    (read : now ∈ w.past) (rearms : ∀ u ∈ s.manager.timers, (s.manager.timer u).Rearms now) :
    Watched { s with manager := s.manager.expireFirst now } (w.fire s.manager now) := by
  obtain ⟨t, rest, whole⟩ := TimerManager.exists_of_due due
  have ordered := watched.placed.ordered
  have first : t ∈ s.manager.timers := whole ▸ List.mem_cons_self
  have made : t < s.manager.created := ordered.known t first
  have counted := watched.armed t made
  have reached : (s.manager.timer t).next ≤ now :=
    ((TimerManager.due_cons whole).mp due).resolve_left Bool.noConfusion
  have created : (s.manager.expireFirst now).created = s.manager.created :=
    TimerManager.created_expireFirst
  obtain ⟨fired, start, past, seen⟩ := Watch.fire_cons w now whole
  have before := watched.fired_before first
  have early : w.start t ≤ now := counted.start_le.trans reached
  have out : ∀ p, ∀ r ∈ s.resetting p, r.timer ≠ t := fun p r under here =>
    (watched.placed.taken p r under).2 (here ▸ first)
  refine ⟨?_, ⟨?_, ?_, ?_⟩, ?_, ?_, ?_, ?_, ?_⟩
  · exact watched.placed.frame ordered.expireFirst created.ge fun u _ out =>
      (TimerManager.untouched_expireFirst out).1
  · rw [TimerManager.cbs_expireFirst whole, fired, List.map_append, watched.punctual.logged]
    exact List.reverse_cons.symm
  · rw [fired]
    refine List.forall_mem_cons.mpr ⟨?_, watched.punctual.due⟩
    exact counted.next.symm.trans_le reached
  · rw [fired]
    refine List.pairwise_cons.mpr ⟨fun f mem same => ?_, ?_⟩
    · show ((s.manager.expireFirst now).timer t).recurring = true ∧ f.now ≤ w.start t
      rw [TimerManager.recurring_expireFirst]
      exact before f mem same.symm
    · refine watched.punctual.spaced.imp fun {f f'} apart same => ?_
      show ((s.manager.expireFirst now).timer f.timer).recurring = true ∧ _
      rw [TimerManager.recurring_expireFirst]
      exact apart same
  · intro u made'
    have made' : u < s.manager.created := created ▸ made'
    rw [start]
    show ((s.manager.expireFirst now).timer u).CountedFrom _
    by_cases here : u = t
    · subst here
      by_cases recurs : (s.manager.timer u).recurring = true
      · rw [TimerManager.timer_expireFirst_recurring now whole recurs, if_pos recurs,
          Function.update_self]
        exact Timer.countedFrom_later fits (rearms u first recurs reached) _ _
      · rw [TimerManager.timer_expireFirst_once whole recurs, if_neg recurs]
        exact ⟨counted.fits, counted.fits', counted.next⟩
    · rw [TimerManager.timer_expireFirst now whole here]
      split
      · rw [Function.update_of_ne here]
        exact watched.armed u made'
      · exact watched.armed u made'
  · rw [fired, past]
    refine List.forall_mem_cons.mpr ⟨⟨created ▸ made, read⟩, fun f mem => ?_⟩
    exact ⟨created ▸ (watched.known f mem).1, (watched.known f mem).2⟩
  · rw [fired, start]
    refine List.forall_mem_cons.mpr ⟨fun recurs => ?_, fun f mem recurs => ?_⟩
    · have recurs := TimerManager.recurring_expireFirst.symm.trans recurs
      rw [if_pos recurs, Function.update_self]
    · have recurs := TimerManager.recurring_expireFirst.symm.trans recurs
      split
      · by_cases here : f.timer = t
        · rw [here, Function.update_self]
          exact (before f mem here).2.trans early
        · rw [Function.update_of_ne here]
          exact watched.again f mem recurs
      · exact watched.again f mem recurs
  · rw [fired]
    refine List.forall_mem_cons.mpr ⟨fun once => ?_, fun f mem once => ?_⟩
    · have once := Bool.eq_false_iff.mp (TimerManager.recurring_expireFirst.symm.trans once)
      refine ⟨?_, ?_⟩
      · show ((s.manager.expireFirst now).timer t).cb = none
        rw [TimerManager.timer_expireFirst_once whole once]
      · show t ∉ (s.manager.expireFirst now).timers
        rw [TimerManager.timers_expireFirst_once whole once]
        exact (ordered.pop whole s.manager.cbs).1
    · have once := TimerManager.recurring_expireFirst.symm.trans once
      exact (watched.once f mem once).untouched TimerManager.untouched_expireFirst
  · rw [fired, seen]
    intro p r under
    refine List.forall_mem_cons.mpr ⟨fun same => absurd same.symm (out p r under), ?_⟩
    intro f mem same
    show ((s.manager.expireFirst now).timer f.timer).recurring = true ∧ _
    rw [TimerManager.recurring_expireFirst]
    exact watched.resets p r under f mem same

/-- The rounds of a pass. -/
theorem fireLoop (watched : Watched s w) (rounds : ℕ) {manager : TimerManager Cb}
    (fits : isTime now) (read : now ∈ w.past)
    (rearms : ∀ u ∈ s.manager.timers, (s.manager.timer u).Rearms now)
    (ends : TimerManager.expireLoop false now rounds s.manager = some manager) :
    Watched { s with manager := manager } (w.fireLoop false now rounds s.manager) := by
  induction rounds generalizing s w with
  | zero =>
    unfold TimerManager.expireLoop at ends
    split at ends
    · cases ends
    · obtain rfl := Option.some.inj ends
      exact watched
  | succ rounds ih =>
    unfold TimerManager.expireLoop at ends
    unfold Watch.fireLoop
    split at ends
    case isTrue due =>
      rw [if_pos due]
      have lowest : ∀ u ∈ s.manager.timers, s.manager.earliest ≤ s.manager.key u := fun u mem =>
        watched.placed.ordered.earliest_le mem
      have read' : now ∈ (w.fire s.manager now).past := by
        unfold Watch.fire
        split
        · exact read
        · exact read
      exact ih (watched.fire due fits read rearms) read'
        (TimerManager.expireFirst_le due fits rearms lowest).1 ends
    case isFalse idle =>
      rw [if_neg idle]
      obtain rfl := Option.some.inj ends
      exact watched

variable [DecidableEq Tid]

theorem addTimer (watched : Watched s w) {ms : ℕ} {cb : Option Cb} {recurring : Bool}
    (placed : Placed (sharedTimers.next s (.addTimer ms cb recurring now)))
    (steady : Steady s w (.addTimer ms cb recurring now)) :
    Watched (sharedTimers.next s (.addTimer ms cb recurring now))
      (w.next s (.addTimer ms cb recurring now)) := by
  obtain ⟨fits, below⟩ := steady
  have created : (sharedTimers.next s (.addTimer ms cb recurring now)).manager.created =
      s.manager.created + 1 := TimerManager.created_addTimer
  have timer : (sharedTimers.next s (.addTimer ms cb recurring now)).manager.timer =
      Function.update s.manager.timer s.manager.created ⟨recurring, ms, later now ms, cb⟩ :=
    TimerManager.addShared_same.1
  refine watched.quiet placed ?_ rfl (fun x mem => List.mem_append_right _ mem)
    TimerManager.addShared_same.2 ?_ ?_ ?_ ?_ watched.resets
  · exact created ▸ Nat.le_succ _
  · intro u older
    rw [timer, Function.update_of_ne older.ne]
  · intro u made
    show ((sharedTimers.next s _).manager.timer u).CountedFrom
      (Function.update w.start s.manager.created now u)
    rw [timer]
    by_cases here : u = s.manager.created
    · rw [here, Function.update_self, Function.update_self]
      exact Timer.countedFrom_later fits below recurring cb
    · rw [Function.update_of_ne here, Function.update_of_ne here]
      exact watched.armed u (by omega)
  · intro f mem before
    show f.now ≤ Function.update w.start s.manager.created now f.timer
    rw [Function.update_of_ne (watched.known f mem).1.ne]
    exact before
  · exact fun f mem _ dead => dead.untouched
      (TimerManager.untouched_addTimer (watched.known f mem).1)

theorem cancel (watched : Watched s w) (placed : Placed (sharedTimers.next s (.cancel t))) :
    Watched (sharedTimers.next s (.cancel t)) (w.next s (.cancel t)) := by
  have created : (s.manager.cancel t).2.created = s.manager.created := TimerManager.created_cancel
  refine watched.quiet placed created.ge rfl (fun x mem => mem) TimerManager.cbs_cancel ?_ ?_
    (fun f _ before => before) ?_ watched.resets
  · intro u _
    show ((s.manager.cancel t).2.timer u).recurring = _
    rcases TimerManager.timer_cancel s.manager t u with same | blank
    · rw [same]
    · rw [blank]
  · intro u made
    have counted := watched.armed u (created ▸ made)
    show ((s.manager.cancel t).2.timer u).CountedFrom (w.start u)
    rcases TimerManager.timer_cancel s.manager t u with same | blank
    · rw [same]
      exact counted
    · rw [blank]
      exact ⟨counted.fits, counted.fits', counted.next⟩
  · intro f _ _ dead
    refine ⟨?_, fun mem => dead.2 (TimerManager.mem_of_mem_cancel mem)⟩
    show ((s.manager.cancel t).2.timer f.timer).cb = none
    rcases TimerManager.timer_cancel s.manager t f.timer with same | blank
    · rw [same]
      exact dead.1
    · rw [blank]

theorem refresh (watched : Watched s w) (placed : Placed (sharedTimers.next s (.refresh t now)))
    (foundIn : s.manager.FoundIn t) (steady : Steady s w (.refresh t now)) :
    Watched (sharedTimers.next s (.refresh t now)) (w.next s (.refresh t now)) := by
  obtain ⟨fits, onward, below⟩ := steady
  have created : (s.manager.refresh t now).2.created = s.manager.created :=
    TimerManager.created_refresh
  rcases TimerManager.refresh_result s.manager t now with refused | ⟨given, found, moved⟩
  · have after : sharedTimers.next s (.refresh t now) = s := by
      show { s with manager := (s.manager.refresh t now).2 } = s
      rw [refused]
    have record : w.next s (.refresh t now) = { w with past := now :: w.past } := by
      dsimp only [Watch.next]
      rw [refused]
      rfl
    rw [after, record]
    exact watched.quiet watched.placed le_rfl rfl (fun x mem => List.mem_cons_of_mem now mem) rfl
      (fun _ _ => rfl) watched.armed (fun _ _ before => before) (fun _ _ _ dead => dead)
      watched.resets
  · have record : w.next s (.refresh t now) =
        { w with past := now :: w.past, start := Function.update w.start t now } := by
      dsimp only [Watch.next]
      rw [moved]
      rfl
    have timer : (s.manager.refresh t now).2.timer = Function.update s.manager.timer t
        { s.manager.timer t with next := later now (s.manager.timer t).ms } := by
      rw [moved]
      rfl
    rw [record]
    refine watched.quiet placed created.ge rfl (fun x mem => List.mem_cons_of_mem now mem) ?_ ?_ ?_
      ?_ ?_ watched.resets
    · show (s.manager.refresh t now).2.cbs = s.manager.cbs
      rw [moved]
      rfl
    · intro u _
      show ((s.manager.refresh t now).2.timer u).recurring = _
      rw [timer]
      by_cases here : u = t
      · rw [here, Function.update_self]
      · rw [Function.update_of_ne here]
    · intro u made
      show ((s.manager.refresh t now).2.timer u).CountedFrom (Function.update w.start t now u)
      rw [timer]
      by_cases here : u = t
      · rw [here, Function.update_self, Function.update_self]
        exact Timer.countedFrom_later fits below _ _
      · rw [Function.update_of_ne here, Function.update_of_ne here]
        exact watched.armed u (created ▸ made)
    · intro f mem before
      show f.now ≤ Function.update w.start t now f.timer
      by_cases here : f.timer = t
      · rw [here, Function.update_self]
        exact onward _ (watched.known f mem).2
      · rw [Function.update_of_ne here]
        exact before
    · exact fun _ _ _ dead => dead.untouched (TimerManager.untouched_refresh foundIn)

theorem resetErase (watched : Watched s w) {p : Tid} {ms : ℕ} {fromNow : Bool}
    (placed : Placed (sharedTimers.next s (.resetErase p t ms fromNow))) :
    Watched (sharedTimers.next s (.resetErase p t ms fromNow))
      (w.next s (.resetErase p t ms fromNow)) := by
  have elsewhere : ∀ q, q ≠ p → ∀ r ∈ s.resetting q, ∀ f ∈ w.fired, f.timer = r.timer →
      (s.manager.timer f.timer).recurring = true ∧
        f.now ∈ Function.update w.seen p w.past q := by
    intro q there r under f mem same
    rw [Function.update_of_ne there]
    exact watched.resets q r under f mem same
  rcases TimerManager.resetErase_cases s.manager t with refused | ⟨given, taken⟩
  · have after : sharedTimers.next s (.resetErase p t ms fromNow) =
        ⟨s.manager, Function.update s.resetting p none⟩ := by
      dsimp only [sharedTimers]
      rw [refused]
      rfl
    rw [after] at placed ⊢
    refine watched.quiet placed le_rfl rfl (fun x mem => mem) rfl (fun _ _ => rfl) watched.armed
      (fun _ _ before => before) (fun _ _ _ dead => dead) fun q r under => ?_
    obtain ⟨there, older⟩ := mem_finished under
    exact elsewhere q there r older
  · have after : sharedTimers.next s (.resetErase p t ms fromNow) =
        ⟨s.manager.erase t, Function.update s.resetting p (some ⟨t, ms, fromNow⟩)⟩ := by
      dsimp only [sharedTimers]
      rw [taken]
      rfl
    rw [after] at placed ⊢
    refine watched.quiet placed le_rfl rfl (fun x mem => mem) rfl (fun _ _ => rfl) watched.armed
      (fun _ _ before => before) ?_ fun q r under => ?_
    · exact fun _ _ _ dead => dead.untouched TimerManager.untouched_erase
    · rcases mem_begun under with ⟨here, rfl⟩ | ⟨there, older⟩
      · -- a timer that has fired for the last time has no callback
        intro f mem same
        have same : f.timer = t := same
        refine ⟨?_, ?_⟩
        · by_contra once
          have dead := watched.once f mem (Bool.eq_false_iff.mpr once)
          rw [← same, dead.1] at given
          cases given
        · show f.now ∈ Function.update w.seen p w.past q
          rw [here, Function.update_self]
          exact (watched.known f mem).2
      · exact elsewhere q there r older

theorem resetInsert (watched : Watched s w) {p : Tid} {r : Reset} (under : s.resetting p = some r)
    (placed : Placed (sharedTimers.next s (.resetInsert p now)))
    (steady : Steady s w (.resetInsert p now)) :
    Watched (sharedTimers.next s (.resetInsert p now)) (w.next s (.resetInsert p now)) := by
  obtain ⟨fits, onward, below⟩ := steady
  have below := below r under
  have counted := watched.armed r.timer (watched.placed.taken p r under).1
  let start := s.manager.restart r now
  have starts : start = if r.fromNow then now else w.start r.timer := by
    show (if r.fromNow then now else _) = _
    rw [counted.earlier]
  have fits' : isTime start := by
    rw [starts]
    split
    · exact fits
    · exact counted.fits
  have record : w.next s (.resetInsert p now) =
      { w with past := now :: w.past, start := Function.update w.start r.timer start } := by
    dsimp only [Watch.next]
    rw [under, starts]
    dsimp only
    split
    · rfl
    · rw [Function.update_eq_self]
      rfl
  have timer : (s.manager.resetInsert r now).2.timer = Function.update s.manager.timer r.timer
      { s.manager.timer r.timer with ms := r.ms, next := later start r.ms } :=
    TimerManager.addShared_same.1
  have created : (s.manager.resetInsert r now).2.created = s.manager.created :=
    TimerManager.created_addShared
  rw [next_resetInsert under] at placed ⊢
  rw [record]
  refine watched.quiet placed created.ge rfl (fun x mem => List.mem_cons_of_mem now mem)
    TimerManager.addShared_same.2 ?_ ?_ ?_ ?_ ?_
  · intro u _
    show ((s.manager.resetInsert r now).2.timer u).recurring = _
    rw [timer]
    by_cases here : u = r.timer
    · rw [here, Function.update_self]
    · rw [Function.update_of_ne here]
  · intro u made
    show ((s.manager.resetInsert r now).2.timer u).CountedFrom
      (Function.update w.start r.timer start u)
    rw [timer]
    by_cases here : u = r.timer
    · rw [here, Function.update_self, Function.update_self]
      exact Timer.countedFrom_later fits' below _ _
    · rw [Function.update_of_ne here, Function.update_of_ne here]
      exact watched.armed u (created ▸ made)
  · intro f mem before
    show f.now ≤ Function.update w.start r.timer start f.timer
    by_cases here : f.timer = r.timer
    · rw [here, Function.update_self, starts]
      split
      · exact onward _ (watched.resets p r under f mem here).2
      · exact here ▸ before
    · rw [Function.update_of_ne here]
      exact before
  · intro f mem once dead
    have other : f.timer ≠ r.timer := fun here =>
      Bool.noConfusion (once.symm.trans (watched.resets p r under f mem here).1)
    exact dead.untouched
      ((TimerManager.untouched_put other).trans (TimerManager.untouched_addShared other))
  · intro q r' under'
    obtain ⟨-, older⟩ := mem_finished under'
    exact watched.resets q r' older

theorem listExpiredCb (watched : Watched s w) {now' : ℤ} {rounds : ℕ} {manager : TimerManager Cb}
    (ends : s.manager.listExpiredCb now now' rounds = some manager)
    (steady : Steady s w (.listExpiredCb now now' rounds)) :
    Watched (sharedTimers.next s (.listExpiredCb now now' rounds))
      (w.next s (.listExpiredCb now now' rounds)) := by
  obtain ⟨fits, onward, fits', rearms⟩ := steady
  have noRollover := TimerManager.detectClockRollover_eq onward fits'
  let noted : TimerManager Cb := { s.manager with previouseTime := now' }
  have record : w.next s (.listExpiredCb now now' rounds) =
      ({ w with past := [now, now'] ++ w.past } : Watch Tid).fireLoop false now rounds noted := by
    dsimp only [Watch.next]
    rw [noRollover]
    rfl
  have loop : TimerManager.expireLoop false now rounds noted = some manager := by
    rw [← ends]
    unfold TimerManager.listExpiredCb
    rw [noRollover]
  have watched' : Watched { s with manager := noted } { w with past := [now, now'] ++ w.past } := by
    refine watched.quiet (watched.placed.frame ?_ le_rfl fun _ _ out => out) le_rfl rfl
      (fun x mem => List.mem_append_right _ mem) rfl (fun _ _ => rfl) watched.armed
      (fun _ _ before => before) (fun _ _ _ dead => dead) watched.resets
    exact ⟨watched.placed.ordered.sorted, watched.placed.ordered.known⟩
  rw [next_listExpiredCb ends, record]
  exact watched'.fireLoop rounds fits List.mem_cons_self rearms loop

theorem next (watched : Watched s w) {a : SharedMove Tid Cb} (available : sharedTimers.enabled s a)
    (distinct : s.manager.DistinctTimes) (steady : Steady s w a) :
    Watched (sharedTimers.next s a) (w.next s a) := by
  have placed : Placed (sharedTimers.next s a) := watched.placed.next available distinct
  cases a with
  | addTimer ms cb recurring now => exact watched.addTimer placed steady
  | cancel t => exact watched.cancel placed
  | refresh t now =>
    exact watched.refresh placed (distinct.foundIn watched.placed.ordered available) steady
  | resetErase p t ms fromNow => exact watched.resetErase placed
  | resetInsert p now =>
    obtain ⟨r, under⟩ := Option.isSome_iff_exists.mp available
    exact watched.resetInsert under placed steady
  | listExpiredCb now now' rounds =>
    obtain ⟨manager, ends⟩ := Option.isSome_iff_exists.mp available
    exact watched.listExpiredCb ends steady
  | getNextTimer =>
    exact watched.quiet placed le_rfl rfl (fun x mem => mem) rfl (fun _ _ => rfl) watched.armed
      (fun _ _ before => before) (fun _ _ _ dead => dead) watched.resets

end Watched

section Runs

variable [DecidableEq Tid]

/-- In every interleaving of the sections on timers with distinct times, with a clock that is not
set back and deadlines that fit: a callback is handed out when the period since the reading its
deadline was counted from is over, and not before; a timer that does not recur fires once; and two
firings of a timer that recurs are apart by its period at least. -/
theorem punctual_of_reaches {q : Shared Tid Cb × Watch Tid}
    (reached : (sharedTimers.observe Watch.fresh Watch.next).Reaches
      (fun q a => q.1.manager.DistinctTimes ∧ Steady q.1 q.2 a) q) :
    Punctual q.1.manager q.2.fired := by
  have watched : Watched q.1 q.2 := by
    refine reached.invariant (I := fun q => Watched q.1 q.2) ?_ ?_
    · rintro ⟨_, _⟩ ⟨⟨now, rfl⟩, rfl⟩
      exact Watched.initially
    · exact fun q a watched available allowed => watched.next available allowed.1 allowed.2
  exact watched.punctual

end Runs

/-- A recurring timer fires, is given a shorter period, and fires again, beside one that fires
once. -/
def refired : List (SharedMove Bool Unit) :=
  [.addTimer 10 (some ()) true 0, .addTimer 15 (some ()) false 2, .listExpiredCb 11000000 11000000 3,
    .resetErase true 0 5 false, .resetInsert true 12000000, .listExpiredCb 17000000 18000000 3]

theorem punctual_refired :
    ((sharedTimers.observe Watch.fresh Watch.next).after
        ((⟨empty, fun _ => none⟩ : Shared Bool Unit), Watch.fresh) refired).2.fired =
      [⟨0, 11000000, 5, 17000000⟩, ⟨1, 2, 15, 17000000⟩, ⟨0, 0, 10, 11000000⟩] ∧
    Punctual ((sharedTimers.observe Watch.fresh Watch.next).after
        ((⟨empty, fun _ => none⟩ : Shared Bool Unit), Watch.fresh) refired).1.manager
      ((sharedTimers.observe Watch.fresh Watch.next).after
        ((⟨empty, fun _ => none⟩ : Shared Bool Unit), Watch.fresh) refired).2.fired := by
  have starts : (sharedTimers.observe Watch.fresh Watch.next).init
      ((⟨empty, fun _ => none⟩ : Shared Bool Unit), Watch.fresh) := ⟨⟨0, rfl⟩, rfl⟩
  have follows : (sharedTimers.observe Watch.fresh Watch.next).Follows
      (fun q a => q.1.manager.DistinctTimes ∧ Steady q.1 q.2 a)
      ((⟨empty, fun _ => none⟩ : Shared Bool Unit), Watch.fresh) refired := by
    decide +kernel
  exact ⟨by decide +kernel, punctual_of_reaches ((Machine.Reaches.start starts).follow follows)⟩

end CoroutineService.Timers
