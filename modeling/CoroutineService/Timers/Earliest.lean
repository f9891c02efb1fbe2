import CoroutineService.Timers.Shared
import Mathlib.Data.Int.ConditionallyCompleteOrder
import Mathlib.Order.ConditionallyCompleteLattice.Basic
import Mathlib.Order.WithBot

/-!
# The earliest deadline

A worker sleeps until the earliest deadline. Only a timer that is inserted may come before
it, and then `addTimer` tells, unless `m_tickled` says that somebody has been told already.
`refresh` and the recurring timers of `listExpiredCb` do not tell; they put a timer back at
a deadline that is counted from a later reading of the clock.

## Main definitions

* `TimerManager.earliest`: the earliest deadline
* `Started`: every deadline is counted from a reading of the clock
* `Ticks`: the readings do not decrease
* `NoOverflow`: the deadlines that nobody is told of are not too late for 64 bits

## Main results

* `earliest_next`: what a locked section does to the earliest deadline
* `earliest_refresh_lt`: a deadline that overflows
-/

set_option autoImplicit false

namespace CoroutineService.Timers

open CoroutineService.Containers CoroutineService.Transition

variable {Tid Cb : Type*}

/-! ### Time points -/

/-- A count that fits into 64 bits. -/
def isTime (t : ℤ) : Prop := -2 ^ 63 ≤ t ∧ t < 2 ^ 63

instance (t : ℤ) : Decidable (isTime t) := inferInstanceAs (Decidable (_ ∧ _))

theorem wrap_eq {t : ℤ} (fits : isTime t) : wrap t = t :=
  Int.bmod_eq_of_le_mul_two (by have := fits.1; omega) (by have := fits.2; omega)

/-- The reading a deadline was counted from. -/
theorem earlier_later {start : ℤ} (fits : isTime start) (ms : ℕ) :
    earlier (later start ms) ms = start := by
  unfold earlier later wrap
  rw [Int.bmod_sub_bmod, Int.add_sub_cancel]
  exact wrap_eq fits

/-- Counted from a later reading, a deadline is later, if it does not overflow. -/
theorem later_le_later {start now : ℤ} {ms : ℕ} (fits : isTime start) (order : start ≤ now)
    (fits' : now + ms * 1000000 < 2 ^ 63) : later start ms ≤ later now ms := by
  have inside : isTime (start + ms * 1000000) := by
    have low := fits.1
    constructor <;> omega
  have inside' : isTime (now + ms * 1000000) := by
    have low := fits.1
    constructor <;> omega
  unfold later
  rw [wrap_eq inside, wrap_eq inside']
  omega

theorem le_later {now : ℤ} {ms : ℕ} (fits : isTime now) (fits' : now + ms * 1000000 < 2 ^ 63) :
    now ≤ later now ms := by
  have inside : isTime (now + ms * 1000000) := by
    have low := fits.1
    constructor <;> omega
  unfold later
  rw [wrap_eq inside]
  omega

/-- If the timer recurs and is due, it can be armed again without an overflow. -/
def Timer.Rearms (now : ℤ) (timer : Timer Cb) : Prop :=
  timer.recurring = true → timer.next ≤ now → now + timer.ms * 1000000 < 2 ^ 63

instance (now : ℤ) (timer : Timer Cb) : Decidable (timer.Rearms now) :=
  inferInstanceAs (Decidable (_ → _ → _))

/-- A deadline that overflows is in the past. -/
theorem later_lt {now : ℤ} {ms : ℕ} (fits : isTime now) (beyond : 2 ^ 63 ≤ now + ms * 1000000)
    (small : (ms : ℤ) * 1000000 < 2 ^ 64) : later now ms < now := by
  have inside : isTime (now + ms * 1000000 - 2 ^ 64) := by
    have high := fits.2
    constructor <;> omega
  have same : later now ms = wrap (now + ms * 1000000 - 2 ^ 64) :=
    (Int.sub_bmod_right (now + ms * 1000000) (2 ^ 64)).symm
  rw [same, wrap_eq inside]
  omega

namespace TimerManager

variable {s s' : TimerManager Cb} {t u : ℕ} {now : ℤ} {timer : Timer Cb} {x : WithTop ℤ}

/-- The earliest deadline in `m_timers`. -/
def earliest (s : TimerManager Cb) : WithTop ℤ :=
  match s.timers with
  | [] => ⊤
  | t :: _ => s.key t

theorem earliest_cons {rest : List ℕ} (whole : s.timers = t :: rest) : s.earliest = s.key t := by
  unfold earliest
  rw [whole]

/-- The earliest deadline is no later than any other. -/
theorem Ordered.earliest_le (ordered : s.Ordered) (mem : t ∈ s.timers) :
    s.earliest ≤ s.key t := by
  cases whole : s.timers with
  | nil =>
    rw [whole] at mem
    cases mem
  | cons first rest =>
    have sorted := ordered.sorted
    rw [whole] at mem sorted
    rw [earliest_cons whole]
    rcases List.mem_cons.mp mem with rfl | later
    · exact le_rfl
    · exact WithTop.coe_le_coe.mpr ((List.pairwise_cons.mp sorted).1 t later).le

/-- What is no later than any deadline is no later than the earliest. -/
theorem le_earliest (le : ∀ t ∈ s.timers, x ≤ s.key t) : x ≤ s.earliest := by
  unfold earliest
  split
  case h_1 => exact le_top
  case h_2 t rest whole => exact le t (whole ▸ List.mem_cons_self)

/-- Timers are taken out. -/
theorem Ordered.earliest_mono (ordered : s.Ordered)
    (fewer : ∀ u ∈ s'.timers, u ∈ s.timers ∧ s'.key u = s.key u) : s.earliest ≤ s'.earliest :=
  le_earliest fun u mem => by
    obtain ⟨older, same⟩ := fewer u mem
    rw [same]
    exact ordered.earliest_le older

theorem Ordered.earliest_erase (ordered : s.Ordered) : s.earliest ≤ (s.erase t).earliest :=
  ordered.earliest_mono fun _ mem => ⟨List.mem_of_mem_eraseP mem, rfl⟩

/-- A timer outside the set is written to. -/
theorem earliest_put (out : t ∉ s.timers) : (s.put t timer).earliest = s.earliest := by
  unfold earliest
  show (match s.timers with | [] => _ | u :: _ => ((s.put t timer).key u : WithTop ℤ)) = _
  split
  case h_1 => rfl
  case h_2 u rest whole =>
    have other : u ≠ t := fun here => out (whole ▸ here ▸ List.mem_cons_self)
    exact congrArg _ (key_put_of_ne other)

/-- What all timers of the set have in common, they have when one is written to. -/
theorem forall_put {P : Timer Cb → Prop} (all : ∀ u ∈ s.timers, P (s.timer u)) (also : P timer) :
    ∀ u ∈ (s.put t timer).timers, P ((s.put t timer).timer u) := by
  intro u mem
  show P (Function.update s.timer t timer u)
  by_cases here : u = t
  · rw [here, Function.update_self]
    exact also
  · rw [Function.update_of_ne here]
    exact all u mem

/-- And so they have when it is put in. -/
theorem forall_put_insert {P : Timer Cb → Prop} (all : ∀ u ∈ s.timers, P (s.timer u))
    (also : P timer) :
    ∀ u ∈ ((s.put t timer).insert t).timers, P (((s.put t timer).insert t).timer u) := by
  intro u mem
  rcases mem_of_mem_insertBy mem with rfl | older
  · show P (Function.update s.timer u timer u)
    rw [Function.update_self]
    exact also
  · exact forall_put all also u older

/-! ### The operations -/

/-- A timer that is not inserted at the front leaves the earliest deadline alone. -/
theorem earliest_insert (behind : findBy s.key t (s.insert t).timers ≠ (s.insert t).timers.head?) :
    (s.insert t).earliest = s.earliest := by
  have heads : (s.insert t).timers.head? = s.timers.head? := by
    revert behind
    show findBy s.key t (insertBy s.key t s.timers) ≠ (insertBy s.key t s.timers).head? →
      (insertBy s.key t s.timers).head? = s.timers.head?
    cases s.timers with
    | nil => exact fun behind => absurd (List.find?_cons_of_pos (by simp)) behind
    | cons u rest =>
      unfold insertBy
      split
      case isTrue => exact fun behind => absurd (List.find?_cons_of_pos (by simp)) behind
      case isFalse notBefore =>
        split
        case isTrue => exact fun _ => rfl
        case isFalse => exact fun _ => rfl
  have same : ∀ m : TimerManager Cb,
      m.earliest = m.timers.head?.elim ⊤ fun u => (m.key u : WithTop ℤ) := by
    intro m
    unfold earliest
    cases m.timers with
    | nil => rfl
    | cons u rest => rfl
  rw [same, same, heads]
  rfl

/-- If `addTimer` does not tell of a timer, `m_tickled` is set, or the timer is not at the
front. -/
theorem addShared_quiet (out : t ∉ s.timers)
    (quiet : ((s.put t timer).addShared t).1 = false) :
    s.tickled = true ∧ ((s.put t timer).addShared t).2.tickled = true ∨
      ((s.put t timer).addShared t).2.earliest = s.earliest ∧
        ((s.put t timer).addShared t).2.tickled = s.tickled := by
  revert quiet
  unfold addShared
  dsimp only
  intro quiet
  have still := of_decide_eq_false quiet
  rw [if_neg still]
  by_cases front : findBy ((s.put t timer).insert t).key t ((s.put t timer).insert t).timers =
      ((s.put t timer).insert t).timers.head?
  · have told : s.tickled = true := by
      by_contra untold
      exact still ⟨front, Bool.eq_false_iff.mpr untold⟩
    exact .inl ⟨told, told⟩
  · exact .inr ⟨(earliest_insert front).trans (earliest_put out), rfl⟩

theorem earliest_cancel (ordered : s.Ordered) : s.earliest ≤ (s.cancel t).2.earliest := by
  rcases cancel_cases s t with ⟨-, same⟩ | ⟨-, blank, keeps, -, result⟩
  · rw [same]
  · have kept : ∀ u, (s.put t blank).key u = s.key u := fun u => by
      by_cases here : u = t
      · rw [here, key_put_self]
        exact keeps
      · exact key_put_of_ne here
    rcases result with result | ⟨result, -⟩
    · rw [result]
      exact ordered.earliest_mono fun u mem => ⟨List.mem_of_mem_eraseP mem, kept u⟩
    · rw [result]
      exact ordered.earliest_mono fun u mem => ⟨mem, kept u⟩

theorem earliest_resetErase (ordered : s.Ordered) : s.earliest ≤ (s.resetErase t).2.earliest := by
  unfold resetErase
  split
  · exact le_rfl
  · split
    · exact le_rfl
    · exact ordered.earliest_erase

/-- `refresh` moves a timer to a later deadline. -/
theorem earliest_refresh (ordered : s.Ordered) (foundIn : s.FoundIn t)
    (after : s.key t ≤ later now (s.timer t).ms) : s.earliest ≤ (s.refresh t now).2.earliest := by
  rcases refresh_cases s t now with same | ⟨given, found, result⟩
  · rw [same]
  · rw [result]
    refine le_earliest (forall_put_insert (P := fun timer => s.earliest ≤ timer.next) ?_ ?_)
    · exact fun u mem => ordered.earliest_le (List.mem_of_mem_eraseP mem)
    · exact (ordered.earliest_le (foundIn given found)).trans (WithTop.coe_le_coe.mpr after)

/-- A timer that is due is armed again at a later deadline, or is gone. -/
theorem expireFirst_le (due : s.due false now = true) (fits : isTime now)
    (rearms : ∀ u ∈ s.timers, (s.timer u).Rearms now) (le : ∀ u ∈ s.timers, x ≤ s.key u) :
    (∀ u ∈ (s.expireFirst now).timers, ((s.expireFirst now).timer u).Rearms now) ∧
      ∀ u ∈ (s.expireFirst now).timers, x ≤ (s.expireFirst now).key u := by
  revert due
  unfold TimerManager.due expireFirst
  split
  case h_1 => exact nofun
  case h_2 t rest whole =>
    intro due
    have first : t ∈ s.timers := whole ▸ List.mem_cons_self
    have later : ∀ u ∈ rest, u ∈ s.timers := fun u mem => whole ▸ List.mem_cons_of_mem t mem
    let fired : TimerManager Cb := { s with timers := rest, cbs := s.cbs ++ [(t, (s.timer t).cb)] }
    have rearms' : ∀ u ∈ fired.timers, (fired.timer u).Rearms now := fun u mem =>
      rearms u (later u mem)
    have le' : ∀ u ∈ fired.timers, x ≤ (fired.timer u).next := fun u mem => le u (later u mem)
    dsimp only
    split
    case isTrue recurring =>
      have reached : s.key t ≤ now := by simpa using due
      have fits' := rearms t first recurring reached
      have after : s.key t ≤ Timers.later now (s.timer t).ms := reached.trans (le_later fits fits')
      exact ⟨forall_put_insert rearms' fun _ _ => fits',
        forall_put_insert (P := fun timer => x ≤ timer.next) le'
          ((le t first).trans (WithTop.coe_le_coe.mpr after))⟩
    case isFalse once =>
      exact ⟨forall_put (s := fired) rearms' fun recurring => absurd recurring once,
        forall_put (s := fired) (P := fun timer => x ≤ timer.next) le' (le t first)⟩

theorem expireLoop_le {rounds : ℕ} (fits : isTime now)
    (rearms : ∀ u ∈ s.timers, (s.timer u).Rearms now) (le : ∀ u ∈ s.timers, x ≤ s.key u)
    (ends : expireLoop false now rounds s = some s') : ∀ u ∈ s'.timers, x ≤ s'.key u := by
  revert rearms le
  refine expireLoop_rule (fun _ _ le => le) (fun s _ due _ onward rearms le => ?_) ends
  obtain ⟨rearms', le'⟩ := expireFirst_le due fits rearms le
  exact onward rearms' le'

/-- After a clock rollover nothing is left in the set. -/
theorem expireLoop_rollover {rounds : ℕ} (ends : expireLoop true now rounds s = some s') :
    s'.timers = [] := by
  refine expireLoop_rule (fun idle => ?_) (fun s _ _ _ onward => onward) ends
  cases whole : s'.timers with
  | nil => rfl
  | cons t rest => simp [TimerManager.due, whole] at idle

/-- `listExpiredCb` leaves no earlier deadline. -/
theorem earliest_listExpiredCb {now' : ℤ} {rounds : ℕ} (ordered : s.Ordered) (fits : isTime now)
    (rearms : ∀ u ∈ s.timers, (s.timer u).Rearms now)
    (ends : s.listExpiredCb now now' rounds = some s') : s.earliest ≤ s'.earliest := by
  let noted := (s.detectClockRollover now').2
  refine le_earliest ?_
  cases rollover : (s.detectClockRollover now').1 with
  | true =>
    have ends' : expireLoop true now rounds noted = some s' := rollover ▸ ends
    rw [expireLoop_rollover ends']
    exact fun u mem => absurd mem List.not_mem_nil
  | false =>
    have ends' : expireLoop false now rounds noted = some s' := rollover ▸ ends
    exact expireLoop_le (s := noted) fits rearms (fun u mem => ordered.earliest_le mem) ends'

/-! ### The flag -/

theorem tickled_cancel : (s.cancel t).2.tickled = s.tickled := by
  rcases cancel_cases s t with ⟨-, same⟩ | ⟨-, blank, -, -, result | ⟨result, -⟩⟩
  · rw [same]
  · rw [result]
    rfl
  · rw [result]
    rfl

theorem tickled_refresh : (s.refresh t now).2.tickled = s.tickled := by
  rcases refresh_cases s t now with same | ⟨-, -, result⟩
  · rw [same]
  · rw [result]
    rfl

/-- A refresh beyond 64 bits puts a timer back at a deadline in the past, and nobody is told. -/
theorem earliest_refresh_lt (ordered : s.Ordered) (mem : t ∈ s.timers)
    (given : (s.timer t).cb.isSome = true) (fits : isTime now)
    (beyond : 2 ^ 63 ≤ now + (s.timer t).ms * 1000000)
    (small : ((s.timer t).ms : ℤ) * 1000000 < 2 ^ 64) :
    (s.refresh t now).2.earliest < now ∧ (s.refresh t now).2.tickled = s.tickled := by
  refine ⟨?_, tickled_refresh⟩
  let moved := (s.erase t).put t { s.timer t with next := later now (s.timer t).ms }
  have found : s.finds t = true := finds_of_mem mem
  have result : (s.refresh t now).2 = moved.insert t := by
    unfold refresh
    rw [if_neg (by simpa [Option.isSome_iff_ne_none] using given), if_neg (by simp [found])]
    rfl
  have ordered' : (moved.insert t).Ordered :=
    ordered.erase.put_insert ordered.notMem_erase (ordered.known t mem)
  -- the timer itself is in the set, or one that has its deadline
  obtain ⟨u, present, same⟩ : ∃ u ∈ (moved.insert t).timers,
      (moved.insert t).key u = later now (s.timer t).ms := by
    have key : moved.key t = later now (s.timer t).ms := key_put_self
    by_cases taken : ∃ u ∈ moved.timers, moved.key u = moved.key t
    · obtain ⟨u, older, equal⟩ := taken
      exact ⟨u, mem_insertBy_of_mem older, equal.trans key⟩
    · exact ⟨t, mem_insertBy_self fun u older equal => taken ⟨u, older, equal⟩, key⟩
  rw [result]
  refine (ordered'.earliest_le present).trans_lt ?_
  rw [same]
  exact WithTop.coe_lt_coe.mpr (later_lt fits beyond small)

theorem tickled_resetErase : (s.resetErase t).2.tickled = s.tickled := by
  unfold resetErase
  split
  · rfl
  · split
    · rfl
    · rfl

theorem tickled_expireLoop {rollover : Bool} {rounds : ℕ}
    (ends : expireLoop rollover now rounds s = some s') : s'.tickled = s.tickled := by
  have body : ∀ s : TimerManager Cb, (s.expireFirst now).tickled = s.tickled := by
    intro s
    unfold expireFirst
    split
    · rfl
    · dsimp only
      split
      · rfl
      · rfl
  refine expireLoop_rule (fun _ => rfl) (fun s _ _ _ onward => ?_) ends
  exact onward.trans (body s)

theorem tickled_listExpiredCb {now' : ℤ} {rounds : ℕ}
    (ends : s.listExpiredCb now now' rounds = some s') : s'.tickled = s.tickled :=
  tickled_expireLoop (s := (s.detectClockRollover now').2) ends

end TimerManager

/-! ### The readings -/

/-- The readings of the clock that a section uses. -/
def readings : SharedMove Tid Cb → List ℤ
  | .addTimer _ _ _ now | .refresh _ now | .resetInsert _ now => [now]
  | .listExpiredCb now now' _ => [now, now']
  | .cancel _ | .resetErase _ _ _ _ | .getNextTimer => []

/-- The deadline is counted from one of these readings of the clock. -/
def Timer.Counted (past : List ℤ) (timer : Timer Cb) : Prop :=
  ∃ start ∈ past, isTime start ∧ timer.next = later start timer.ms

/-- Every deadline is counted from one of these readings of the clock. -/
def Started (past : List ℤ) (s : TimerManager Cb) : Prop :=
  ∀ t < s.created, (s.timer t).Counted past

/-- The readings of the clock do not decrease. What `addTimer`, `reset` and `listExpiredCb` read
before they take the lock may be older than what other threads have read meanwhile. -/
def Ticks (past : List ℤ) : SharedMove Tid Cb → Prop
  | .addTimer _ _ _ now | .resetInsert _ now => isTime now
  | .refresh _ now => isTime now ∧ ∀ t ∈ past, t ≤ now
  | .listExpiredCb now now' _ => isTime now ∧ isTime now' ∧ now ≤ now' ∧ ∀ t ∈ past, t ≤ now'
  | .cancel _ | .resetErase _ _ _ _ | .getNextTimer => True

/-- A timer that is put back without a word has a deadline of 64 bits. -/
def NoOverflow (s : TimerManager Cb) : SharedMove Tid Cb → Prop
  | .refresh t now => t ∈ s.timers → now + (s.timer t).ms * 1000000 < 2 ^ 63
  | .listExpiredCb now _ _ => ∀ t ∈ s.timers, (s.timer t).Rearms now
  | _ => True

instance (past : List ℤ) (a : SharedMove Tid Cb) : Decidable (Ticks past a) := by
  induction a using SharedMove.casesOn <;> (dsimp only [Ticks]; infer_instance)

instance (s : TimerManager Cb) (a : SharedMove Tid Cb) : Decidable (NoOverflow s a) := by
  induction a using SharedMove.casesOn <;> (dsimp only [NoOverflow]; infer_instance)

namespace Started

variable {s s' : TimerManager Cb} {past : List ℤ} {t : ℕ} {now : ℤ} {timer : Timer Cb}

/-- The clock is read again. -/
theorem mono (started : Started past s) (more : List ℤ) : Started (more ++ past) s := by
  intro t known
  obtain ⟨start, mem, counted⟩ := started t known
  exact ⟨start, List.mem_append_right more mem, counted⟩

theorem put (started : Started past s) (counted : timer.Counted past) :
    Started past (s.put t timer) := by
  intro u known
  show (Function.update s.timer t timer u).Counted past
  by_cases here : u = t
  · rw [here, Function.update_self]
    exact counted
  · rw [Function.update_of_ne here]
    exact started u known

theorem addShared (started : Started past s) : Started past (s.addShared t).2 := by
  unfold TimerManager.addShared
  dsimp only
  split
  · exact started
  · exact started

theorem addTimer (started : Started past s) {ms : ℕ} {cb : Option Cb} {recurring : Bool}
    (read : now ∈ past) (fits : isTime now) :
    Started past (s.addTimer ms cb recurring now).2 := by
  refine addShared fun u known => ?_
  show (Function.update s.timer s.created _ u).Counted past
  by_cases here : u = s.created
  · rw [here, Function.update_self]
    exact ⟨now, read, fits, rfl⟩
  · rw [Function.update_of_ne here]
    exact started u (lt_of_le_of_ne (Nat.le_of_lt_succ known) here)

theorem cancel (started : Started past s) (known : t < s.created) :
    Started past (s.cancel t).2 := by
  unfold TimerManager.cancel
  split
  case isTrue => exact started
  case isFalse =>
    have blanked : Started past (s.put t { s.timer t with cb := none }) :=
      started.put (started t known)
    dsimp only
    split
    · exact blanked
    · exact blanked

theorem refresh (started : Started past s) (read : now ∈ past) (fits : isTime now) :
    Started past (s.refresh t now).2 := by
  rcases TimerManager.refresh_cases s t now with same | ⟨-, -, result⟩
  · rw [same]
    exact started
  · rw [result]
    exact put (s := s.erase t) started ⟨now, read, fits, rfl⟩

theorem resetErase (started : Started past s) : Started past (s.resetErase t).2 := by
  unfold TimerManager.resetErase
  split
  · exact started
  · split
    · exact started
    · exact started

theorem resetInsert (started : Started past s) {r : Reset} (known : r.timer < s.created)
    (read : now ∈ past) (fits : isTime now) : Started past (s.resetInsert r now).2 := by
  refine addShared (started.put ?_)
  cases fromNow : r.fromNow with
  | true => exact ⟨now, read, fits, by simp [TimerManager.resetTime, fromNow]⟩
  | false =>
    obtain ⟨start, before, inside, same⟩ := started r.timer known
    refine ⟨start, before, inside, ?_⟩
    simp [TimerManager.resetTime, fromNow, same, earlier_later inside]

theorem expireFirst (started : Started past s) (ordered : s.Ordered) (read : now ∈ past)
    (fits : isTime now) : Started past (s.expireFirst now) := by
  unfold TimerManager.expireFirst
  split
  case h_1 => exact started
  case h_2 t rest whole =>
    have known : t < s.created := ordered.known t (whole ▸ List.mem_cons_self)
    dsimp only
    split
    · exact put (t := t) started ⟨now, read, fits, rfl⟩
    · exact put (t := t) started (started t known)

theorem expireLoop {rollover : Bool} {rounds : ℕ} (started : Started past s)
    (ordered : s.Ordered) (read : now ∈ past) (fits : isTime now)
    (ends : TimerManager.expireLoop rollover now rounds s = some s') : Started past s' := by
  induction rounds generalizing s with
  | zero =>
    unfold TimerManager.expireLoop at ends
    split at ends
    · cases ends
    · exact Option.some_inj.mp ends ▸ started
  | succ rounds ih =>
    unfold TimerManager.expireLoop at ends
    split at ends
    · exact ih (started.expireFirst ordered read fits) ordered.expireFirst ends
    · exact Option.some_inj.mp ends ▸ started

theorem listExpiredCb {now' : ℤ} {rounds : ℕ} (started : Started past s)
    (ordered : s.Ordered) (read : now ∈ past) (fits : isTime now)
    (ends : s.listExpiredCb now now' rounds = some s') : Started past s' :=
  expireLoop (s := (s.detectClockRollover now').2) started ⟨ordered.sorted, ordered.known⟩ read
    fits ends

end Started

section Runs

variable [DecidableEq Tid] {s : Shared Tid Cb} {a : SharedMove Tid Cb} {past : List ℤ}

/-- Every section counts deadlines from readings of the clock. -/
theorem Started.next (started : Started past s.manager) (placed : Placed s)
    (available : sharedTimers.enabled s a) (ticks : Ticks past a) :
    Started (readings a ++ past) (sharedTimers.next s a).manager := by
  have started' := started.mono (readings a)
  cases a with
  | addTimer ms cb recurring now => exact started'.addTimer List.mem_cons_self ticks
  | cancel t => exact started'.cancel available
  | refresh t now => exact started'.refresh List.mem_cons_self ticks.1
  | resetErase p t ms fromNow => exact started'.resetErase
  | resetInsert p now =>
    obtain ⟨r, under⟩ := Option.isSome_iff_exists.mp available
    rw [next_resetInsert under]
    exact started'.resetInsert (placed.taken p r under).1 List.mem_cons_self ticks
  | listExpiredCb now now' rounds =>
    obtain ⟨manager, ends⟩ := Option.isSome_iff_exists.mp available
    rw [next_listExpiredCb ends]
    exact started'.listExpiredCb placed.ordered List.mem_cons_self ticks.1 ends
  | getNextTimer => exact started'

/-- If a section that puts a timer in does not tell, either `m_tickled` is set before and after,
or the earliest deadline is not earlier than before, and `m_tickled` is not set anew. -/
theorem earliest_next (placed : Placed s) (started : Started past s.manager)
    (available : sharedTimers.enabled s a) (distinct : s.manager.DistinctTimes)
    (ticks : Ticks past a) (fits : NoOverflow s.manager a) (quiet : atFront s a = false) :
    s.manager.tickled = true ∧ (sharedTimers.next s a).manager.tickled = true ∨
      s.manager.earliest ≤ (sharedTimers.next s a).manager.earliest ∧
        ((sharedTimers.next s a).manager.tickled = true → s.manager.tickled = true) := by
  have ordered := placed.ordered
  cases a with
  | addTimer ms cb recurring now =>
    let made : TimerManager Cb := { s.manager with created := s.manager.created + 1 }
    have out : s.manager.created ∉ made.timers := fun mem =>
      lt_irrefl _ (ordered.known _ mem)
    exact (made.addShared_quiet out quiet).imp_right fun ⟨same, told⟩ =>
      ⟨same.ge, told.symm.trans⟩
  | cancel t =>
    exact .inr ⟨TimerManager.earliest_cancel ordered, TimerManager.tickled_cancel.symm.trans⟩
  | refresh t now =>
    have foundIn := distinct.foundIn ordered available
    refine .inr ⟨?_, TimerManager.tickled_refresh.symm.trans⟩
    rcases TimerManager.refresh_cases s.manager t now with same | ⟨given, found, -⟩
    · exact le_of_eq (congrArg TimerManager.earliest same.symm)
    · obtain ⟨start, before, inside, same⟩ := started t available
      have order : start ≤ now := ticks.2 start before
      refine TimerManager.earliest_refresh ordered foundIn ?_
      exact same.trans_le (later_le_later inside order (fits (foundIn given found)))
  | resetErase p t ms fromNow =>
    exact .inr
      ⟨TimerManager.earliest_resetErase ordered, TimerManager.tickled_resetErase.symm.trans⟩
  | resetInsert p now =>
    obtain ⟨r, under⟩ := Option.isSome_iff_exists.mp available
    dsimp only [atFront] at quiet
    rw [next_resetInsert under]
    rw [under] at quiet
    exact (s.manager.addShared_quiet (placed.taken p r under).2 quiet).imp_right
      fun ⟨same, told⟩ => ⟨same.ge, told.symm.trans⟩
  | listExpiredCb now now' rounds =>
    obtain ⟨manager, ends⟩ := Option.isSome_iff_exists.mp available
    rw [next_listExpiredCb ends]
    exact .inr ⟨TimerManager.earliest_listExpiredCb ordered ticks.1 fits ends,
      (TimerManager.tickled_listExpiredCb ends).symm.trans⟩
  | getNextTimer => exact .inr ⟨le_rfl, nofun⟩

end Runs

end CoroutineService.Timers
