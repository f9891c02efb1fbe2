import CoroutineService.Timers.Shared
import Mathlib.Algebra.Order.Group.Nat

/-!
# The end of a pass

`listExpiredCb` drains the set it puts recurring timers back into. A pass is over once no
timer in the set is due, so a recurring timer that is due again as soon as it has been put
back keeps the pass going for ever. Only the set itself can stop it: it refuses the timer
when another one stands at exactly the deadline that is asked for.

## Main definitions

* `DueAt`: what the loop asks of the first deadline
* `TimerManager.Drains`: no recurring timer of the set comes back into the pass

## Main results

* `expireLoop_ends`: a set that drains is drained in as many rounds as it has timers
* `drains_of_expireLoop`: no other set is
* `ordered_of_reachable`: the set stays in order
* `listExpiredCb_ends_iff`: when a pass ends
-/

set_option autoImplicit false

namespace CoroutineService.Timers

open CoroutineService.Containers CoroutineService.Transition

variable {Cb : Type*}

/-- The condition of the loop of `listExpiredCb`, for a deadline. -/
def DueAt (rollover : Bool) (now next : ℤ) : Prop := rollover = true ∨ next ≤ now

instance (rollover : Bool) (now next : ℤ) : Decidable (DueAt rollover now next) :=
  inferInstanceAs (Decidable (_ ∨ _))

theorem DueAt.mono {rollover : Bool} {now next next' : ℤ} (due : DueAt rollover now next)
    (before : next' ≤ next) : DueAt rollover now next' :=
  due.imp_right before.trans

/-- The deadline a recurring timer is put back with. -/
def Timer.again (now : ℤ) (timer : Timer Cb) : ℤ := later now timer.ms

namespace TimerManager

variable {s s' : TimerManager Cb} {t u : ℕ} {now : ℤ} {rollover : Bool} {rest : List ℕ}

/-- A recurring timer that the pass takes out is not due again with its new deadline, or a
later timer of the set stands at that deadline. -/
def Drains (s : TimerManager Cb) (rollover : Bool) (now : ℤ) : Prop :=
  ∀ t ∈ s.timers, (s.timer t).recurring = true → DueAt rollover now (s.key t) →
    ¬DueAt rollover now ((s.timer t).again now) ∨
      ∃ u ∈ s.timers, s.key t < s.key u ∧ s.key u = (s.timer t).again now

instance (s : TimerManager Cb) (rollover : Bool) (now : ℤ) : Decidable (s.Drains rollover now) :=
  List.decidableBAll _ s.timers

/-! ### One round -/

theorem due_cons (whole : s.timers = t :: rest) :
    s.due rollover now = true ↔ DueAt rollover now (s.key t) := by
  unfold due DueAt
  rw [whole]
  simp

/-- Any timer that is due keeps the loop going. -/
theorem Ordered.due_of_mem (ordered : s.Ordered) (mem : t ∈ s.timers)
    (due : DueAt rollover now (s.key t)) : s.due rollover now = true := by
  cases whole : s.timers with
  | nil => exact absurd (whole ▸ mem) List.not_mem_nil
  | cons first rest =>
    have sorted := ordered.sorted
    rw [whole] at mem sorted
    refine (due_cons whole).mpr ?_
    rcases List.mem_cons.mp mem with rfl | behind
    · exact due
    · exact due.mono ((List.pairwise_cons.mp sorted).1 t behind).le

/-- A round writes to the first timer only. -/
theorem timer_expireFirst (now : ℤ) (whole : s.timers = t :: rest) (other : u ≠ t) :
    (s.expireFirst now).timer u = s.timer u := by
  unfold expireFirst
  rw [whole]
  dsimp only
  split
  · exact Function.update_of_ne other _ _
  · exact Function.update_of_ne other _ _

theorem key_expireFirst (now : ℤ) (whole : s.timers = t :: rest) (other : u ≠ t) :
    (s.expireFirst now).key u = s.key u :=
  congrArg Timer.next (timer_expireFirst now whole other)

/-- A timer that does not recur is gone. -/
theorem timers_expireFirst_once (whole : s.timers = t :: rest)
    (once : ¬(s.timer t).recurring = true) : (s.expireFirst now).timers = rest := by
  unfold expireFirst
  rw [whole]
  dsimp only
  rw [if_neg once]
  rfl

theorem timer_expireFirst_recurring (now : ℤ) (whole : s.timers = t :: rest)
    (recurring : (s.timer t).recurring = true) :
    (s.expireFirst now).timer t = { s.timer t with next := (s.timer t).again now } := by
  unfold expireFirst
  rw [whole]
  dsimp only
  rw [if_pos recurring]
  exact Function.update_self _ _ _

theorem key_expireFirst_recurring (now : ℤ) (whole : s.timers = t :: rest)
    (recurring : (s.timer t).recurring = true) :
    (s.expireFirst now).key t = (s.timer t).again now :=
  congrArg Timer.next (timer_expireFirst_recurring now whole recurring)

/-- A timer that recurs is put back with its new deadline. -/
theorem timers_expireFirst_recurring (whole : s.timers = t :: rest)
    (recurring : (s.timer t).recurring = true) :
    (s.expireFirst now).timers = insertBy (s.expireFirst now).key t rest := by
  unfold expireFirst
  rw [whole]
  dsimp only
  rw [if_pos recurring]
  rfl

/-- A timer behind the first at the new deadline keeps the first from coming back. -/
theorem Ordered.refuses (ordered : s.Ordered) (whole : s.timers = t :: rest)
    (recurring : (s.timer t).recurring = true) (mem : u ∈ rest)
    (there : s.key u = (s.timer t).again now) : (s.expireFirst now).timers = rest := by
  obtain ⟨out, -, fired⟩ := ordered.pop whole []
  have same : ∀ u ∈ rest, (s.expireFirst now).key u = s.key u := fun u mem =>
    key_expireFirst now whole (ne_of_mem_of_not_mem mem out)
  have again := key_expireFirst_recurring now whole recurring
  have sorted : SortedBy (s.expireFirst now).key rest := fired.sorted.congr same
  rw [timers_expireFirst_recurring whole recurring]
  exact insertBy_of_mem sorted mem (by rw [same u mem, there, again])

/-- Among the timers behind the first, the new deadline is taken or the timer comes back. -/
theorem Ordered.put_back (now : ℤ) (ordered : s.Ordered) (whole : s.timers = t :: rest)
    (recurring : (s.timer t).recurring = true) :
    (∃ u ∈ rest, s.key u = (s.timer t).again now) ∧ (s.expireFirst now).timers = rest ∨
      t ∈ (s.expireFirst now).timers := by
  by_cases taken : ∃ u ∈ rest, s.key u = (s.timer t).again now
  · obtain ⟨u, mem, there⟩ := taken
    exact .inl ⟨⟨u, mem, there⟩, ordered.refuses whole recurring mem there⟩
  · obtain ⟨out, -, -⟩ := ordered.pop whole []
    have again := key_expireFirst_recurring now whole recurring
    rw [timers_expireFirst_recurring whole recurring]
    refine .inr (mem_insertBy_self fun u mem here => taken ⟨u, mem, ?_⟩)
    rw [← key_expireFirst now whole (ne_of_mem_of_not_mem mem out), here, again]

/-- Nothing but the first timer comes back. -/
theorem mem_expireFirst (whole : s.timers = t :: rest) (mem : u ∈ (s.expireFirst now).timers) :
    u = t ∨ u ∈ rest := by
  by_cases recurring : (s.timer t).recurring = true
  · rw [timers_expireFirst_recurring whole recurring] at mem
    exact mem_of_mem_insertBy mem
  · rw [timers_expireFirst_once whole recurring] at mem
    exact .inr mem

theorem mem_expireFirst_of_mem (whole : s.timers = t :: rest) (mem : u ∈ rest) :
    u ∈ (s.expireFirst now).timers := by
  by_cases recurring : (s.timer t).recurring = true
  · rw [timers_expireFirst_recurring whole recurring]
    exact mem_insertBy_of_mem mem
  · rw [timers_expireFirst_once whole recurring]
    exact mem

/-! ### A set that drains -/

/-- The timers the pass still has to take out. -/
def dueTimers (s : TimerManager Cb) (rollover : Bool) (now : ℤ) : ℕ :=
  s.timers.countP fun t => DueAt rollover now (s.key t)

/-- If the timers drain, a round does not leave the first one due. -/
theorem Drains.not_due (drains : s.Drains rollover now) (ordered : s.Ordered)
    (whole : s.timers = t :: rest) (due : DueAt rollover now (s.key t))
    (recurring : (s.timer t).recurring = true) :
    (s.expireFirst now).timers = rest ∨ ¬DueAt rollover now ((s.timer t).again now) := by
  rcases drains t (whole ▸ List.mem_cons_self) recurring due with ahead | ⟨u, mem, before, there⟩
  · exact .inr ahead
  · -- the timer that stands at the new deadline is not the first itself
    have behind : u ∈ rest := by
      rcases List.mem_cons.mp (whole ▸ mem) with rfl | behind
      · exact absurd before (lt_irrefl _)
      · exact behind
    exact .inl (ordered.refuses whole recurring behind there)

/-- A round leaves one timer less to be taken out. -/
theorem Drains.dueTimers_lt (drains : s.Drains rollover now) (ordered : s.Ordered)
    (whole : s.timers = t :: rest) (due : DueAt rollover now (s.key t)) :
    (s.expireFirst now).dueTimers rollover now < s.dueTimers rollover now := by
  obtain ⟨out, -, -⟩ := ordered.pop whole []
  have behind : rest.countP (fun u => DueAt rollover now ((s.expireFirst now).key u)) =
      rest.countP fun u => DueAt rollover now (s.key u) := by
    refine List.countP_congr fun u mem => ?_
    rw [key_expireFirst now whole (ne_of_mem_of_not_mem mem out)]
  have before : s.dueTimers rollover now =
      rest.countP (fun u => DueAt rollover now (s.key u)) + 1 := by
    unfold dueTimers
    rw [whole, List.countP_cons_of_pos (by simpa using due)]
  have after : (s.expireFirst now).dueTimers rollover now =
      rest.countP fun u => DueAt rollover now ((s.expireFirst now).key u) := by
    unfold dueTimers
    by_cases recurring : (s.timer t).recurring = true
    · rcases drains.not_due ordered whole due recurring with refused | ahead
      · rw [refused]
      · rw [timers_expireFirst_recurring whole recurring]
        refine countP_insertBy (decide_eq_false fun again => ahead ?_)
        rwa [key, timer_expireFirst_recurring now whole recurring] at again
    · rw [timers_expireFirst_once whole recurring]
  rw [before, after, behind]
  exact Nat.lt_succ_self _

/-- The timers that are left drain. -/
theorem Drains.expireFirst (drains : s.Drains rollover now) (ordered : s.Ordered)
    (whole : s.timers = t :: rest) (due : DueAt rollover now (s.key t)) :
    (s.expireFirst now).Drains rollover now := by
  obtain ⟨out, -, -⟩ := ordered.pop whole []
  have sorted := ordered.sorted
  rw [whole] at sorted
  intro u mem recurring due'
  by_cases here : u = t
  · -- the first timer is back: its new deadline is not due
    subst here
    refine absurd due' ?_
    by_cases recurring' : (s.timer u).recurring = true
    · rcases drains.not_due ordered whole due recurring' with refused | ahead
      · exact absurd (refused ▸ mem) out
      · rwa [key, timer_expireFirst_recurring now whole recurring']
    · rw [timers_expireFirst_once whole recurring'] at mem
      exact absurd mem out
  · have behind : u ∈ rest := (mem_expireFirst whole mem).resolve_left here
    rw [timer_expireFirst now whole here] at recurring ⊢
    rw [key_expireFirst now whole here] at due' ⊢
    rcases drains u (whole ▸ List.mem_cons_of_mem t behind) recurring due' with
      ahead | ⟨v, mem', before, there⟩
    · exact .inl ahead
    · have first : s.key t < s.key v :=
        ((List.pairwise_cons.mp sorted).1 u behind).trans before
      have later : v ∈ rest := by
        rcases List.mem_cons.mp (whole ▸ mem') with rfl | later
        · exact absurd first (lt_irrefl _)
        · exact later
      have other : v ≠ t := ne_of_mem_of_not_mem later out
      refine .inr ⟨v, mem_expireFirst_of_mem whole later, ?_, ?_⟩
      · rwa [key_expireFirst now whole other]
      · rwa [key_expireFirst now whole other]

/-- A set that drains is drained in as many rounds as it has timers to be taken out. -/
theorem expireLoop_ends {rounds : ℕ} (drains : s.Drains rollover now) (ordered : s.Ordered)
    (enough : s.dueTimers rollover now ≤ rounds) :
    (expireLoop rollover now rounds s).isSome = true := by
  induction rounds generalizing s with
  | zero =>
    unfold expireLoop
    rw [if_neg]
    · rfl
    · intro more
      obtain ⟨t, rest, whole⟩ := exists_of_due more
      have fewer := drains.dueTimers_lt ordered whole ((due_cons whole).mp more)
      omega
  | succ rounds ih =>
    unfold expireLoop
    split
    case isFalse => rfl
    case isTrue more =>
      obtain ⟨t, rest, whole⟩ := exists_of_due more
      have first := (due_cons whole).mp more
      have fewer := drains.dueTimers_lt ordered whole first
      exact ih (drains.expireFirst ordered whole first) ordered.expireFirst (by omega)

/-! ### A set that does not -/

/-- If what a round leaves drains, so does the set the round began with. -/
theorem Drains.of_expireFirst (drains : (s.expireFirst now).Drains rollover now)
    (ordered : s.Ordered) (whole : s.timers = t :: rest) : s.Drains rollover now := by
  obtain ⟨out, -, -⟩ := ordered.pop whole []
  have sorted := ordered.sorted
  rw [whole] at sorted
  -- a first timer that comes back although it is due comes back for ever
  have stuck : (s.timer t).recurring = true → t ∈ (s.expireFirst now).timers →
      ¬DueAt rollover now ((s.timer t).again now) := by
    intro recurring back due
    have there := timer_expireFirst_recurring now whole recurring
    have again := key_expireFirst_recurring now whole recurring
    rcases drains t back (by rw [there]; exact recurring) (by rwa [again]) with
      ahead | ⟨u, -, before, same⟩
    · rw [there] at ahead
      exact ahead due
    · rw [there] at same
      exact before.ne (again.trans same.symm)
  intro u mem recurring due
  by_cases ahead : DueAt rollover now ((s.timer u).again now)
  case neg => exact .inl ahead
  case pos =>
    rcases List.mem_cons.mp (whole ▸ mem) with rfl | behind
    -- The first timer itself is refused or put back, which would never end.
    · rcases ordered.put_back now whole recurring with ⟨⟨v, mem', there⟩, -⟩ | back
      · refine .inr ⟨v, whole ▸ List.mem_cons_of_mem u mem', ?_, there⟩
        exact (List.pairwise_cons.mp sorted).1 v mem'
      · exact absurd ahead (stuck recurring back)
    · have other : u ≠ t := ne_of_mem_of_not_mem behind out
      have same := timer_expireFirst now whole other
      have keySame := key_expireFirst now whole other
      rcases drains u (mem_expireFirst_of_mem whole behind) (by rwa [same]) (by rwa [keySame]) with
        notDue | ⟨v, mem', before, there⟩
      · rw [same] at notDue
        exact .inl notDue
      · rw [same] at there
        rw [keySame] at before
        rcases mem_expireFirst whole mem' with rfl | later
        · -- `u` would be refused because of the first timer, which is stuck itself
          by_cases recurring' : (s.timer v).recurring = true
          · have again := key_expireFirst_recurring now whole recurring'
            rw [← again, there] at stuck
            exact absurd ahead (stuck recurring' mem')
          · rw [timers_expireFirst_once whole recurring'] at mem'
            exact absurd mem' out
        · have other' : v ≠ t := ne_of_mem_of_not_mem later out
          rw [key_expireFirst now whole other'] at before there
          exact .inr ⟨v, whole ▸ List.mem_cons_of_mem t later, before, there⟩

/-- Only a set that drains is ever drained. -/
theorem drains_of_expireLoop {rounds : ℕ} (ordered : s.Ordered)
    (ends : (expireLoop rollover now rounds s).isSome = true) : s.Drains rollover now := by
  obtain ⟨s', ends⟩ := Option.isSome_iff_exists.mp ends
  revert ordered
  refine expireLoop_rule (fun idle ordered t mem _ due => ?_)
    (fun s _ more _ onward ordered => ?_) ends
  · exact absurd (ordered.due_of_mem mem due) idle
  · obtain ⟨t, rest, whole⟩ := exists_of_due more
    exact (onward ordered.expireFirst).of_expireFirst ordered whole

end TimerManager

open TimerManager

/-! ### Sets of timers that can be reached -/

/-- Every operation leaves the set in order. -/
theorem TimerManager.Ordered.next {s : TimerManager Cb} {a : Move Cb} (ordered : s.Ordered)
    (available : timerMachine.enabled s a) : (timerMachine.next s a).Ordered := by
  cases a with
  | addTimer ms cb recurring now => exact ordered.addTimer
  | cancel t => exact ordered.cancel
  | refresh t now => exact ordered.refresh available
  | reset t ms fromNow now =>
    show (s.reset t ms fromNow now).2.Ordered
    by_cases same : ms = (s.timer t).ms ∧ fromNow = false
    · unfold TimerManager.reset
      rw [if_pos same]
      exact ordered
    · rw [s.reset_eq t ms fromNow now same]
      split
      case isTrue proceeds =>
        -- the timer has been erased, so it is outside the set when it is written to
        have erased : (s.resetErase t).2 = s.erase t := by
          revert proceeds
          unfold TimerManager.resetErase
          split
          · exact nofun
          · split
            · exact nofun
            · exact fun _ => rfl
        rw [erased]
        exact (ordered.erase.put_insert ordered.notMem_erase available).addShared
      case isFalse => exact ordered
  | listExpiredCb now now' rounds =>
    obtain ⟨manager, ends⟩ := Option.isSome_iff_exists.mp available
    show ((s.listExpiredCb now now' rounds).getD s).Ordered
    rw [ends]
    exact ordered.listExpiredCb ends

theorem ordered_of_reachable {s : TimerManager Cb} (reached : timerMachine.Reachable s) :
    s.Ordered := by
  refine reached.invariant (I := TimerManager.Ordered) ?_ ?_
  · rintro _ ⟨now, rfl⟩
    exact ⟨List.Pairwise.nil, fun t mem => absurd mem List.not_mem_nil⟩
  · exact fun s a ordered available _ => ordered.next available

/-- A pass of `listExpiredCb` ends if and only if its timers drain. -/
theorem listExpiredCb_ends_iff (s : TimerManager Cb) (ordered : s.Ordered) (now now' : ℤ) :
    (∃ rounds, (s.listExpiredCb now now' rounds).isSome = true) ↔
      s.Drains (s.detectClockRollover now').1 now := by
  have noted : (s.detectClockRollover now').2.Ordered := ⟨ordered.sorted, ordered.known⟩
  constructor
  · rintro ⟨rounds, ends⟩
    exact drains_of_expireLoop (s := (s.detectClockRollover now').2) noted ends
  · intro drains
    exact ⟨_, expireLoop_ends (s := (s.detectClockRollover now').2) drains noted le_rfl⟩

/-- A timer that recurs every second and one that does not, two hours after zero. -/
def twoTimers : TimerManager Unit :=
  timerMachine.after (TimerManager.initial 7200000000000)
    [.addTimer 1000 (some ()) true 7200000000000, .addTimer 500 (some ()) false 7200000000000]

theorem reachable_twoTimers : timerMachine.Reachable twoTimers := by
  have starts : timerMachine.init (TimerManager.initial 7200000000000 : TimerManager Unit) :=
    ⟨_, rfl⟩
  have follows : timerMachine.Follows (fun _ _ => True)
      (TimerManager.initial 7200000000000 : TimerManager Unit)
      [.addTimer 1000 (some ()) true 7200000000000,
        .addTimer 500 (some ()) false 7200000000000] := by
    decide +kernel
  exact (Machine.Reaches.start starts).follow follows

/-- A second later both are due, and the pass ends. -/
theorem listExpiredCb_ends_twoTimers :
    ∃ rounds, (twoTimers.listExpiredCb 7201000000000 7201000000000 rounds).isSome = true :=
  (listExpiredCb_ends_iff twoTimers (ordered_of_reachable reachable_twoTimers) 7201000000000
    7201000000000).mpr (by decide +kernel)

/-- When the clock has been set back to zero, the timer that recurs keeps the pass going. -/
theorem listExpiredCb_hangs :
    ¬ ∀ s : TimerManager Unit, timerMachine.Reachable s → ∀ now now',
      ∃ rounds, (s.listExpiredCb now now' rounds).isSome = true := by
  intro ends
  obtain ⟨rounds, ended⟩ := ends twoTimers reachable_twoTimers 0 0
  have ordered := ordered_of_reachable reachable_twoTimers
  have noted : (twoTimers.detectClockRollover 0).2.Ordered := ⟨ordered.sorted, ordered.known⟩
  have drains := drains_of_expireLoop (s := (twoTimers.detectClockRollover 0).2) noted ended
  have stuck :
      ¬(twoTimers.detectClockRollover 0).2.Drains (twoTimers.detectClockRollover 0).1 0 := by
    decide +kernel
  exact stuck drains

end CoroutineService.Timers
