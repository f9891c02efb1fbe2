import CoroutineService.Timers.TimerManager

/-!
# No timer is lost

The set of timers refuses a timer whose `m_next` another one has, and neither
`addTimer` nor the operations that put a timer back look at the result of the
insertion. As long as insertions meet no equal time, a timer is in the set exactly
while its callback is there.

## Main definitions

* `Distinct`: the insertions of an operation meet no equal `m_next`
* `Kept`: the invariant of the set
* `NoTimerLost`: a timer is in the set until it is cancelled or has fired

## Main results

* `noTimerLost_of_reaches`: no timer is lost in runs with distinct times
* `timer_lost`: two timers added at one time with one delay
-/

set_option autoImplicit false

namespace CoroutineService.Timers

open CoroutineService.Containers CoroutineService.Transition

variable {Cb : Type*} {s : TimerManager Cb} {a : Move Cb} {t : ℕ} {now : ℤ}

namespace TimerManager

/-- No timer of the set but `t` itself has the time `next`. -/
def Free (s : TimerManager Cb) (t : ℕ) (next : ℤ) : Prop :=
  ∀ u ∈ s.timers, u ≠ t → s.key u ≠ next

instance (s : TimerManager Cb) (t : ℕ) (next : ℤ) : Decidable (s.Free t next) :=
  inferInstanceAs (Decidable (∀ u ∈ s.timers, u ≠ t → s.key u ≠ next))

/-- No recurring timer is put back to a time taken, in any round of the loop. -/
def DistinctLoop (rollover : Bool) (now : ℤ) : ℕ → TimerManager Cb → Prop
  | 0, _ => True
  | rounds + 1, s => s.due rollover now = true →
    (∀ t ∈ s.timers.head?, (s.timer t).recurring = true →
      s.Free t (later now (s.timer t).ms)) ∧
    DistinctLoop rollover now rounds (s.expireFirst now)

instance decidableDistinctLoop (rollover : Bool) (now : ℤ) :
    ∀ (rounds : ℕ) (s : TimerManager Cb), Decidable (DistinctLoop rollover now rounds s)
  | 0, _ => isTrue trivial
  | rounds + 1, s =>
    have := decidableDistinctLoop rollover now rounds (s.expireFirst now)
    inferInstanceAs (Decidable (_ → _ ∧ _))

end TimerManager

/-- The insertions an operation makes meet no timer of equal `m_next`, and a new
timer has a callback. -/
def Distinct (s : TimerManager Cb) : Move Cb → Prop
  | .addTimer ms cb _ now => cb.isSome = true ∧ s.Free s.created (later now ms)
  | .cancel _ => True
  | .refresh t now => (s.timer t).cb.isSome = true → s.Free t (later now (s.timer t).ms)
  | .reset t ms fromNow now =>
    (s.timer t).cb.isSome = true → ¬ (ms = (s.timer t).ms ∧ fromNow = false) →
      s.Free t (later (if fromNow then now else earlier (s.timer t).next (s.timer t).ms) ms)
  | .listExpiredCb now now' rounds =>
    TimerManager.DistinctLoop (s.detectClockRollover now').1 now rounds
      (s.detectClockRollover now').2

instance (s : TimerManager Cb) (a : Move Cb) : Decidable (Distinct s a) := by
  induction a using Move.casesOn <;> (dsimp only [Distinct]; infer_instance)

/-- Which timers have been cancelled so far. -/
def record (s : TimerManager Cb) (a : Move Cb) (cancelled : List ℕ) : List ℕ :=
  match a with
  | .cancel t => if (s.timer t).cb.isSome then t :: cancelled else cancelled
  | _ => cancelled

/-- A timer that was created is in the set exactly while its callback is there,
that is until it is cancelled or, unless it recurs, has fired. -/
def NoTimerLost (s : TimerManager Cb) (cancelled : List ℕ) : Prop :=
  ∀ t < s.created, (t ∈ s.timers ↔ (s.timer t).cb.isSome = true) ∧
    ((s.timer t).cb.isSome = true ↔
      t ∉ cancelled ∧ ((s.timer t).recurring = true ∨ t ∉ s.cbs.map Prod.fst))

/-- The set is ordered and holds timers that exist; those not created yet are
neither cancelled nor fired; and no timer is lost. -/
structure Kept (s : TimerManager Cb) (cancelled : List ℕ) : Prop where
  sorted : SortedBy s.key s.timers
  known : ∀ t ∈ s.timers, t < s.created
  past : ∀ t, t ∈ cancelled ∨ t ∈ s.cbs.map Prod.fst → t < s.created
  retained : NoTimerLost s cancelled

/-! ### The set under one operation -/

section Set

open TimerManager

theorem mem_erase (sorted : SortedBy s.key s.timers) (mem : t ∈ s.timers) {u : ℕ} :
    u ∈ (s.erase t).timers ↔ u ∈ s.timers ∧ u ≠ t := by
  refine sorted.mem_eraseBy.trans (and_congr_right fun present => not_congr ?_)
  exact ⟨sorted.eq_of_key present mem, fun same => same ▸ rfl⟩

/-- Erasing a timer that is first leaves the others. -/
theorem erase_head {rest : List ℕ} (whole : s.timers = t :: rest) :
    s.erase t = { s with timers := rest } := by
  unfold TimerManager.erase eraseBy
  rw [whole, List.eraseP_cons_of_pos (by simp)]

theorem finds_of_mem (mem : t ∈ s.timers) : s.finds t = true := findBy_isSome.mpr ⟨t, mem, rfl⟩

theorem key_put_of_ne {u : ℕ} {timer : Timer Cb} (other : u ≠ t) :
    (s.put t timer).key u = s.key u := by
  show (Function.update s.timer t timer u).next = (s.timer u).next
  rw [Function.update_of_ne other]

theorem key_put_self {timer : Timer Cb} : (s.put t timer).key t = timer.next := by
  show (Function.update s.timer t timer t).next = timer.next
  rw [Function.update_self]

variable {timer : Timer Cb}

/-- Writing to a timer outside the set does not disturb the order. -/
theorem sorted_put (sorted : SortedBy s.key s.timers) (out : t ∉ s.timers) :
    SortedBy (s.put t timer).key s.timers :=
  sorted.congr fun _ mem => key_put_of_ne (ne_of_mem_of_not_mem mem out)

/-- A timer outside the set is put in with a time that is free. -/
theorem mem_insert_put (out : t ∉ s.timers) (free : s.Free t timer.next) {u : ℕ} :
    u ∈ ((s.put t timer).insert t).timers ↔ u = t ∨ u ∈ s.timers := by
  refine mem_insertBy fun u mem => ?_
  have other : u ≠ t := ne_of_mem_of_not_mem mem out
  rw [key_put_of_ne other, key_put_self]
  exact free u mem other

end Set

namespace Kept

open TimerManager

variable {cancelled : List ℕ}

theorem mem_iff (kept : Kept s cancelled) (known : t < s.created) :
    t ∈ s.timers ↔ (s.timer t).cb.isSome = true := (kept.retained t known).1

/-- Erasing a timer leaves an ordered set without it. -/
theorem erase (kept : Kept s cancelled) (mem : t ∈ s.timers) :
    SortedBy (s.erase t).key (s.erase t).timers ∧ t ∉ (s.erase t).timers :=
  ⟨kept.sorted.eraseBy, fun still => ((mem_erase kept.sorted mem).mp still).2 rfl⟩

/-- Putting a timer back at a free time, its callback untouched, loses no timer. -/
theorem rearm (kept : Kept s cancelled) (mem : t ∈ s.timers) {timer : Timer Cb}
    (sameCb : timer.cb = (s.timer t).cb) (sameKind : timer.recurring = (s.timer t).recurring)
    (free : s.Free t timer.next) : Kept (((s.erase t).put t timer).insert t) cancelled := by
  obtain ⟨sorted, out⟩ := kept.erase mem
  have free' : (s.erase t).Free t timer.next := fun u present =>
    free u ((mem_erase kept.sorted mem).mp present).1
  have members : ∀ u, u ∈ (((s.erase t).put t timer).insert t).timers ↔ u ∈ s.timers := by
    intro u
    rw [mem_insert_put out free', mem_erase kept.sorted mem]
    by_cases here : u = t
    · simp [here, mem]
    · simp [here]
  refine ⟨(sorted_put sorted out).insertBy, fun u present => ?_, kept.past, fun u known => ?_⟩
  · exact kept.known u ((members u).mp present)
  · rw [members]
    by_cases here : u = t
    · subst here
      have := kept.retained u known
      simpa [TimerManager.insert, TimerManager.put, TimerManager.erase, sameCb, sameKind] using this
    · have := kept.retained u known
      simpa [TimerManager.insert, TimerManager.put, TimerManager.erase, here] using this

theorem initially : Kept (TimerManager.initial now : TimerManager Cb) [] where
  sorted := List.Pairwise.nil
  known _ mem := absurd mem List.not_mem_nil
  past _ mem := absurd mem (by simp [TimerManager.initial])
  retained _ known := absurd known (Nat.not_lt_zero _)

/-- The first insertion of a timer notes at most that it stands first. -/
theorem addShared (kept : Kept (s.insert t) cancelled) : Kept (s.addShared t).2 cancelled := by
  unfold TimerManager.addShared
  dsimp only
  split
  · exact ⟨kept.sorted, kept.known, kept.past, kept.retained⟩
  · exact kept

theorem addTimer (kept : Kept s cancelled) {ms : ℕ} {cb : Option Cb} {recurring : Bool}
    (given : cb.isSome = true) (free : s.Free s.created (later now ms)) :
    Kept (s.addTimer ms cb recurring now).2 cancelled := by
  let new : Timer Cb := ⟨recurring, ms, later now ms, cb⟩
  let made : TimerManager Cb := { s with created := s.created + 1 }
  show Kept ((made.put s.created new).addShared s.created).2 cancelled
  refine addShared ?_
  have out : s.created ∉ made.timers := fun mem => lt_irrefl _ (kept.known _ mem)
  have free' : made.Free s.created new.next := free
  have members : ∀ u, u ∈ ((made.put s.created new).insert s.created).timers ↔
      u = s.created ∨ u ∈ s.timers := fun u =>
    mem_insert_put out free'
  have unseen : ∀ {u}, u ∈ cancelled ∨ u ∈ s.cbs.map Prod.fst → u ≠ s.created := fun mem =>
    (kept.past _ mem).ne
  refine ⟨(sorted_put kept.sorted out).insertBy, fun u mem => ?_, fun u mem => ?_,
    fun u known => ?_⟩
  · rcases (members u).mp mem with rfl | older
    · exact Nat.lt_succ_self _
    · exact Nat.lt_succ_of_lt (kept.known u older)
  · exact Nat.lt_succ_of_lt (kept.past u mem)
  · rw [members]
    by_cases here : u = s.created
    · subst here
      have clean : s.created ∉ cancelled := fun mem => unseen (.inl mem) rfl
      have unfired : s.created ∉ s.cbs.map Prod.fst := fun mem => unseen (.inr mem) rfl
      simpa [TimerManager.insert, TimerManager.put, made, new, given, clean] using
        Or.inr (by simpa using unfired)
    · have older : u < s.created := by
        have : u < s.created + 1 := known
        omega
      have := kept.retained u older
      simpa [TimerManager.insert, TimerManager.put, made, here] using this

/-- A cancelled timer leaves the set, and takes no other with it. -/
theorem cancel (kept : Kept s cancelled) (known : t < s.created) :
    Kept (s.cancel t).2 (record s (.cancel t) cancelled) := by
  unfold TimerManager.cancel
  cases armed : (s.timer t).cb.isSome
  case false =>
    have empty : (s.timer t).cb.isNone = true := by simpa using armed
    have unlisted : record s (.cancel t) cancelled = cancelled := if_neg (by simp [armed])
    rw [if_pos empty, unlisted]
    exact kept
  case true =>
    have given : ¬ (s.timer t).cb.isNone = true := by simpa [Option.isSome_iff_ne_none] using armed
    have mem : t ∈ s.timers := (kept.mem_iff known).mpr armed
    have listed : record s (.cancel t) cancelled = t :: cancelled := if_pos armed
    rw [if_neg given, listed]
    let blank : Timer Cb := { s.timer t with cb := none }
    have keys : (s.put t blank).key = s.key := by
      funext u
      by_cases here : u = t
      · rw [here, key_put_self]
        rfl
      · exact key_put_of_ne here
    have sorted : SortedBy (s.put t blank).key s.timers := keys ▸ kept.sorted
    have found : (s.put t blank).finds t = true := finds_of_mem mem
    show Kept (if (s.put t blank).finds t then (s.put t blank).erase t else s.put t blank) _
    rw [if_pos found]
    have members : ∀ {u}, u ∈ ((s.put t blank).erase t).timers ↔ u ∈ s.timers ∧ u ≠ t :=
      mem_erase sorted mem
    refine ⟨sorted.eraseBy, fun u present => ?_, fun u mem => ?_, fun u known => ?_⟩
    · exact kept.known u (members.mp present).1
    · rcases mem with listed | fired
      · rcases List.mem_cons.mp listed with rfl | earlier
        · exact known
        · exact kept.past u (.inl earlier)
      · exact kept.past u (.inr fired)
    · rw [members]
      by_cases here : u = t
      · simp [here, TimerManager.erase, TimerManager.put, blank]
      · have := kept.retained u known
        simpa [TimerManager.erase, TimerManager.put, here] using this

/-- What `refresh` and `reset` find out about a timer whose callback is there. -/
theorem finds (kept : Kept s cancelled) (known : t < s.created) (given : ¬ (s.timer t).cb.isNone) :
    t ∈ s.timers ∧ ¬ s.finds t = false := by
  have armed : (s.timer t).cb.isSome = true := by
    simpa [Option.isSome_iff_ne_none] using given
  have mem := (kept.mem_iff known).mpr armed
  exact ⟨mem, by simp [finds_of_mem mem]⟩

theorem refresh (kept : Kept s cancelled) (known : t < s.created)
    (distinct : Distinct s (.refresh t now)) : Kept (s.refresh t now).2 cancelled := by
  unfold TimerManager.refresh
  split
  case isTrue => exact kept
  case isFalse given =>
    obtain ⟨mem, found⟩ := kept.finds known given
    rw [if_neg found]
    exact kept.rearm mem rfl rfl (distinct (by simpa [Option.isSome_iff_ne_none] using given))

theorem reset (kept : Kept s cancelled) (known : t < s.created) {ms : ℕ} {fromNow : Bool}
    (distinct : Distinct s (.reset t ms fromNow now)) :
    Kept (s.reset t ms fromNow now).2 cancelled := by
  unfold TimerManager.reset
  split
  case isTrue => exact kept
  case isFalse changes =>
    split
    case isTrue => exact kept
    case isFalse given =>
      obtain ⟨mem, found⟩ := kept.finds known given
      rw [if_neg found]
      have free := distinct (by simpa [Option.isSome_iff_ne_none] using given) changes
      refine addShared ?_
      cases fromNow <;> exact kept.rearm mem rfl rfl free

/-- The timers that have left the set exist, also after one of the set has fired. -/
theorem past_append (kept : Kept s cancelled) (known : t < s.created) {cb : Option Cb} {u : ℕ}
    (mem : u ∈ cancelled ∨ u ∈ (s.cbs ++ [(t, cb)]).map Prod.fst) : u < s.created := by
  rcases mem with listed | fired
  · exact kept.past u (.inl listed)
  · rcases List.mem_append.mp (List.map_append ▸ fired) with earlier | now
    · exact kept.past u (.inr earlier)
    · exact (List.mem_singleton.mp now) ▸ known

/-- That a recurring timer fires changes nothing about the set. -/
theorem fired (kept : Kept s cancelled) (known : t < s.created)
    (recurs : (s.timer t).recurring = true) {cb : Option Cb} :
    Kept { s with cbs := s.cbs ++ [(t, cb)] } cancelled := by
  refine ⟨kept.sorted, kept.known, fun u => kept.past_append known, fun u exists' => ?_⟩
  by_cases here : u = t
  · have := kept.retained t known
    simpa [here, recurs] using this
  · have := kept.retained u exists'
    simpa [here] using this

/-- A timer that fires is put back if it recurs, and loses its callback otherwise. -/
theorem expireFirst (kept : Kept s cancelled)
    (distinct : ∀ t ∈ s.timers.head?, (s.timer t).recurring = true →
      s.Free t (later now (s.timer t).ms)) : Kept (s.expireFirst now) cancelled := by
  unfold TimerManager.expireFirst
  cases whole : s.timers with
  | nil => exact kept
  | cons t rest =>
    have mem : t ∈ s.timers := whole ▸ List.mem_cons_self
    have known : t < s.created := kept.known t mem
    have erased := erase_head whole
    cases recurs : (s.timer t).recurring
    case true =>
      let again : Timer Cb := { s.timer t with next := later now (s.timer t).ms }
      have free : s.Free t again.next := distinct t (whole ▸ rfl) recurs
      have put : Kept (((s.erase t).put t again).insert t) cancelled := kept.rearm mem rfl rfl free
      rw [erased] at put
      dsimp only
      rw [if_pos recurs]
      refine put.fired known ?_
      simpa [TimerManager.insert, TimerManager.put, again] using recurs
    case false =>
      obtain ⟨sorted, out⟩ := kept.erase mem
      -- A timer that does not recur leaves the set, and is retained as one that has fired.
      have members : ∀ {u}, u ∈ rest ↔ u ∈ s.timers ∧ u ≠ t := by
        intro u
        rw [← mem_erase kept.sorted mem, erased]
      rw [erased] at sorted out
      dsimp only
      rw [if_neg (by simp [recurs])]
      refine ⟨sorted_put sorted out, fun u present => ?_, fun u => kept.past_append known,
        fun u known => ?_⟩
      · exact kept.known u (members.mp present).1
      · show (u ∈ rest ↔ _) ∧ _
        rw [members]
        by_cases here : u = t
        · simp [here, TimerManager.put, recurs]
        · have := kept.retained u known
          simpa [TimerManager.put, here] using this

/-- The loop loses no timer, whatever the number of rounds it takes. -/
theorem expireLoop {rollover : Bool} {s' : TimerManager Cb} {rounds : ℕ} (kept : Kept s cancelled)
    (distinct : DistinctLoop rollover now rounds s)
    (ends : TimerManager.expireLoop rollover now rounds s = some s') : Kept s' cancelled := by
  induction rounds generalizing s with
  | zero =>
    unfold TimerManager.expireLoop at ends
    split at ends
    · cases ends
    · exact Option.some_inj.mp ends ▸ kept
  | succ rounds ih =>
    unfold TimerManager.expireLoop at ends
    split at ends
    case isTrue due =>
      obtain ⟨now, onward⟩ := distinct due
      exact ih (kept.expireFirst now) onward ends
    case isFalse => exact Option.some_inj.mp ends ▸ kept

theorem listExpiredCb {now' : ℤ} {rounds : ℕ} {s' : TimerManager Cb} (kept : Kept s cancelled)
    (distinct : Distinct s (.listExpiredCb now now' rounds))
    (ends : s.listExpiredCb now now' rounds = some s') : Kept s' cancelled := by
  have kept' : Kept (s.detectClockRollover now').2 cancelled :=
    ⟨kept.sorted, kept.known, kept.past, kept.retained⟩
  exact kept'.expireLoop distinct ends

/-- No operation loses a timer unless an insertion meets an equal time. -/
theorem next (kept : Kept s cancelled) (available : timerMachine.enabled s a)
    (distinct : Distinct s a) : Kept (timerMachine.next s a) (record s a cancelled) := by
  cases a with
  | addTimer ms cb recurring now => exact kept.addTimer distinct.1 distinct.2
  | cancel t => exact kept.cancel available
  | refresh t now => exact kept.refresh available distinct
  | reset t ms fromNow now => exact kept.reset available distinct
  | listExpiredCb now now' rounds =>
    obtain ⟨s', ends⟩ := Option.isSome_iff_exists.mp available
    have result : timerMachine.next s (.listExpiredCb now now' rounds) = s' := by
      show (s.listExpiredCb now now' rounds).getD s = s'
      rw [ends, Option.getD_some]
    rw [result]
    exact kept.listExpiredCb distinct ends

end Kept

/-- In a run whose insertions meet no equal time, a timer is in the set exactly until
it is cancelled or, unless it recurs, has fired. -/
theorem noTimerLost_of_reaches {p : TimerManager Cb × List ℕ}
    (reached : (timerMachine.observe [] record).Reaches (fun q a => Distinct q.1 a) p) :
    NoTimerLost p.1 p.2 := by
  have kept : Kept p.1 p.2 := by
    refine reached.invariant (I := fun q => Kept q.1 q.2) ?_ ?_
    · rintro ⟨_, _⟩ ⟨⟨now, rfl⟩, rfl⟩
      exact Kept.initially
    · intro q a kept available distinct
      exact kept.next available distinct
  exact kept.retained

/-- A manager constructed at the time zero, with callbacks that are all alike. -/
def empty : TimerManager Unit := TimerManager.initial 0

/-- A recurring timer fires and is put back, is cancelled, and another is refreshed. -/
theorem noTimerLost_retimed :
    let p := (timerMachine.observe [] record).after (empty, [])
      [.addTimer 10 (some ()) true 0, .addTimer 30 (some ()) false 5,
        .listExpiredCb 10000000 10000000 1, .refresh 1 6, .cancel 0]
    (p.1.cbs = [(0, some ())] ∧ p.1.timers = [1] ∧ p.2 = [0]) ∧ NoTimerLost p.1 p.2 := by
  have starts : (timerMachine.observe [] record).init (empty, []) := ⟨⟨0, rfl⟩, rfl⟩
  have follows : (timerMachine.observe [] record).Follows (fun q a => Distinct q.1 a) (empty, [])
      [.addTimer 10 (some ()) true 0, .addTimer 30 (some ()) false 5,
        .listExpiredCb 10000000 10000000 1, .refresh 1 6, .cancel 0] := by
    decide +kernel
  exact ⟨by decide +kernel, noTimerLost_of_reaches ((Machine.Reaches.start starts).follow follows)⟩

/-- The second of two timers added at one time with one delay is never in the set. -/
theorem timer_lost :
    ¬ ∀ p, (timerMachine.observe [] record).Reachable p →
      NoTimerLost (p.1 : TimerManager Unit) p.2 := by
  intro kept
  have starts : (timerMachine.observe [] record).init (empty, []) := ⟨⟨0, rfl⟩, rfl⟩
  have follows : (timerMachine.observe [] record).Follows (fun _ _ => True) (empty, [])
      [.addTimer 10 (some ()) false 0, .addTimer 10 (some ()) false 0] := by
    decide
  have reached := (Machine.Reaches.start starts).follow follows
  have second := (kept _ reached 1 (by decide)).1.mpr rfl
  have absent : 1 ∉ ((timerMachine.observe [] record).after (empty, [])
      [.addTimer 10 (some ()) false 0, .addTimer 10 (some ()) false 0]).1.timers := by
    decide +kernel
  exact absent second

end CoroutineService.Timers
