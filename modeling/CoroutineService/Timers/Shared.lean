import CoroutineService.Timers.Retention
import Mathlib.Data.Fintype.Basic

/-!
# Timers shared by threads

The operations on timers hold the manager's lock, but `reset` takes it twice: it
erases the timer in one section and puts it back in another, without looking at the
callback again. Every label is one locked section of one thread.

## Main definitions

* `Shared`, `sharedTimers`: the manager and the calls of `reset` under way
* `Placed`: the timers that are being reset are outside the set
* `Settled`: no timer is cancelled between the two sections of a `reset` of it, and each is made
  with a callback
* `StaysOut`: cancelled timers are out of the set, and all timers in it have callbacks

## Main results

* `staysOut_of_reaches`: cancelled timers stay out in settled runs
* `puts_back`: a timer that is put back after it has been cancelled
-/

set_option autoImplicit false

namespace CoroutineService.Timers

open CoroutineService.Containers CoroutineService.Transition

/-- A call of `reset` that has erased its timer and is to put it back. -/
structure Reset where
  timer : ℕ
  ms : ℕ
  fromNow : Bool
  deriving DecidableEq, Repr

/-- The manager, and of each thread the call of `reset` it is in. -/
structure Shared (Tid Cb : Type*) where
  manager : TimerManager Cb
  resetting : Tid → Option Reset

/-- The locked sections. A `reset` that returns before its first section, because nothing
would change, is no step. -/
inductive SharedMove (Tid Cb : Type*)
  | addTimer (ms : ℕ) (cb : Option Cb) (recurring : Bool) (now : ℤ)
  | cancel (t : ℕ)
  | refresh (t : ℕ) (now : ℤ)
  | resetErase (p : Tid) (t ms : ℕ) (fromNow : Bool)
  | resetInsert (p : Tid) (now : ℤ)
  | listExpiredCb (now now' : ℤ) (rounds : ℕ)
  | getNextTimer

namespace TimerManager

variable {Cb : Type*} (s : TimerManager Cb)

/-- The first locked section of `reset`, and whether the timer is to be put back. -/
def resetErase (t : ℕ) : Bool × TimerManager Cb :=
  if (s.timer t).cb.isNone then (false, s)
  else if s.finds t = false then (false, s)
  else (true, s.erase t)

/-- The deadline that `reset` gives a timer. -/
def resetTime (r : Reset) (now : ℤ) : ℤ :=
  later (if r.fromNow then now else earlier (s.timer r.timer).next (s.timer r.timer).ms) r.ms

/-- The rest of `reset`. Nobody reads the fields it writes before the lock is taken:
the timer is out of the set. -/
def resetInsert (r : Reset) (now : ℤ) : Bool × TimerManager Cb :=
  let timer := { s.timer r.timer with ms := r.ms, next := s.resetTime r now }
  (s.put r.timer timer).addShared r.timer

/-- `getNextTimer`, as far as it writes. -/
def getNextTimer : TimerManager Cb := { s with tickled := false }

/-- `reset` is its two sections, one after the other. -/
theorem reset_eq (t ms : ℕ) (fromNow : Bool) (now : ℤ)
    (changes : ¬(ms = (s.timer t).ms ∧ fromNow = false)) :
    s.reset t ms fromNow now =
      if (s.resetErase t).1 then
        (true, ((s.resetErase t).2.resetInsert ⟨t, ms, fromNow⟩ now).2)
      else (false, s) := by
  unfold reset resetErase
  rw [if_neg changes]
  by_cases empty : (s.timer t).cb.isNone = true
  · rw [if_pos empty, if_pos empty, if_neg nofun]
  · rw [if_neg empty, if_neg empty]
    by_cases missing : s.finds t = false
    · rw [if_pos missing, if_pos missing, if_neg nofun]
    · rw [if_neg missing, if_neg missing, if_pos rfl]
      rfl

end TimerManager

variable {Tid Cb : Type*}

section Steps

variable [DecidableEq Tid]

/-- The locked sections of all threads, on timers that exist. -/
def sharedTimers : Machine (Shared Tid Cb) (SharedMove Tid Cb) where
  init s := ∃ now, s = ⟨TimerManager.initial now, fun _ => none⟩
  enabled s
    | .addTimer _ _ _ _ | .getNextTimer => True
    | .cancel t | .refresh t _ => t < s.manager.created
    | .resetErase p t _ _ => t < s.manager.created ∧ s.resetting p = none
    | .resetInsert p _ => (s.resetting p).isSome = true
    | .listExpiredCb now now' rounds => (s.manager.listExpiredCb now now' rounds).isSome = true
  next s
    | .addTimer ms cb recurring now =>
      { s with manager := (s.manager.addTimer ms cb recurring now).2 }
    | .cancel t => { s with manager := (s.manager.cancel t).2 }
    | .refresh t now => { s with manager := (s.manager.refresh t now).2 }
    | .resetErase p t ms fromNow =>
      let erased := s.manager.resetErase t
      let call : Option Reset := if erased.1 then some ⟨t, ms, fromNow⟩ else none
      ⟨erased.2, Function.update s.resetting p call⟩
    | .resetInsert p now =>
      match s.resetting p with
      | none => s
      | some r => ⟨(s.manager.resetInsert r now).2, Function.update s.resetting p none⟩
    | .listExpiredCb now now' rounds =>
      { s with manager := (s.manager.listExpiredCb now now' rounds).getD s.manager }
    | .getNextTimer => { s with manager := s.manager.getNextTimer }

instance (s : Shared Tid Cb) (a : SharedMove Tid Cb) : Decidable (sharedTimers.enabled s a) := by
  cases a <;> (dsimp only [sharedTimers]; infer_instance)

theorem next_resetInsert {s : Shared Tid Cb} {p : Tid} {r : Reset} {now : ℤ}
    (under : s.resetting p = some r) : sharedTimers.next s (.resetInsert p now) =
      ⟨(s.manager.resetInsert r now).2, Function.update s.resetting p none⟩ := by
  dsimp only [sharedTimers]
  rw [under]

theorem next_listExpiredCb {s : Shared Tid Cb} {manager : TimerManager Cb} {now now' : ℤ}
    {rounds : ℕ} (ends : s.manager.listExpiredCb now now' rounds = some manager) :
    sharedTimers.next s (.listExpiredCb now now' rounds) = { s with manager := manager } := by
  show { s with manager := (s.manager.listExpiredCb now now' rounds).getD s.manager } = _
  rw [ends, Option.getD_some]

end Steps

/-- Whether `addTimer` calls `onTimerInsertedAtFront` behind this section. -/
def atFront (s : Shared Tid Cb) : SharedMove Tid Cb → Bool
  | .addTimer ms cb recurring now => (s.manager.addTimer ms cb recurring now).1
  | .resetInsert p now =>
    match s.resetting p with
    | none => false
    | some r => (s.manager.resetInsert r now).1
  | _ => false

/-- A timer of the set, or one with a callback. -/
def TimerManager.Live (s : TimerManager Cb) (t : ℕ) : Prop :=
  t ∈ s.timers ∨ (s.timer t).cb.isSome = true

instance (s : TimerManager Cb) (t : ℕ) : Decidable (s.Live t) :=
  inferInstanceAs (Decidable (_ ∨ _))

/-- Two of these timers have one deadline. -/
def TimerManager.Clash (s : TimerManager Cb) (t u : ℕ) : Prop :=
  s.Live t ∧ s.Live u ∧ t ≠ u ∧ s.key t = s.key u

instance (s : TimerManager Cb) (t u : ℕ) : Decidable (s.Clash t u) :=
  inferInstanceAs (Decidable (_ ∧ _ ∧ _ ∧ _))

/-- The deadlines of these timers are pairwise distinct. -/
def TimerManager.DistinctTimes (s : TimerManager Cb) : Prop :=
  ∀ t < s.created, ∀ u < s.created, ¬ s.Clash t u

instance (s : TimerManager Cb) : Decidable s.DistinctTimes := by
  dsimp only [TimerManager.DistinctTimes]
  infer_instance

/-- No timer is cancelled between the two sections of a `reset` of it, and none is made without a
callback. -/
def Settled (s : Shared Tid Cb) : SharedMove Tid Cb → Prop
  | .addTimer _ cb _ _ => cb.isSome = true
  | .cancel t => ∀ p, ∀ r ∈ s.resetting p, r.timer ≠ t
  | _ => True

instance [Fintype Tid] (s : Shared Tid Cb) (a : SharedMove Tid Cb) : Decidable (Settled s a) := by
  cases a <;> (dsimp only [Settled]; infer_instance)

/-- The timers for which `cancel` has returned `true`. -/
def sharedRecord (s : Shared Tid Cb) (a : SharedMove Tid Cb) (cancelled : List ℕ) : List ℕ :=
  match a with
  | .cancel t => if (s.manager.cancel t).1 then t :: cancelled else cancelled
  | _ => cancelled

/-- Cancelled timers are not in the set, and the timers in the set have callbacks. -/
def StaysOut (s : TimerManager Cb) (cancelled : List ℕ) : Prop :=
  (∀ t ∈ cancelled, t ∉ s.timers) ∧ ∀ t ∈ s.timers, (s.timer t).cb.isSome = true

/-- An ordered set of timers that exist. -/
structure TimerManager.Ordered (s : TimerManager Cb) : Prop where
  sorted : SortedBy s.key s.timers
  known : ∀ t ∈ s.timers, t < s.created

/-- An ordered set of timers that exist and have callbacks. -/
structure TimerManager.Clean (s : TimerManager Cb) : Prop where
  sorted : SortedBy s.key s.timers
  known : ∀ t ∈ s.timers, t < s.created
  armed : ∀ t ∈ s.timers, (s.timer t).cb.isSome = true

/-- The set is ordered, and a timer that is being reset is outside of it and is being reset by
one thread. -/
structure Placed (s : Shared Tid Cb) : Prop where
  ordered : s.manager.Ordered
  taken : ∀ p, ∀ r ∈ s.resetting p, r.timer < s.manager.created ∧ r.timer ∉ s.manager.timers
  single : ∀ p q, ∀ r ∈ s.resetting p, ∀ r' ∈ s.resetting q, r.timer = r'.timer → p = q

/-- What keeps cancelled timers out: a timer that is being reset is outside the set, has
a callback, and is being reset by one thread. -/
structure KeptOut (s : Shared Tid Cb) (cancelled : List ℕ) : Prop where
  clean : s.manager.Clean
  past : ∀ t ∈ cancelled, t < s.manager.created ∧ (s.manager.timer t).cb = none
  taken : ∀ p, ∀ r ∈ s.resetting p, r.timer < s.manager.created ∧
    r.timer ∉ s.manager.timers ∧ (s.manager.timer r.timer).cb.isSome = true
  single : ∀ p q, ∀ r ∈ s.resetting p, ∀ r' ∈ s.resetting q, r.timer = r'.timer → p = q

/-- If a timer with a callback is found in the set, it is there itself. -/
def TimerManager.FoundIn (s : TimerManager Cb) (t : ℕ) : Prop :=
  (s.timer t).cb.isSome = true → s.finds t = true → t ∈ s.timers

/-- Under distinct deadlines nothing else is found. -/
theorem TimerManager.DistinctTimes.foundIn {s : TimerManager Cb} {t : ℕ}
    (distinct : s.DistinctTimes) (ordered : s.Ordered) (known : t < s.created) : s.FoundIn t := by
  intro given found
  obtain ⟨u, mem, same⟩ := findBy_isSome.mp found
  by_contra out
  have other : t ≠ u := fun here => out (here ▸ mem)
  exact distinct t known u (ordered.known u mem) ⟨.inr given, .inl mem, other, same.symm⟩

/-! ### Timers an operation does not touch -/

namespace TimerManager

variable {s s' s'' : TimerManager Cb} {t u : ℕ} {now : ℤ} {timer : Timer Cb}

/-- A timer outside the set stays outside and keeps its callback. -/
def Untouched (s s' : TimerManager Cb) (u : ℕ) : Prop :=
  u ∉ s.timers → u ∉ s'.timers ∧ (s'.timer u).cb = (s.timer u).cb

theorem Untouched.trans (first : Untouched s s' u) (second : Untouched s' s'' u) :
    Untouched s s'' u := by
  intro out
  obtain ⟨out', same⟩ := first out
  obtain ⟨out'', same'⟩ := second out'
  exact ⟨out'', same'.trans same⟩

theorem untouched_put (other : u ≠ t) : Untouched s (s.put t timer) u := by
  intro out
  refine ⟨out, ?_⟩
  show (Function.update s.timer t timer u).cb = _
  rw [Function.update_of_ne other]

theorem untouched_insert (other : u ≠ t) : Untouched s (s.insert t) u := by
  intro out
  exact ⟨fun mem => (mem_of_mem_insertBy mem).elim other out, rfl⟩

theorem untouched_erase : Untouched s (s.erase t) u := by
  intro out
  exact ⟨fun mem => out (List.mem_of_mem_eraseP mem), rfl⟩

theorem untouched_addShared (other : u ≠ t) : Untouched s (s.addShared t).2 u := by
  unfold addShared
  dsimp only
  split
  · exact untouched_insert other
  · exact untouched_insert other

theorem untouched_addTimer {ms : ℕ} {cb : Option Cb} {recurring : Bool} (older : u < s.created) :
    Untouched s (s.addTimer ms cb recurring now).2 u := by
  have made : Untouched s { s with created := s.created + 1 } u := fun out => ⟨out, rfl⟩
  exact (made.trans (untouched_put older.ne)).trans (untouched_addShared older.ne)

/-- `cancel` is refused, or blanks the callback and takes the timer out. -/
theorem cancel_cases (s : TimerManager Cb) (t : ℕ) :
    (s.timer t).cb = none ∧ s.cancel t = (false, s) ∨
      (s.cancel t).1 = true ∧ ∃ blank : Timer Cb, blank.next = (s.timer t).next ∧ blank.cb = none ∧
        ((s.cancel t).2 = (s.put t blank).erase t ∨
          (s.cancel t).2 = s.put t blank ∧ (s.put t blank).finds t = false) := by
  unfold cancel
  split
  case isTrue empty => exact .inl ⟨Option.isNone_iff_eq_none.mp empty, rfl⟩
  case isFalse =>
    refine .inr ⟨rfl, { s.timer t with cb := none }, rfl, rfl, ?_⟩
    dsimp only
    split
    case isTrue => exact .inl rfl
    case isFalse missing => exact .inr ⟨rfl, by simpa using missing⟩

/-- `refresh` is refused, or takes the timer out and puts it back. -/
theorem refresh_cases (s : TimerManager Cb) (t : ℕ) (now : ℤ) :
    (s.refresh t now).2 = s ∨ (s.timer t).cb.isSome = true ∧ s.finds t = true ∧
      (s.refresh t now).2 =
        ((s.erase t).put t { s.timer t with next := later now (s.timer t).ms }).insert t := by
  unfold refresh
  split
  case isTrue => exact .inl rfl
  case isFalse given =>
    split
    case isTrue => exact .inl rfl
    case isFalse found =>
      exact .inr ⟨by simpa [Option.isSome_iff_ne_none] using given, by simpa using found, rfl⟩

/-- `cancel` puts no timer in. -/
theorem mem_of_mem_cancel (mem : u ∈ (s.cancel t).2.timers) : u ∈ s.timers := by
  rcases cancel_cases s t with ⟨-, same⟩ | ⟨-, blank, -, -, result | ⟨result, -⟩⟩
  · rwa [same] at mem
  · rw [result] at mem
    exact List.mem_of_mem_eraseP mem
  · rwa [result] at mem

theorem untouched_cancel (other : u ≠ t) : Untouched s (s.cancel t).2 u := by
  unfold cancel
  split
  · exact fun out => ⟨out, rfl⟩
  · dsimp only
    split
    · exact (untouched_put other).trans untouched_erase
    · exact untouched_put other

theorem untouched_refresh (foundIn : s.FoundIn t) : Untouched s (s.refresh t now).2 u := by
  intro out
  rcases refresh_cases s t now with same | ⟨given, found, result⟩
  · rw [same]
    exact ⟨out, rfl⟩
  · have other : u ≠ t := fun here => out (here ▸ foundIn given found)
    rw [result]
    exact ((untouched_erase.trans (untouched_put other)).trans (untouched_insert other)) out

theorem untouched_expireFirst : Untouched s (s.expireFirst now) u := by
  intro out
  revert out
  unfold expireFirst
  split
  case h_1 => exact fun out => ⟨out, rfl⟩
  case h_2 t rest whole =>
    intro out
    have other : u ≠ t := fun here => out (whole ▸ here ▸ List.mem_cons_self)
    have fired : Untouched s { s with timers := rest, cbs := s.cbs ++ [(t, (s.timer t).cb)] } u :=
      fun out => ⟨fun mem => out (whole ▸ List.mem_cons_of_mem t mem), rfl⟩
    dsimp only
    split
    · exact ((fired.trans (untouched_put other)).trans (untouched_insert other)) out
    · exact (fired.trans (untouched_put other)) out

theorem untouched_expireLoop {rollover : Bool} {rounds : ℕ}
    (ends : expireLoop rollover now rounds s = some s') : Untouched s s' u := by
  refine expireLoop_rule (fun _ out => ⟨out, rfl⟩) (fun s _ _ _ onward => ?_) ends
  exact untouched_expireFirst.trans onward

theorem untouched_listExpiredCb {now' : ℤ} {rounds : ℕ}
    (ends : s.listExpiredCb now now' rounds = some s') : Untouched s s' u := by
  have noted : Untouched s (s.detectClockRollover now').2 u := fun out => ⟨out, rfl⟩
  exact noted.trans (untouched_expireLoop ends)

theorem created_expireFirst : (s.expireFirst now).created = s.created := by
  unfold expireFirst
  split
  · rfl
  · dsimp only
    split
    · rfl
    · rfl

theorem created_expireLoop {rollover : Bool} {rounds : ℕ}
    (ends : expireLoop rollover now rounds s = some s') : s'.created = s.created := by
  refine expireLoop_rule (fun _ => rfl) (fun s _ _ _ onward => ?_) ends
  exact onward.trans created_expireFirst

theorem created_listExpiredCb {now' : ℤ} {rounds : ℕ}
    (ends : s.listExpiredCb now now' rounds = some s') : s'.created = s.created :=
  created_expireLoop (s := (s.detectClockRollover now').2) ends

theorem created_cancel : (s.cancel t).2.created = s.created := by
  rcases cancel_cases s t with ⟨-, same⟩ | ⟨-, blank, -, -, result | ⟨result, -⟩⟩
  · rw [same]
  · rw [result]
    rfl
  · rw [result]
    rfl

theorem created_refresh : (s.refresh t now).2.created = s.created := by
  rcases refresh_cases s t now with same | ⟨-, -, result⟩
  · rw [same]
  · rw [result]
    rfl

theorem created_addShared : (s.addShared t).2.created = s.created := by
  unfold addShared
  dsimp only
  split
  · rfl
  · rfl

theorem created_addTimer {ms : ℕ} {cb : Option Cb} {recurring : Bool} :
    (s.addTimer ms cb recurring now).2.created = s.created + 1 := by
  unfold addTimer
  rw [created_addShared]
  rfl

end TimerManager

/-! ### An ordered set stays ordered -/

namespace TimerManager.Ordered

variable {s s' : TimerManager Cb} {t u : ℕ} {now : ℤ} {timer : Timer Cb}

theorem erase (ordered : s.Ordered) : (s.erase t).Ordered where
  sorted := ordered.sorted.eraseBy
  known _ mem := ordered.known _ (List.mem_of_mem_eraseP mem)

/-- Erasing a timer that is in the set, or cannot be found, leaves it outside. -/
theorem notMem_erase (ordered : s.Ordered) : t ∉ (s.erase t).timers := fun mem =>
  (ordered.sorted.mem_eraseBy.mp mem).2 rfl

/-- A timer outside the set is put in. -/
theorem put_insert (ordered : s.Ordered) (out : t ∉ s.timers) (known : t < s.created) :
    ((s.put t timer).insert t).Ordered where
  sorted := (sorted_put ordered.sorted out).insertBy
  known u mem := by
    rcases mem_of_mem_insertBy mem with rfl | older
    · exact known
    · exact ordered.known u older

theorem addShared (ordered : (s.insert t).Ordered) : (s.addShared t).2.Ordered := by
  unfold TimerManager.addShared
  dsimp only
  split
  · exact ⟨ordered.sorted, ordered.known⟩
  · exact ordered

theorem addTimer (ordered : s.Ordered) {ms : ℕ} {cb : Option Cb} {recurring : Bool} :
    (s.addTimer ms cb recurring now).2.Ordered := by
  let made : TimerManager Cb := { s with created := s.created + 1 }
  have ordered' : made.Ordered :=
    ⟨ordered.sorted, fun u mem => Nat.lt_succ_of_lt (ordered.known u mem)⟩
  have out : s.created ∉ made.timers := fun mem => lt_irrefl _ (ordered.known _ mem)
  exact (ordered'.put_insert out (Nat.lt_succ_self _)).addShared

/-- A write that leaves the deadline of the timer alone. -/
theorem put (ordered : s.Ordered) (keeps : timer.next = (s.timer t).next) :
    (s.put t timer).Ordered where
  sorted := by
    refine ordered.sorted.congr fun u _ => ?_
    by_cases here : u = t
    · rw [here, key_put_self]
      exact keeps
    · exact key_put_of_ne here
  known := ordered.known

theorem cancel (ordered : s.Ordered) : (s.cancel t).2.Ordered := by
  rcases cancel_cases s t with ⟨-, same⟩ | ⟨-, blank, keeps, -, result | ⟨result, -⟩⟩
  · rw [same]
    exact ordered
  · rw [result]
    exact (ordered.put keeps).erase
  · rw [result]
    exact ordered.put keeps

theorem refresh (ordered : s.Ordered) (known : t < s.created) : (s.refresh t now).2.Ordered := by
  rcases refresh_cases s t now with same | ⟨-, -, result⟩
  · rw [same]
    exact ordered
  · rw [result]
    exact ordered.erase.put_insert ordered.notMem_erase known

theorem resetErase (ordered : s.Ordered) : (s.resetErase t).2.Ordered := by
  unfold TimerManager.resetErase
  split
  · exact ordered
  · split
    · exact ordered
    · exact ordered.erase

/-- The first timer is taken out of the set. -/
theorem pop {rest : List ℕ} (ordered : s.Ordered) (whole : s.timers = t :: rest)
    (cbs : List (ℕ × Option Cb)) :
    t ∉ rest ∧ t < s.created ∧
      ({ s with timers := rest, cbs := cbs } : TimerManager Cb).Ordered := by
  have erased : ({ s with timers := rest } : TimerManager Cb).Ordered :=
    erase_head whole ▸ ordered.erase
  have gone := ordered.notMem_erase (t := t)
  rw [erase_head whole] at gone
  exact ⟨gone, ordered.known t (whole ▸ List.mem_cons_self), erased.sorted, erased.known⟩

theorem expireFirst (ordered : s.Ordered) : (s.expireFirst now).Ordered := by
  unfold TimerManager.expireFirst
  split
  case h_1 => exact ordered
  case h_2 t rest whole =>
    obtain ⟨out, known, fired⟩ := ordered.pop whole (s.cbs ++ [(t, (s.timer t).cb)])
    dsimp only
    split
    · exact fired.put_insert out known
    · exact ⟨sorted_put fired.sorted out, fired.known⟩

theorem expireLoop {rollover : Bool} {rounds : ℕ} (ordered : s.Ordered)
    (ends : TimerManager.expireLoop rollover now rounds s = some s') : s'.Ordered := by
  revert ordered
  refine expireLoop_rule (fun _ ordered => ordered) (fun s _ _ _ onward ordered => ?_) ends
  exact onward ordered.expireFirst

theorem listExpiredCb {now' : ℤ} {rounds : ℕ} (ordered : s.Ordered)
    (ends : s.listExpiredCb now now' rounds = some s') : s'.Ordered := by
  have noted : (s.detectClockRollover now').2.Ordered := ⟨ordered.sorted, ordered.known⟩
  exact noted.expireLoop ends

end TimerManager.Ordered

/-! ### A clean set stays clean -/

namespace TimerManager.Clean

variable {s s' : TimerManager Cb} {t u : ℕ} {now : ℤ} {timer : Timer Cb}

theorem ordered (clean : s.Clean) : s.Ordered := ⟨clean.sorted, clean.known⟩

/-- An ordered set of timers with callbacks is clean. -/
theorem of_ordered (ordered : s.Ordered) (armed : ∀ t ∈ s.timers, (s.timer t).cb.isSome = true) :
    s.Clean := ⟨ordered.sorted, ordered.known, armed⟩

theorem erase (clean : s.Clean) : (s.erase t).Clean :=
  of_ordered clean.ordered.erase fun _ mem => clean.armed _ (List.mem_of_mem_eraseP mem)

/-- A timer outside the set that has a callback is put in. -/
theorem put_insert (clean : s.Clean) (out : t ∉ s.timers) (known : t < s.created)
    (given : timer.cb.isSome = true) : ((s.put t timer).insert t).Clean := by
  refine of_ordered (clean.ordered.put_insert out known) fun u mem => ?_
  show (Function.update s.timer t timer u).cb.isSome = true
  by_cases here : u = t
  · rw [here, Function.update_self]
    exact given
  · rw [Function.update_of_ne here]
    exact clean.armed u ((mem_of_mem_insertBy mem).resolve_left here)

theorem addShared (clean : (s.insert t).Clean) : (s.addShared t).2.Clean := by
  refine of_ordered clean.ordered.addShared ?_
  unfold TimerManager.addShared
  dsimp only
  split
  · exact clean.armed
  · exact clean.armed

theorem addTimer (clean : s.Clean) {ms : ℕ} {cb : Option Cb} {recurring : Bool}
    (given : cb.isSome = true) : (s.addTimer ms cb recurring now).2.Clean := by
  let made : TimerManager Cb := { s with created := s.created + 1 }
  have clean' : made.Clean :=
    ⟨clean.sorted, fun u mem => Nat.lt_succ_of_lt (clean.known u mem), clean.armed⟩
  have out : s.created ∉ made.timers := fun mem => lt_irrefl _ (clean.known _ mem)
  exact (clean'.put_insert out (Nat.lt_succ_self _) given).addShared

theorem cancel (clean : s.Clean) : (s.cancel t).2.Clean := by
  refine of_ordered clean.ordered.cancel ?_
  rcases cancel_cases s t with ⟨-, same⟩ | ⟨-, blank, keeps, -, result | ⟨result, missing⟩⟩
  · rw [same]
    exact clean.armed
  · intro u mem
    rw [result] at mem
    obtain ⟨older, differs⟩ := (clean.ordered.put keeps).sorted.mem_eraseBy.mp mem
    have other : u ≠ t := fun here => differs (here ▸ rfl)
    rw [result]
    show (Function.update s.timer t blank u).cb.isSome = true
    rw [Function.update_of_ne other]
    exact clean.armed u older
  · have out : t ∉ s.timers := fun mem => by
      have found : (s.put t blank).finds t = true := finds_of_mem mem
      exact absurd found (by simp [missing])
    intro u mem
    rw [result] at mem ⊢
    have other : u ≠ t := fun here => out (here ▸ mem)
    show (Function.update s.timer t blank u).cb.isSome = true
    rw [Function.update_of_ne other]
    exact clean.armed u mem

theorem refresh (clean : s.Clean) (known : t < s.created) : (s.refresh t now).2.Clean := by
  rcases refresh_cases s t now with same | ⟨given, -, result⟩
  · rw [same]
    exact clean
  · rw [result]
    exact clean.erase.put_insert clean.ordered.notMem_erase known given

theorem expireFirst (clean : s.Clean) : (s.expireFirst now).Clean := by
  refine of_ordered clean.ordered.expireFirst ?_
  unfold TimerManager.expireFirst
  split
  case h_1 => exact clean.armed
  case h_2 t rest whole =>
    obtain ⟨out, known, fired⟩ := clean.ordered.pop whole (s.cbs ++ [(t, (s.timer t).cb)])
    have armed : ∀ u ∈ rest, (s.timer u).cb.isSome = true := fun u mem =>
      clean.armed u (whole ▸ List.mem_cons_of_mem t mem)
    dsimp only
    split
    · refine TimerManager.Clean.armed (put_insert (of_ordered fired armed) out known ?_)
      exact clean.armed t (whole ▸ List.mem_cons_self)
    · intro u present
      have other : u ≠ t := ne_of_mem_of_not_mem present out
      show (Function.update s.timer t _ u).cb.isSome = true
      rw [Function.update_of_ne other]
      exact armed u present

theorem expireLoop {rollover : Bool} {rounds : ℕ} (clean : s.Clean)
    (ends : TimerManager.expireLoop rollover now rounds s = some s') : s'.Clean := by
  revert clean
  refine expireLoop_rule (fun _ clean => clean) (fun s _ _ _ onward clean => ?_) ends
  exact onward clean.expireFirst

theorem listExpiredCb {now' : ℤ} {rounds : ℕ} (clean : s.Clean)
    (ends : s.listExpiredCb now now' rounds = some s') : s'.Clean := by
  have noted : (s.detectClockRollover now').2.Clean := ⟨clean.sorted, clean.known, clean.armed⟩
  exact noted.expireLoop ends

end TimerManager.Clean

/-! ### Calls of `reset` -/

section Calls

variable [DecidableEq Tid] {s : Shared Tid Cb} {p q : Tid} {r r' : Reset}

/-- What is under way when a call is over. -/
theorem mem_finished (under : r ∈ Function.update s.resetting p none q) :
    q ≠ p ∧ r ∈ s.resetting q := by
  by_cases here : q = p
  · rw [here, Function.update_self] at under
    cases under
  · rw [Function.update_of_ne here] at under
    exact ⟨here, under⟩

/-- What is under way when a call begins. -/
theorem mem_begun (under : r' ∈ Function.update s.resetting p (some r) q) :
    q = p ∧ r' = r ∨ q ≠ p ∧ r' ∈ s.resetting q := by
  by_cases here : q = p
  · rw [here, Function.update_self] at under
    exact .inl ⟨here, (Option.some_inj.mp under).symm⟩
  · rw [Function.update_of_ne here] at under
    exact .inr ⟨here, under⟩

end Calls

namespace Placed

variable {s : Shared Tid Cb} {t : ℕ}

/-- An operation that puts no timer in but new ones. -/
theorem frame (placed : Placed s) {manager : TimerManager Cb} (ordered : manager.Ordered)
    (grown : s.manager.created ≤ manager.created)
    (outside : ∀ u < s.manager.created, u ∉ s.manager.timers → u ∉ manager.timers) :
    Placed { s with manager := manager } where
  ordered := ordered
  taken p r under := by
    obtain ⟨known, out⟩ := placed.taken p r under
    exact ⟨known.trans_le grown, outside r.timer known out⟩
  single := placed.single

theorem initially {now : ℤ} :
    Placed (⟨TimerManager.initial now, fun _ => none⟩ : Shared Tid Cb) where
  ordered := ⟨List.Pairwise.nil, fun _ mem => absurd mem List.not_mem_nil⟩
  taken _ _ under := nomatch under
  single _ _ _ under := nomatch under

variable [DecidableEq Tid]

/-- A thread whose call of `reset` is over. -/
theorem finish (placed : Placed s) (p : Tid) :
    Placed { s with resetting := Function.update s.resetting p none } where
  ordered := placed.ordered
  taken q r under := placed.taken q r (mem_finished under).2
  single q q' r under r' under' :=
    placed.single q q' r (mem_finished under).2 r' (mem_finished under').2

/-- A thread takes a timer of the set out, to put it back later. -/
theorem takeOut (placed : Placed s) {p : Tid} {r : Reset} (mem : r.timer ∈ s.manager.timers) :
    Placed ⟨s.manager.erase r.timer, Function.update s.resetting p (some r)⟩ := by
  have others : ∀ q, ∀ r' ∈ s.resetting q, r'.timer ≠ r.timer := fun q r' under here =>
    (placed.taken q r' under).2 (here ▸ mem)
  refine ⟨placed.ordered.erase, fun q r' under => ?_, fun q q' r₁ under r₂ under' same => ?_⟩
  · rcases mem_begun under with ⟨-, rfl⟩ | ⟨-, older⟩
    · exact ⟨placed.ordered.known _ mem, placed.ordered.notMem_erase⟩
    · obtain ⟨known, out⟩ := placed.taken q r' older
      exact ⟨known, (TimerManager.untouched_erase out).1⟩
  · rcases mem_begun under with ⟨here, rfl⟩ | ⟨-, older⟩ <;>
      rcases mem_begun under' with ⟨here', rfl⟩ | ⟨-, older'⟩
    · exact here.trans here'.symm
    · exact absurd same.symm (others q' r₂ older')
    · exact absurd same (others q r₁ older)
    · exact placed.single q q' r₁ older r₂ older' same

/-- The first section of `reset`. -/
theorem resetErase (placed : Placed s) {p : Tid} {ms : ℕ} {fromNow : Bool}
    (foundIn : s.manager.FoundIn t) :
    Placed (sharedTimers.next s (.resetErase p t ms fromNow)) := by
  show Placed ⟨(s.manager.resetErase t).2, Function.update s.resetting p
    (if (s.manager.resetErase t).1 then some ⟨t, ms, fromNow⟩ else none)⟩
  unfold TimerManager.resetErase
  split
  case isTrue => exact placed.finish p
  case isFalse given =>
    split
    case isTrue => exact placed.finish p
    case isFalse found =>
      have armed : (s.manager.timer t).cb.isSome = true := by
        simpa [Option.isSome_iff_ne_none] using given
      exact placed.takeOut (r := ⟨t, ms, fromNow⟩) (foundIn armed (by simpa using found))

/-- The rest of `reset`. -/
theorem resetInsert (placed : Placed s) {p : Tid} {now : ℤ} :
    Placed (sharedTimers.next s (.resetInsert p now)) := by
  show Placed (match s.resetting p with
    | none => s
    | some r => ⟨(s.manager.resetInsert r now).2, Function.update s.resetting p none⟩)
  split
  case h_1 => exact placed
  case h_2 r under =>
    obtain ⟨known, out⟩ := placed.taken p r under
    have created : (s.manager.resetInsert r now).2.created = s.manager.created :=
      TimerManager.created_addShared
    refine ⟨(placed.ordered.put_insert out known).addShared, fun q r' under' => ?_,
      (placed.finish p).single⟩
    obtain ⟨elsewhere, older⟩ := mem_finished under'
    obtain ⟨known', out'⟩ := placed.taken q r' older
    have other : r'.timer ≠ r.timer := fun same =>
      elsewhere (placed.single q p r' older r under same)
    have untouched : s.manager.Untouched (s.manager.resetInsert r now).2 r'.timer :=
      (TimerManager.untouched_put other).trans (TimerManager.untouched_addShared other)
    exact ⟨created ▸ known', (untouched out').1⟩

/-- Under distinct deadlines every section keeps the timers that are being reset outside. -/
theorem next (placed : Placed s) {a : SharedMove Tid Cb} (available : sharedTimers.enabled s a)
    (distinct : s.manager.DistinctTimes) : Placed (sharedTimers.next s a) := by
  have foundIn : ∀ t < s.manager.created, s.manager.FoundIn t := fun t =>
    distinct.foundIn placed.ordered
  cases a with
  | addTimer ms cb recurring now =>
    refine placed.frame placed.ordered.addTimer ?_ fun u older out =>
      (TimerManager.untouched_addTimer older out).1
    exact TimerManager.created_addTimer ▸ Nat.le_succ _
  | cancel t =>
    exact placed.frame placed.ordered.cancel TimerManager.created_cancel.ge fun u _ out mem =>
      out (TimerManager.mem_of_mem_cancel mem)
  | refresh t now =>
    exact placed.frame (placed.ordered.refresh available) TimerManager.created_refresh.ge
      fun u _ out => (TimerManager.untouched_refresh (foundIn t available) out).1
  | resetErase p t ms fromNow => exact placed.resetErase (foundIn t available.1)
  | resetInsert p now => exact placed.resetInsert
  | listExpiredCb now now' rounds =>
    obtain ⟨manager, ends⟩ := Option.isSome_iff_exists.mp available
    rw [next_listExpiredCb ends]
    exact placed.frame (placed.ordered.listExpiredCb ends)
      (TimerManager.created_listExpiredCb ends).ge fun u _ out =>
        (TimerManager.untouched_listExpiredCb ends out).1
  | getNextTimer =>
    exact placed.frame ⟨placed.ordered.sorted, placed.ordered.known⟩ le_rfl fun u _ out => out

end Placed

/-! ### Runs -/

namespace KeptOut

variable {s : Shared Tid Cb} {cancelled : List ℕ} {t : ℕ}

theorem placed (kept : KeptOut s cancelled) : Placed s where
  ordered := kept.clean.ordered
  taken p r under :=
    have ⟨known, out, _⟩ := kept.taken p r under
    ⟨known, out⟩
  single := kept.single

/-- An operation that leaves the timers outside the set alone keeps them there. -/
theorem frame (kept : KeptOut s cancelled) {manager : TimerManager Cb} (clean : manager.Clean)
    (grown : s.manager.created ≤ manager.created)
    (untouched : ∀ u < s.manager.created, s.manager.Untouched manager u) :
    KeptOut { s with manager := manager } cancelled where
  clean := clean
  past u mem := by
    obtain ⟨known, blank⟩ := kept.past u mem
    have out : u ∉ s.manager.timers := fun present => by
      simpa [blank] using kept.clean.armed u present
    exact ⟨known.trans_le grown, (untouched u known out).2.trans blank⟩
  taken p r under := by
    obtain ⟨known, out, given⟩ := kept.taken p r under
    obtain ⟨out', same⟩ := untouched r.timer known out
    exact ⟨known.trans_le grown, out', same ▸ given⟩
  single := kept.single

/-- No timer that has been taken out by `reset` is cancelled in a settled run. -/
theorem cancel (kept : KeptOut s cancelled) (known : t < s.manager.created)
    (settled : Settled s (.cancel t : SharedMove Tid Cb)) :
    KeptOut { s with manager := (s.manager.cancel t).2 }
      (if (s.manager.cancel t).1 then t :: cancelled else cancelled) := by
  rcases TimerManager.cancel_cases s.manager t with ⟨-, same⟩ | ⟨accepted, blank, -, empty, result⟩
  · rw [same]
    exact kept
  · rw [if_pos accepted]
    have created : (s.manager.cancel t).2.created = s.manager.created :=
      TimerManager.created_cancel
    have blanked : ((s.manager.cancel t).2.timer t).cb = none := by
      have written : (s.manager.cancel t).2.timer t = blank := by
        rcases result with result | ⟨result, -⟩ <;> rw [result] <;>
          exact Function.update_self t blank s.manager.timer
      rw [written, empty]
    refine ⟨kept.clean.cancel, fun u mem => ?_, fun p r under => ?_, kept.single⟩
    · by_cases here : u = t
      · subst here
        exact ⟨created ▸ known, blanked⟩
      · have older := (List.mem_cons.mp mem).resolve_left here
        obtain ⟨exists', gone⟩ := kept.past u older
        have out : u ∉ s.manager.timers := fun present => by
          simpa [gone] using kept.clean.armed u present
        exact ⟨created ▸ exists', (TimerManager.untouched_cancel here out).2.trans gone⟩
    · obtain ⟨exists', out, given⟩ := kept.taken p r under
      obtain ⟨out', same⟩ := TimerManager.untouched_cancel (settled p r under) out
      exact ⟨created ▸ exists', out', same ▸ given⟩

variable [DecidableEq Tid]

/-- A thread whose call of `reset` is over. -/
theorem finish (kept : KeptOut s cancelled) (p : Tid) :
    KeptOut { s with resetting := Function.update s.resetting p none } cancelled where
  clean := kept.clean
  past := kept.past
  taken q r under := kept.taken q r (mem_finished under).2
  single := (kept.placed.finish p).single

/-- A thread takes a timer of the set out, to put it back later. -/
theorem takeOut (kept : KeptOut s cancelled) {p : Tid} {r : Reset}
    (mem : r.timer ∈ s.manager.timers) :
    KeptOut ⟨s.manager.erase r.timer, Function.update s.resetting p (some r)⟩ cancelled := by
  have erased : KeptOut { s with manager := s.manager.erase r.timer } cancelled :=
    kept.frame kept.clean.erase le_rfl fun u _ => TimerManager.untouched_erase
  refine ⟨erased.clean, erased.past, fun q r' under => ?_, (kept.placed.takeOut mem).single⟩
  rcases mem_begun under with ⟨-, rfl⟩ | ⟨-, older⟩
  · exact ⟨kept.clean.known _ mem, kept.clean.ordered.notMem_erase, kept.clean.armed _ mem⟩
  · exact erased.taken q r' older

/-- The first section of `reset`. -/
theorem resetErase (kept : KeptOut s cancelled) {p : Tid} {ms : ℕ} {fromNow : Bool}
    (foundIn : s.manager.FoundIn t) :
    KeptOut (sharedTimers.next s (.resetErase p t ms fromNow)) cancelled := by
  show KeptOut ⟨(s.manager.resetErase t).2, Function.update s.resetting p
    (if (s.manager.resetErase t).1 then some ⟨t, ms, fromNow⟩ else none)⟩ cancelled
  unfold TimerManager.resetErase
  split
  case isTrue => exact kept.finish p
  case isFalse given =>
    split
    case isTrue => exact kept.finish p
    case isFalse found =>
      have armed : (s.manager.timer t).cb.isSome = true := by
        simpa [Option.isSome_iff_ne_none] using given
      exact kept.takeOut (r := ⟨t, ms, fromNow⟩) (foundIn armed (by simpa using found))

/-- The rest of `reset` puts in a timer with a callback. -/
theorem resetInsert (kept : KeptOut s cancelled) {p : Tid} {now : ℤ} :
    KeptOut (sharedTimers.next s (.resetInsert p now)) cancelled := by
  show KeptOut (match s.resetting p with
    | none => s
    | some r => ⟨(s.manager.resetInsert r now).2, Function.update s.resetting p none⟩) cancelled
  split
  case h_1 => exact kept
  case h_2 r under =>
    obtain ⟨known, out, given⟩ := kept.taken p r under
    let timer : Timer Cb :=
      { s.manager.timer r.timer with ms := r.ms, next := s.manager.resetTime r now }
    have given' : timer.cb.isSome = true := given
    have clean : (s.manager.resetInsert r now).2.Clean :=
      (kept.clean.put_insert out known given').addShared
    have created : (s.manager.resetInsert r now).2.created = s.manager.created :=
      TimerManager.created_addShared
    have untouched : ∀ u ≠ r.timer, s.manager.Untouched (s.manager.resetInsert r now).2 u :=
      fun u other =>
        (TimerManager.untouched_put other).trans (TimerManager.untouched_addShared other)
    refine ⟨clean, fun u mem => ?_, fun q r' under' => ?_, (kept.finish p).single⟩
    · obtain ⟨exists', blank⟩ := kept.past u mem
      have other : u ≠ r.timer := fun here => by simp [← here, blank] at given
      have out' : u ∉ s.manager.timers := fun present => by
        simpa [blank] using kept.clean.armed u present
      exact ⟨created ▸ exists', (untouched u other out').2.trans blank⟩
    · obtain ⟨elsewhere, older⟩ := mem_finished under'
      obtain ⟨exists', out', given'⟩ := kept.taken q r' older
      have other : r'.timer ≠ r.timer := fun same =>
        elsewhere (kept.single q p r' older r under same)
      obtain ⟨out'', same⟩ := untouched r'.timer other out'
      exact ⟨created ▸ exists', out'', same ▸ given'⟩

omit [DecidableEq Tid] in
theorem initially {now : ℤ} :
    KeptOut (⟨TimerManager.initial now, fun _ => none⟩ : Shared Tid Cb) [] where
  clean := ⟨List.Pairwise.nil, fun _ mem => absurd mem List.not_mem_nil,
    fun _ mem => absurd mem List.not_mem_nil⟩
  past _ mem := absurd mem List.not_mem_nil
  taken _ _ under := nomatch under
  single _ _ _ under := nomatch under

/-- No settled section puts a cancelled timer back. -/
theorem next (kept : KeptOut s cancelled) {a : SharedMove Tid Cb}
    (available : sharedTimers.enabled s a) (distinct : s.manager.DistinctTimes)
    (settled : Settled s a) :
    KeptOut (sharedTimers.next s a) (sharedRecord s a cancelled) := by
  have foundIn : ∀ t < s.manager.created, s.manager.FoundIn t := fun t =>
    distinct.foundIn kept.clean.ordered
  cases a with
  | addTimer ms cb recurring now =>
    refine kept.frame (kept.clean.addTimer settled) ?_ fun u older =>
      TimerManager.untouched_addTimer older
    exact TimerManager.created_addTimer ▸ Nat.le_succ _
  | cancel t => exact kept.cancel available settled
  | refresh t now =>
    exact kept.frame (kept.clean.refresh available) TimerManager.created_refresh.ge fun u _ =>
      TimerManager.untouched_refresh (foundIn t available)
  | resetErase p t ms fromNow => exact kept.resetErase (foundIn t available.1)
  | resetInsert p now => exact kept.resetInsert
  | listExpiredCb now now' rounds =>
    obtain ⟨manager, ends⟩ := Option.isSome_iff_exists.mp available
    rw [next_listExpiredCb ends]
    exact kept.frame (kept.clean.listExpiredCb ends) (TimerManager.created_listExpiredCb ends).ge
      fun u _ => TimerManager.untouched_listExpiredCb ends
  | getNextTimer =>
    exact kept.frame ⟨kept.clean.sorted, kept.clean.known, kept.clean.armed⟩ le_rfl
      fun u _ out => ⟨out, rfl⟩

end KeptOut

/-- In a run of settled sections on timers with distinct times, a cancelled timer is not
in the set, and no timer in the set is without a callback. -/
theorem staysOut_of_reaches [DecidableEq Tid] {p : Shared Tid Cb × List ℕ}
    (reached : (sharedTimers.observe [] sharedRecord).Reaches
      (fun q a => q.1.manager.DistinctTimes ∧ Settled q.1 a) p) :
    StaysOut p.1.manager p.2 := by
  have kept : KeptOut p.1 p.2 := by
    refine reached.invariant (I := fun q => KeptOut q.1 q.2) ?_ ?_
    · rintro ⟨_, _⟩ ⟨⟨now, rfl⟩, rfl⟩
      exact KeptOut.initially
    · intro q a kept available allowed
      exact kept.next available allowed.1 allowed.2
  refine ⟨fun t mem present => ?_, kept.clean.armed⟩
  simpa [(kept.past t mem).2] using kept.clean.armed t present

/-- One of two timers is reset and then cancelled, the other is reset meanwhile. -/
theorem staysOut_resetThenCancelled :
    let p := (sharedTimers.observe [] sharedRecord).after
      ((⟨empty, fun _ => none⟩ : Shared Bool Unit), [])
      [.addTimer 10 (some ()) true 0, .addTimer 30 (some ()) false 0, .resetErase false 0 20 true,
        .resetErase true 1 40 true, .resetInsert false 5, .cancel 0, .resetInsert true 6]
    (p.1.manager.timers = [1] ∧ p.2 = [0]) ∧ StaysOut p.1.manager p.2 := by
  have starts : (sharedTimers.observe [] sharedRecord).init
      ((⟨empty, fun _ => none⟩ : Shared Bool Unit), []) := ⟨⟨0, rfl⟩, rfl⟩
  have follows : (sharedTimers.observe [] sharedRecord).Follows
      (fun q a => q.1.manager.DistinctTimes ∧ Settled q.1 a)
      ((⟨empty, fun _ => none⟩ : Shared Bool Unit), [])
      [.addTimer 10 (some ()) true 0, .addTimer 30 (some ()) false 0, .resetErase false 0 20 true,
        .resetErase true 1 40 true, .resetInsert false 5, .cancel 0, .resetInsert true 6] := by
    decide +kernel
  exact ⟨by decide +kernel, staysOut_of_reaches ((Machine.Reaches.start starts).follow follows)⟩

/-- A timer that is cancelled between the two sections of its `reset` is put back. -/
theorem puts_back :
    ¬ ∀ p, (sharedTimers.observe [] sharedRecord).Reaches
      (fun (q : Shared Unit Unit × List ℕ) _ => q.1.manager.DistinctTimes) p →
      StaysOut p.1.manager p.2 := by
  intro out
  have starts : (sharedTimers.observe [] sharedRecord).init
      ((⟨empty, fun _ => none⟩ : Shared Unit Unit), []) := ⟨⟨0, rfl⟩, rfl⟩
  have follows : (sharedTimers.observe [] sharedRecord).Follows
      (fun (q : Shared Unit Unit × List ℕ) _ => q.1.manager.DistinctTimes)
      ((⟨empty, fun _ => none⟩ : Shared Unit Unit), [])
      [.addTimer 10 (some ()) false 0, .resetErase () 0 20 true, .cancel 0, .resetInsert () 5] := by
    decide +kernel
  have reached := (Machine.Reaches.start starts).follow follows
  have gone : 0 ∉ ((sharedTimers.observe [] sharedRecord).after
      ((⟨empty, fun _ => none⟩ : Shared Unit Unit), [])
      [.addTimer 10 (some ()) false 0, .resetErase () 0 20 true, .cancel 0,
        .resetInsert () 5]).1.manager.timers :=
    (out _ reached).1 0 (by decide +kernel)
  exact absurd gone (by decide +kernel)

end CoroutineService.Timers
