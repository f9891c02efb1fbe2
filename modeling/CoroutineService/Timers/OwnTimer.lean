import CoroutineService.Timers.Termination

/-!
# The timer an operation is called on

`cancel`, `refresh` and `reset` look for their timer in the set before they take it out,
and the set compares deadlines. A timer that the set has refused, because another one
stands at its deadline, still has its callback: an operation on it finds that other timer
and takes it out. In every other case an operation concerns its own timer only.

## Main definitions

* `OthersKept`: the timers other than one are as they were

## Main results

* `othersKept_cancel_iff`, `othersKept_refresh_iff`, `othersKept_reset_iff`: the
  operations leave the others alone if and only if what they find is their own timer
* `othersKept_iff`: the same, for every set of timers that can be reached
* `not_othersKept`: two recurring timers that are put back to one deadline
-/

set_option autoImplicit false

namespace CoroutineService.Timers

open CoroutineService.Containers CoroutineService.Transition

variable {Cb : Type*}

namespace TimerManager

variable {s s' s'' : TimerManager Cb} {t u ms : ℕ} {now : ℤ} {timer : Timer Cb}
variable {fromNow : Bool}

/-- Every timer but `t` is in the set if it was there before, with the deadline and the
callback it had. -/
def OthersKept (s s' : TimerManager Cb) (t : ℕ) : Prop :=
  ∀ u, u ≠ t → (u ∈ s'.timers ↔ u ∈ s.timers) ∧ s'.key u = s.key u ∧
    (s'.timer u).cb = (s.timer u).cb

theorem OthersKept.refl (s : TimerManager Cb) (t : ℕ) : OthersKept s s t :=
  fun _ _ => ⟨Iff.rfl, rfl, rfl⟩

theorem OthersKept.trans (first : OthersKept s s' t) (second : OthersKept s' s'' t) :
    OthersKept s s'' t := by
  intro u other
  obtain ⟨mem, key, cb⟩ := first u other
  obtain ⟨mem', key', cb'⟩ := second u other
  exact ⟨mem'.trans mem, key'.trans key, cb'.trans cb⟩

/-! ### What the operations are made of -/

theorem othersKept_put : OthersKept s (s.put t timer) t := by
  intro u other
  refine ⟨Iff.rfl, key_put_of_ne other, ?_⟩
  show (Function.update s.timer t timer u).cb = (s.timer u).cb
  rw [Function.update_of_ne other]

/-- The set takes a timer in or refuses it, and loses none. -/
theorem othersKept_insert : OthersKept s (s.insert t) t := by
  intro u other
  refine ⟨⟨fun mem => ?_, mem_insertBy_of_mem⟩, rfl, rfl⟩
  exact (mem_of_mem_insertBy mem).resolve_left other

theorem othersKept_addShared : OthersKept s (s.addShared t).2 t := by
  unfold addShared
  dsimp only
  split
  · exact othersKept_insert
  · exact othersKept_insert

theorem Ordered.othersKept_erase (ordered : s.Ordered) (own : t ∈ s.timers) :
    OthersKept s (s.erase t) t := by
  intro u other
  exact ⟨(mem_erase ordered.sorted own).trans (and_iff_left other), rfl, rfl⟩

/-- What the erasure finds is gone. -/
theorem Ordered.notMem_erase_of_key (ordered : s.Ordered) (same : s.key u = s.key t) :
    u ∉ (s.erase t).timers :=
  fun mem => (ordered.sorted.mem_eraseBy.mp mem).2 same

/-- To take out what is found is to leave the others alone if it is the timer itself. -/
theorem Ordered.othersKept_erase_iff (ordered : s.Ordered) (found : s.finds t = true) :
    OthersKept s (s.erase t) t ↔ t ∈ s.timers := by
  refine ⟨fun kept => ?_, ordered.othersKept_erase⟩
  obtain ⟨u, mem, same⟩ := findBy_isSome.mp found
  by_cases here : u = t
  · exact here ▸ mem
  · exact absurd ((kept u here).1.mpr mem) (ordered.notMem_erase_of_key same)

/-- What comes after the erasure makes no difference to the others. -/
theorem Ordered.othersKept_iff_mem (ordered : s.Ordered) (found : s.finds t = true)
    (rest : OthersKept (s.erase t) s' t) : OthersKept s s' t ↔ t ∈ s.timers := by
  rw [← ordered.othersKept_erase_iff found]
  refine ⟨fun kept => ?_, fun kept => kept.trans rest⟩
  intro u other
  exact ⟨(rest u other).1.symm.trans (kept u other).1, rfl, rfl⟩

/-- An operation that does nothing unless it finds a timer, and then leaves the others as
the erasure leaves them. -/
theorem Ordered.othersKept_iff_foundIn (ordered : s.Ordered)
    (idle : ¬((s.timer t).cb.isSome = true ∧ s.finds t = true) → OthersKept s s' t)
    (acts : (s.timer t).cb.isSome = true → s.finds t = true → OthersKept (s.erase t) s' t) :
    OthersKept s s' t ↔ s.FoundIn t := by
  by_cases reaches : (s.timer t).cb.isSome = true ∧ s.finds t = true
  · obtain ⟨given, found⟩ := reaches
    refine (ordered.othersKept_iff_mem found (acts given found)).trans ?_
    exact ⟨fun own _ _ => own, fun foundIn => foundIn given found⟩
  · exact iff_of_true (idle reaches) fun given found => absurd ⟨given, found⟩ reaches

/-! ### The operations -/

/-- The timer that is looked for may be blanked before or after it is taken out. -/
theorem erase_put (keeps : timer.next = (s.timer t).next) :
    (s.put t timer).erase t = (s.erase t).put t timer ∧ (s.put t timer).finds t = s.finds t := by
  have same : (s.put t timer).key = s.key := by
    funext u
    by_cases here : u = t
    · rw [here, key_put_self, keeps]
      rfl
    · exact key_put_of_ne here
  unfold erase finds
  rw [same]
  exact ⟨rfl, rfl⟩

theorem othersKept_cancel_iff (ordered : s.Ordered) :
    OthersKept s (s.cancel t).2 t ↔ s.FoundIn t := by
  have keeps : ({ s.timer t with cb := none } : Timer Cb).next = (s.timer t).next := rfl
  obtain ⟨erased, found⟩ := erase_put keeps
  unfold cancel
  refine ordered.othersKept_iff_foundIn (fun idle => ?_) fun given here => ?_
  · split
    case isTrue => exact OthersKept.refl s t
    case isFalse given =>
      have given : (s.timer t).cb.isSome = true := by
        simpa [Option.isSome_iff_ne_none] using given
      dsimp only
      rw [if_neg fun more => idle ⟨given, found ▸ more⟩]
      exact othersKept_put
  · rw [if_neg (by simpa [Option.isSome_iff_ne_none] using given)]
    dsimp only
    rw [if_pos (found.trans here), erased]
    exact othersKept_put

/-- `refresh` and `reset` begin with the same two tests. -/
theorem Ordered.othersKept_tested_iff (ordered : s.Ordered)
    (acts : OthersKept (s.erase t) s' t) :
    OthersKept s (if (s.timer t).cb.isNone then (false, s)
      else if s.finds t = false then (false, s) else (true, s')).2 t ↔ s.FoundIn t := by
  refine ordered.othersKept_iff_foundIn (fun idle => ?_) fun given here => ?_
  · split
    case isTrue => exact OthersKept.refl s t
    case isFalse given =>
      have given : (s.timer t).cb.isSome = true := by
        simpa [Option.isSome_iff_ne_none] using given
      rw [if_pos (by simpa using fun more => idle ⟨given, more⟩)]
      exact OthersKept.refl s t
  · rw [if_neg (by simpa [Option.isSome_iff_ne_none] using given), if_neg (by simp [here])]
    exact acts

theorem othersKept_refresh_iff (ordered : s.Ordered) :
    OthersKept s (s.refresh t now).2 t ↔ s.FoundIn t :=
  ordered.othersKept_tested_iff (othersKept_put.trans othersKept_insert)

/-- `reset` also leaves the others alone if it is asked for what the timer has. -/
theorem othersKept_reset_iff (ordered : s.Ordered) :
    OthersKept s (s.reset t ms fromNow now).2 t ↔
      ms = (s.timer t).ms ∧ fromNow = false ∨ s.FoundIn t := by
  unfold reset
  by_cases same : ms = (s.timer t).ms ∧ fromNow = false
  · rw [if_pos same]
    exact iff_of_true (OthersKept.refl s t) (.inl same)
  rw [if_neg same, or_iff_right same]
  exact ordered.othersKept_tested_iff (othersKept_put.trans othersKept_addShared)

end TimerManager

open TimerManager

/-- Whatever has been done with the timers before, an operation leaves the others alone if
and only if it stops before it looks for its timer, or finds none, or finds its own. -/
theorem othersKept_iff (s : TimerManager Cb) (reached : timerMachine.Reachable s) (t : ℕ) :
    (OthersKept s (s.cancel t).2 t ↔ s.FoundIn t) ∧
      (∀ now, OthersKept s (s.refresh t now).2 t ↔ s.FoundIn t) ∧
      ∀ ms fromNow now, OthersKept s (s.reset t ms fromNow now).2 t ↔
        ms = (s.timer t).ms ∧ fromNow = false ∨ s.FoundIn t := by
  have ordered := ordered_of_reachable reached
  refine ⟨othersKept_cancel_iff ordered, fun now => ?_, fun ms fromNow now => ?_⟩
  · exact othersKept_refresh_iff ordered
  · exact othersKept_reset_iff ordered

/-- Two timers that recur every second, made one nanosecond apart, after a pass that puts
both back. -/
def rejoined : TimerManager Unit :=
  timerMachine.after (TimerManager.initial 0)
    [.addTimer 1000 (some ()) true 0, .addTimer 1000 (some ()) true 1,
      .listExpiredCb 2000000000 2000000000 2]

theorem reachable_rejoined : timerMachine.Reachable rejoined := by
  have starts : timerMachine.init (TimerManager.initial 0 : TimerManager Unit) := ⟨_, rfl⟩
  have follows : timerMachine.Follows (fun _ _ => True)
      (TimerManager.initial 0 : TimerManager Unit)
      [.addTimer 1000 (some ()) true 0, .addTimer 1000 (some ()) true 1,
        .listExpiredCb 2000000000 2000000000 2] := by
    decide +kernel
  exact (Machine.Reaches.start starts).follow follows

/-- The timer that was put back first is found when it is looked for. -/
theorem othersKept_rejoined : OthersKept rejoined (rejoined.cancel 0).2 0 :=
  (othersKept_iff rejoined reachable_rejoined 0).1.mpr fun _ _ => by decide +kernel

/-- The other one was refused, and cancelling it takes the first one out. -/
theorem not_othersKept :
    ¬ ∀ s : TimerManager Unit, timerMachine.Reachable s → ∀ t < s.created,
      OthersKept s (s.cancel t).2 t ∧ (∀ now, OthersKept s (s.refresh t now).2 t) ∧
        ∀ ms fromNow now, OthersKept s (s.reset t ms fromNow now).2 t := by
  intro kept
  have present : 0 ∈ rejoined.timers := by decide +kernel
  have gone : 0 ∉ (rejoined.cancel 1).2.timers := by decide +kernel
  have cancelled := (kept rejoined reachable_rejoined 1 (by decide +kernel)).1
  exact gone ((cancelled 0 (by decide)).1.mpr present)

end CoroutineService.Timers
