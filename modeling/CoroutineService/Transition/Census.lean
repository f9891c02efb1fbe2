import Mathlib.Data.Finset.Card

/-!
# Counting the threads in a region of their program

Many concurrent programs keep a counter of the threads standing in some region
of their code. The census is that number, computed from the program counters;
the lemmas say how one thread's move changes it.
-/

set_option autoImplicit false

namespace CoroutineService.Transition

variable {ι φ : Type*} {members : Finset ι} {inside : φ → Bool} {phase : ι → φ} {i : ι} {v : φ}

/-- The number of members whose phase lies in the region. -/
def census (members : Finset ι) (inside : φ → Bool) (phase : ι → φ) : ℕ :=
  (members.filter fun i => inside (phase i)).card

theorem census_pos (member : i ∈ members) (within : inside (phase i) = true) :
    0 < census members inside phase :=
  Finset.card_pos.mpr ⟨i, Finset.mem_filter.mpr ⟨member, within⟩⟩

theorem census_eq_zero_iff :
    census members inside phase = 0 ↔ ∀ i ∈ members, inside (phase i) = false := by
  simp [census, Finset.card_eq_zero, Finset.filter_eq_empty_iff]

variable [DecidableEq ι]

/-- A move that does not cross the border of the region keeps the census. -/
theorem census_update_same (same : inside v = true ↔ inside (phase i) = true) :
    census members inside (Function.update phase i v) = census members inside phase := by
  unfold census
  congr 1
  refine Finset.filter_congr fun j _ => ?_
  by_cases moved : j = i
  · subst moved
    rw [Function.update_self]
    exact same
  · rw [Function.update_of_ne moved]

/-- Entering the region raises the census by one. -/
theorem census_update_enter (member : i ∈ members) (before : inside (phase i) = false)
    (after : inside v = true) :
    census members inside (Function.update phase i v) = census members inside phase + 1 := by
  have grown : (members.filter fun j => inside (Function.update phase i v j)) =
      insert i (members.filter fun j => inside (phase j)) := by
    ext j
    by_cases moved : j = i
    · subst moved
      simp [member, after]
    · simp [moved]
  rw [census, grown, Finset.card_insert_of_notMem (by simp [before]), census]

/-- Leaving the region lowers the census by one. -/
theorem census_update_leave (member : i ∈ members) (before : inside (phase i) = true)
    (after : inside v = false) :
    census members inside (Function.update phase i v) = census members inside phase - 1 := by
  have shrunk : (members.filter fun j => inside (Function.update phase i v j)) =
      (members.filter fun j => inside (phase j)).erase i := by
    ext j
    by_cases moved : j = i
    · subst moved
      simp [after]
    · simp [moved]
  rw [census, shrunk, Finset.card_erase_of_mem (by simp [member, before]), census]

end CoroutineService.Transition
