import Mathlib.Algebra.Order.Ring.Int
import Mathlib.Data.Int.Notation

/-!
# Ranges of memory

What is stored to a range of memory and read back from one.

## Main definitions

* `store`, `load`: a range is written to, or read
* `places`: the places of a range

## Main results

* `load_store_take`: what has been stored is read again
* `load_store_before`, `store_of_notMem`: a store leaves the memory elsewhere
-/

set_option autoImplicit false

namespace CoroutineService.Memory

variable {α : Type*}

/-- The elements are stored from `place` on. -/
def store (mem : ℤ → α) (place : ℤ) (bytes : List α) (i : ℤ) : α :=
  if place ≤ i then bytes[(i - place).toNat]?.getD (mem i) else mem i

/-- The `n` places from `place` on. -/
def places (place : ℤ) (n : ℕ) : List ℤ := (List.range n).map fun k : ℕ => place + k

/-- The `n` elements from `place` on. -/
def load (mem : ℤ → α) (place : ℤ) (n : ℕ) : List α := (places place n).map mem

variable {mem : ℤ → α} {place place' i : ℤ} {bytes : List α} {m n : ℕ}

theorem mem_places : i ∈ places place n ↔ place ≤ i ∧ i < place + n := by
  unfold places
  rw [List.mem_map]
  constructor
  · rintro ⟨k, inside, rfl⟩
    have bound := List.mem_range.mp inside
    omega
  · rintro ⟨le, lt⟩
    exact ⟨(i - place).toNat, List.mem_range.mpr (by omega), by omega⟩

/-- Other places keep what they hold. -/
theorem store_of_notMem (elsewhere : i ∉ places place bytes.length) :
    store mem place bytes i = mem i := by
  rw [mem_places] at elsewhere
  unfold store
  split
  · rw [List.getElem?_eq_none (by omega), Option.getD_none]
  · rfl

theorem store_add (inside : n < bytes.length) :
    store mem place bytes (place + n) = bytes[n] := by
  unfold store
  rw [if_pos (by omega), show (place + n - place).toNat = n by omega,
    List.getElem?_eq_getElem inside, Option.getD_some]

theorem places_add : places place (m + n) = places place m ++ places (place + m) n := by
  unfold places
  rw [List.range_add, List.map_append, List.map_map]
  congr 1
  refine List.map_congr_left fun k _ => ?_
  show place + (m + k : ℕ) = place + m + k
  omega

theorem load_add : load mem place (m + n) = load mem place m ++ load mem (place + m) n := by
  unfold load
  rw [places_add, List.map_append]

/-- What stands before a range that is written to. -/
theorem load_store_before (before : place' + n ≤ place) :
    load (store mem place bytes) place' n = load mem place' n := by
  refine List.map_congr_left fun i inside => store_of_notMem fun hit => ?_
  rw [mem_places] at inside hit
  omega

/-- What has been stored. -/
theorem load_store_take (le : n ≤ bytes.length) :
    load (store mem place bytes) place n = bytes.take n := by
  apply List.ext_getElem
  · simp [load, places, le]
  · intro k inside _
    have bound : k < n := by simpa [load, places] using inside
    simp only [load, places, List.getElem_map, List.getElem_range, List.getElem_take]
    exact store_add (Nat.lt_of_lt_of_le bound le)

end CoroutineService.Memory
