import Mathlib.Algebra.Order.Group.Nat
import Mathlib.Data.Nat.Notation

/-!
# Slots in a block

Where the first slot of a block of `MemoryPool` begins. A block begins with a pointer, and what
follows is padded up to the alignment of the slots, by one byte at least.

## Main definitions

* `Layout`: slots and blocks that the `static_assert` admits
* `Layout.firstSlot`: the first slot of a block

## Main results

* `Layout.firstSlot_add_le_iff`: when the first slot ends in its block
-/

set_option autoImplicit false

namespace CoroutineService.Memory

/-- `sizeof(slot_type_)`, `alignof(slot_type_)` and `BlockSize`. The type of a slot is a union
with a pointer, and `static_assert` asks for two slots. -/
structure Layout where
  size : ℕ
  align : ℕ
  blockSize : ℕ
  positive : 0 < size
  power : ∃ k, align = 2 ^ k
  pointer : 8 ≤ align
  divides : align ∣ size
  two : 2 * size ≤ blockSize

namespace Layout

variable (L : Layout)

/-- `bodyPadding`. -/
def bodyPadding (body : ℕ) : ℕ := L.align - body % L.align

/-- The first slot of a block, behind the pointer. -/
def firstSlot (block : ℕ) : ℕ := block + 8 + L.bodyPadding (block + 8)

theorem align_le_size : L.align ≤ L.size := Nat.le_of_dvd L.positive L.divides

/-- The smallest alignment is that of a pointer, and the others divide into sixteens. -/
theorem align_eq_or_dvd : L.align = 8 ∨ 16 ∣ L.align := by
  obtain ⟨k, power⟩ := L.power
  have pointer := L.pointer
  rcases Nat.lt_or_ge k 4 with small | large
  · left
    have le : 2 ^ k ≤ 2 ^ 3 := Nat.pow_le_pow_right (by decide) (by omega)
    omega
  · right
    rw [power]
    exact Nat.pow_dvd_pow 2 large

/-- The body begins 8 bytes beyond a multiple of 16, so it is padded by 8 bytes, or by 8 less
than the alignment at most. -/
theorem bodyPadding_cases {block : ℕ} (aligned : 16 ∣ block) :
    L.align = 8 ∧ L.bodyPadding (block + 8) = 8 ∨
      16 ≤ L.align ∧ L.bodyPadding (block + 8) + 8 ≤ L.align := by
  unfold bodyPadding
  have pointer := L.pointer
  rcases L.align_eq_or_dvd with smallest | sixteen
  · left
    rw [smallest]
    omega
  · right
    have rest : (block + 8) % L.align % 16 = 8 := by
      rw [Nat.mod_mod_of_dvd _ sixteen]
      omega
    omega

/-- A block has room for its first slot unless the slot has the size of a pointer and the block
less than three times this size. -/
theorem firstSlot_add_le_iff {block : ℕ} (aligned : 16 ∣ block) :
    L.firstSlot block + L.size ≤ block + L.blockSize ↔ (L.size = 8 → 24 ≤ L.blockSize) := by
  have two := L.two
  have small := L.align_le_size
  have whole := L.divides
  unfold firstSlot
  rcases L.bodyPadding_cases aligned with ⟨smallest, padding⟩ | ⟨large, padding⟩
  · rw [padding]
    rw [smallest] at whole small
    omega
  · omega

end Layout

end CoroutineService.Memory
