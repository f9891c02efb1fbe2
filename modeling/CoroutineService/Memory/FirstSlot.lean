import CoroutineService.Memory.MemoryPool

/-!
# The first slot of a block

The pool for any `BlockSize` that its `static_assert` admits. A new block begins with a pointer,
and the padding behind it is at least one byte, so a block needs more than the pointer and a
slot. Two slots are enough, unless they are as small as the pointer itself.

## Main definitions

* `Exhausted`: a pool that takes a new block
* `Layout.allocate`: `allocate` for blocks of this size
* `Layout.Inside`: a slot lies in a block

## Main results

* `allocate_toLayout`: the pool with blocks of 4096 bytes
* `inside_iff`: when the first slot of a new block lies inside it
* `not_inside`: slots of 8 bytes in blocks of 16
-/

set_option autoImplicit false

namespace CoroutineService.Memory

namespace Layout

variable (L : Layout)

/-- Begin with a new block. -/
def newBlock (s : MemoryPool) (block : ℕ) : MemoryPool :=
  { s with
    next := Function.update s.next block s.currentBlock
    currentBlock := block
    currentSlot := L.firstSlot block
    lastSlot := block + L.blockSize - L.size + 1
    blocks := block :: s.blocks }

/-- `allocate`, where `block` is what `operator new` returns. -/
def allocate (s : MemoryPool) (block : ℕ) : ℕ × MemoryPool :=
  if s.freeSlots ≠ 0 then (s.freeSlots, { s with freeSlots := s.next s.freeSlots })
  else
    let s := if s.lastSlot ≤ s.currentSlot then L.newBlock s block else s
    (s.currentSlot, { s with currentSlot := s.currentSlot + L.size })

/-- The slot at `p` lies wholly inside the block. -/
def Inside (block p : ℕ) : Prop := block ≤ p ∧ p + L.size ≤ block + L.blockSize

instance (block p : ℕ) : Decidable (L.Inside block p) := inferInstanceAs (Decidable (_ ∧ _))

end Layout

theorem allocate_toLayout (L : SlotLayout) (s : MemoryPool) (block : ℕ) :
    L.toLayout.allocate s block = s.allocate L block := rfl

/-- `allocate` takes a new block. -/
structure Exhausted (s : MemoryPool) : Prop where
  freeSlots : s.freeSlots = 0
  lastSlot : s.lastSlot ≤ s.currentSlot

namespace Layout

variable {L : Layout} {s : MemoryPool} {block : ℕ}

theorem allocate_of_exhausted (exhausted : Exhausted s) :
    (L.allocate s block).1 = L.firstSlot block := by
  rw [allocate, if_neg (not_not.mpr exhausted.freeSlots)]
  dsimp only
  rw [if_pos exhausted.lastSlot]
  rfl

theorem inside_firstSlot_iff (aligned : 16 ∣ block) :
    L.Inside block (L.firstSlot block) ↔ (L.size = 8 → 24 ≤ L.blockSize) := by
  have begins : block ≤ L.firstSlot block := by
    unfold firstSlot
    omega
  rw [← L.firstSlot_add_le_iff aligned]
  exact ⟨fun inside => inside.2, fun ends => ⟨begins, ends⟩⟩

end Layout

/-- The first slot of a new block lies inside the block unless it has the size of a pointer and
the block has less than three times this size. -/
theorem inside_iff (L : Layout) {s : MemoryPool} {block : ℕ} (exhausted : Exhausted s)
    (aligned : 16 ∣ block) :
    L.Inside block (L.allocate s block).1 ↔ (L.size = 8 → 24 ≤ L.blockSize) := by
  rw [Layout.allocate_of_exhausted exhausted]
  exact Layout.inside_firstSlot_iff aligned

/-- Two slots of 16 bytes in a block of 32: the second one is padding and a pointer. -/
theorem inside_pairs :
    let L : Layout := ⟨16, 16, 32, by decide, ⟨4, rfl⟩, by decide, by decide, by decide⟩
    L.Inside 4096 (L.allocate (.new fun _ => 0) 4096).1 := by
  intro L
  have exhausted : Exhausted (.new fun _ => 0) := ⟨rfl, Nat.le_refl 0⟩
  exact (inside_iff L exhausted (by decide)).mpr nofun

/-- Slots of 8 bytes in blocks of 16 begin where their block ends. -/
theorem not_inside : ¬ ∀ (L : Layout) (s : MemoryPool) (block : ℕ), Exhausted s → 16 ∣ block →
    L.Inside block (L.allocate s block).1 := by
  intro inside
  have first := inside ⟨8, 8, 16, by decide, ⟨3, rfl⟩, by decide, by decide, by decide⟩
    (.new fun _ => 0) 4096 ⟨rfl, Nat.le_refl 0⟩ (by decide)
  exact absurd first (by decide)

end CoroutineService.Memory
