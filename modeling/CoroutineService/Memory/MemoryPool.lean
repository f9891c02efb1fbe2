import CoroutineService.Memory.Layout
import CoroutineService.Memory.Linked
import CoroutineService.Transition.Machine
import Mathlib.Algebra.Group.Nat.Even
import Mathlib.Algebra.Order.Group.Nat
import Mathlib.Data.List.Pairwise
import Mathlib.Data.List.Perm.Basic

/-!
# The memory pool

`MemoryPool` hands out slots of one size. Slots that were given back form a list through
their own memory and are handed out first; otherwise the next slot of the current block is,
and when there is none left, of a new block. A block begins with a pointer to the block
before it.

## Main definitions

* `SlotLayout`: size and alignment of a slot
* `MemoryPool`, `memoryMachine`: the pool, and its use
* `IsSlot`: where the slots of a block are
* `Pooled`: what is handed out, what was given back, and what is still untouched

## Main results

* `SlotLayout.firstSlot_fits`: a new block has room for a slot
* `slots_apart`: slots in use are aligned, apart and inside their blocks
-/

set_option autoImplicit false

namespace CoroutineService.Memory

open CoroutineService.Transition

/-- `BlockSize`. -/
def blockSize : ℕ := 4096

/-- `sizeof(slot_type_)` and `alignof(slot_type_)`. A slot can hold a pointer, and a block
two slots. -/
structure SlotLayout where
  size : ℕ
  align : ℕ
  positive : 0 < size
  power : ∃ k, align = 2 ^ k
  pointer : 8 ≤ align
  divides : align ∣ size
  two : 2 * size ≤ blockSize

/-- The blocks are those of the default argument. -/
def SlotLayout.toLayout (L : SlotLayout) : Layout :=
  ⟨L.size, L.align, blockSize, L.positive, L.power, L.pointer, L.divides, L.two⟩

/-- Pieces of memory of `n` bytes that do not overlap. -/
def Apart (n p q : ℕ) : Prop := p + n ≤ q ∨ q + n ≤ p

instance (n p q : ℕ) : Decidable (Apart n p q) := inferInstanceAs (Decidable (_ ∨ _))

instance (n : ℕ) : Std.Symm (Apart n) := ⟨fun _ _ apart => apart.symm⟩

/-- `MemoryPool`. Pointers are addresses, and `next` has the pointers that are stored in
memory. `blocks` are the blocks obtained from `operator new`, the latest first; `live` are the
pointers that callers have been given, and `freed` those they have given back and not been
given again. -/
structure MemoryPool where
  currentBlock : ℕ
  currentSlot : ℕ
  lastSlot : ℕ
  freeSlots : ℕ
  next : ℕ → ℕ
  blocks : List ℕ
  live : List ℕ
  freed : List ℕ

/-- The uses of a pool. A caller stores what it likes in its slots. -/
inductive MemoryMove
  -- With the address that `operator new` returns, should it be called.
  | allocate (block : ℕ)
  | deallocate (p : ℕ)
  | store (p a value : ℕ)

namespace SlotLayout

variable (L : SlotLayout)

/-- `bodyPadding`. -/
def bodyPadding (body : ℕ) : ℕ := L.align - body % L.align

/-- The first slot of a block, behind the pointer. -/
def firstSlot (block : ℕ) : ℕ := block + 8 + L.bodyPadding (block + 8)

end SlotLayout

namespace MemoryPool

/-- The constructor. -/
def new (next : ℕ → ℕ) : MemoryPool := ⟨0, 0, 0, 0, next, [], [], []⟩

variable (L : SlotLayout) (s : MemoryPool)

/-- Begin with a new block. -/
def newBlock (block : ℕ) : MemoryPool :=
  { s with
    next := Function.update s.next block s.currentBlock
    currentBlock := block
    currentSlot := L.firstSlot block
    lastSlot := block + blockSize - L.size + 1
    blocks := block :: s.blocks }

/-- `allocate`, where `block` is what `operator new` returns. -/
def allocate (block : ℕ) : ℕ × MemoryPool :=
  if s.freeSlots ≠ 0 then (s.freeSlots, { s with freeSlots := s.next s.freeSlots })
  else
    let s := if s.lastSlot ≤ s.currentSlot then s.newBlock L block else s
    (s.currentSlot, { s with currentSlot := s.currentSlot + L.size })

/-- `deallocate`. -/
def deallocate (p : ℕ) : MemoryPool :=
  if p ≠ 0 then { s with next := Function.update s.next p s.freeSlots, freeSlots := p } else s

/-- What `operator new` may return: a block of its own, at a multiple of 16. -/
def Provides (block : ℕ) : Prop :=
  block % 16 = 0 ∧ block ≠ 0 ∧ ∀ b ∈ s.blocks, Apart blockSize block b

end MemoryPool

/-- The pool in use. Only pointers that are live are given back. -/
def memoryMachine (L : SlotLayout) : Machine MemoryPool MemoryMove where
  init s := ∃ next, s = .new next
  enabled s
    | .allocate block => s.freeSlots = 0 → s.lastSlot ≤ s.currentSlot → s.Provides block
    | .deallocate p => p ∈ s.live
    | .store p a _ => p ∈ s.live ∧ p ≤ a ∧ a + 8 ≤ p + L.size
  next s
    | .allocate block =>
      let (p, s) := s.allocate L block
      { s with live := p :: s.live, freed := s.freed.erase p }
    | .deallocate p =>
      let s := s.deallocate p
      { s with live := s.live.erase p, freed := p :: s.freed }
    | .store _ a value => { s with next := Function.update s.next a value }

instance (s : MemoryPool) (block : ℕ) : Decidable (s.Provides block) :=
  inferInstanceAs (Decidable (_ ∧ _ ∧ ∀ b ∈ s.blocks, Apart blockSize block b))

instance (L : SlotLayout) (s : MemoryPool) (a : MemoryMove) :
    Decidable ((memoryMachine L).enabled s a) := by
  induction a using MemoryMove.casesOn <;> (dsimp only [memoryMachine]; infer_instance)

/-! ### Slots of a block -/

namespace SlotLayout

variable {L : SlotLayout} {block : ℕ}

theorem align_le_size (L : SlotLayout) : L.align ≤ L.size := L.toLayout.align_le_size

/-- There is always some padding, so a slot does not touch the pointer. -/
theorem le_firstSlot (block : ℕ) : block + 8 ≤ L.firstSlot block := Nat.le_add_right _ _

theorem align_dvd_firstSlot (block : ℕ) : L.align ∣ L.firstSlot block := by
  have positive : 0 < L.align := Nat.lt_of_lt_of_le (by decide) L.pointer
  have below := Nat.mod_lt (block + 8) positive
  have whole := Nat.div_add_mod (block + 8) L.align
  refine ⟨(block + 8) / L.align + 1, ?_⟩
  unfold firstSlot bodyPadding
  rw [Nat.mul_add, Nat.mul_one]
  omega

/-- Behind the padding a block has room for a slot. -/
theorem firstSlot_fits (aligned : block % 16 = 0) :
    L.firstSlot block + L.size ≤ block + blockSize := by
  have three : 24 ≤ blockSize := by decide
  exact (L.toLayout.firstSlot_add_le_iff (Nat.dvd_of_mod_eq_zero aligned)).mpr fun _ => three

end SlotLayout

/-- `p` is one of the slots of a block. -/
def IsSlot (L : SlotLayout) (block p : ℕ) : Prop :=
  (∃ k, p = L.firstSlot block + k * L.size) ∧ p + L.size ≤ block + blockSize

namespace IsSlot

variable {L : SlotLayout} {b b' p q : ℕ}

theorem align_dvd (slot : IsSlot L b p) : L.align ∣ p := by
  obtain ⟨⟨k, rfl⟩, -⟩ := slot
  exact Nat.dvd_add (L.align_dvd_firstSlot b) (Nat.dvd_mul_left_of_dvd L.divides k)

theorem behind (slot : IsSlot L b p) : b + 8 ≤ p := by
  obtain ⟨⟨k, rfl⟩, -⟩ := slot
  exact Nat.le_trans (L.le_firstSlot b) (Nat.le_add_right _ _)

/-- Two slots of one block. -/
theorem apart (slot : IsSlot L b p) (slot' : IsSlot L b q) (differ : p ≠ q) :
    Apart L.size p q := by
  have before : ∀ {k k' : ℕ}, k < k' →
      L.firstSlot b + k * L.size + L.size ≤ L.firstSlot b + k' * L.size := by
    intro k k' less
    have grows := Nat.mul_le_mul_right L.size (Nat.succ_le_of_lt less)
    rw [Nat.succ_mul] at grows
    omega
  obtain ⟨⟨k, rfl⟩, -⟩ := slot
  obtain ⟨⟨k', rfl⟩, -⟩ := slot'
  rcases Nat.lt_trichotomy k k' with less | same | greater
  · exact .inl (before less)
  · exact absurd (same ▸ rfl) differ
  · exact .inr (before greater)

/-- Slots of blocks that do not overlap. -/
theorem apart_of_blocks (slot : IsSlot L b p) (slot' : IsSlot L b' q)
    (blocks : Apart blockSize b b') : Apart L.size p q := by
  have behind := slot.behind
  have behind' := slot'.behind
  have inside := slot.2
  have inside' := slot'.2
  unfold Apart at *
  omega

end IsSlot

/-! ### The pool in use -/

/-- Blocks do not overlap; the slots that have been handed out are slots of blocks, and those
given back form the list; the rest of the current block is untouched. -/
structure Pooled (L : SlotLayout) (s : MemoryPool) : Prop where
  aligned : ∀ b ∈ s.blocks, b % 16 = 0 ∧ b ≠ 0
  blocks : s.blocks.Pairwise (Apart blockSize)
  chained : Linked s.next 0 s.currentBlock s.blocks
  current : s.blocks = [] ∧ s.lastSlot = 0 ∨
    s.currentBlock ∈ s.blocks ∧ s.lastSlot = s.currentBlock + blockSize - L.size + 1 ∧
      ∃ k, s.currentSlot = L.firstSlot s.currentBlock + k * L.size
  slots : ∀ p ∈ s.live ++ s.freed, ∃ b ∈ s.blocks, IsSlot L b p
  used : ∀ p ∈ s.live ++ s.freed,
    p + L.size ≤ s.currentSlot ∨ s.currentBlock + blockSize ≤ p
  nodup : (s.live ++ s.freed).Nodup
  free : Linked s.next 0 s.freeSlots s.freed

section Use

variable {L : SlotLayout} {s s' : MemoryPool} {p q b block a value : ℕ}

/-- Different slots that have been handed out do not overlap. -/
theorem Pooled.apart (pooled : Pooled L s) (mem : p ∈ s.live ++ s.freed)
    (mem' : q ∈ s.live ++ s.freed) (differ : p ≠ q) : Apart L.size p q := by
  obtain ⟨b, inside, slot⟩ := pooled.slots p mem
  obtain ⟨b', inside', slot'⟩ := pooled.slots q mem'
  by_cases same : b = b'
  · exact slot.apart (same ▸ slot') differ
  · exact slot.apart_of_blocks slot' (pooled.blocks.forall inside inside' same)

/-- What is written to a slot is not written to the pointer of a block. -/
theorem Pooled.ne_block (pooled : Pooled L s) (mem : p ∈ s.live ++ s.freed) (inside : b ∈ s.blocks)
    (low : p ≤ a) (high : a + 8 ≤ p + L.size) : a ≠ b := by
  obtain ⟨b', inside', slot⟩ := pooled.slots p mem
  have behind := slot.behind
  have within := slot.2
  rintro rfl
  by_cases same : a = b'
  · omega
  · have blocks := pooled.blocks.forall inside inside' same
    unfold Apart blockSize at *
    omega

theorem Pooled.ne_zero (pooled : Pooled L s) (mem : p ∈ s.live ++ s.freed) : p ≠ 0 := by
  obtain ⟨b, -, slot⟩ := pooled.slots p mem
  have behind := slot.behind
  omega

theorem pooled_new (L : SlotLayout) (next : ℕ → ℕ) : Pooled L (.new next) where
  aligned _ mem := absurd mem List.not_mem_nil
  blocks := .nil
  chained := rfl
  current := .inl ⟨rfl, rfl⟩
  slots _ mem := absurd mem List.not_mem_nil
  used _ mem := absurd mem List.not_mem_nil
  nodup := .nil
  free := rfl

/-- A new block is obtained when there is no slot to give. -/
theorem Pooled.newBlock (pooled : Pooled L s) (empty : s.freeSlots = 0)
    (provides : s.Provides block) : Pooled L (s.newBlock L block) := by
  obtain ⟨multiple, proper, apart⟩ := provides
  have fresh : block ∉ s.blocks := fun mem => by
    have overlaps := apart block mem
    unfold Apart blockSize at overlaps
    omega
  have nothing : s.freed = [] := by
    have free := pooled.free
    rw [empty] at free
    exact free.eq_nil
  refine ⟨?_, ?_, pooled.chained.push fresh proper, ?_, ?_, ?_, pooled.nodup, ?_⟩
  · intro b mem
    rcases List.mem_cons.mp mem with rfl | older
    · exact ⟨multiple, proper⟩
    · exact pooled.aligned b older
  · exact List.pairwise_cons.mpr ⟨apart, pooled.blocks⟩
  · exact .inr ⟨List.mem_cons_self, rfl, 0, by rw [Nat.zero_mul]; rfl⟩
  · intro p mem
    obtain ⟨b, inside, slot⟩ := pooled.slots p mem
    exact ⟨b, List.mem_cons_of_mem block inside, slot⟩
  · -- slots of older blocks are before the new block or behind it
    intro p mem
    obtain ⟨b, inside, slot⟩ := pooled.slots p mem
    have overlaps := apart b inside
    have behind := slot.behind
    have within := slot.2
    have first := L.le_firstSlot block
    show p + L.size ≤ L.firstSlot block ∨ block + blockSize ≤ p
    unfold Apart blockSize at *
    omega
  · show Linked _ 0 s.freeSlots s.freed
    rw [empty, nothing]
    exact rfl

/-- The next slot of the current block is given. -/
theorem Pooled.bump (pooled : Pooled L s) (empty : s.freeSlots = 0)
    (room : s.currentSlot < s.lastSlot) :
    Pooled L { s with
      currentSlot := s.currentSlot + L.size
      live := s.currentSlot :: s.live
      freed := s.freed.erase s.currentSlot } := by
  have nothing : s.freed = [] := by
    have free := pooled.free
    rw [empty] at free
    exact free.eq_nil
  have positive := L.positive
  have two := L.two
  obtain ⟨inside, last, k, here⟩ : s.currentBlock ∈ s.blocks ∧
      s.lastSlot = s.currentBlock + blockSize - L.size + 1 ∧
      ∃ k, s.currentSlot = L.firstSlot s.currentBlock + k * L.size := by
    rcases pooled.current with ⟨-, none⟩ | current
    · omega
    · exact current
  have slot : IsSlot L s.currentBlock s.currentSlot := by
    refine ⟨⟨k, here⟩, ?_⟩
    unfold blockSize at *
    omega
  have within := slot.2
  -- With an empty free list the slots handed out are those that are live.
  have same : ∀ {p}, p ∈ (s.currentSlot :: s.live) ++ s.freed.erase s.currentSlot ↔
      p = s.currentSlot ∨ p ∈ s.live ++ s.freed := by
    intro p
    rw [nothing]
    simp
  refine ⟨pooled.aligned, pooled.blocks, pooled.chained, ?_, ?_, ?_, ?_, ?_⟩
  · refine .inr ⟨inside, last, k + 1, ?_⟩
    show s.currentSlot + L.size = _
    rw [here, Nat.succ_mul, Nat.add_assoc]
  · intro p mem
    rcases same.mp mem with rfl | older
    · exact ⟨s.currentBlock, inside, slot⟩
    · exact pooled.slots p older
  · intro p mem
    show p + L.size ≤ s.currentSlot + L.size ∨ s.currentBlock + blockSize ≤ p
    rcases same.mp mem with rfl | older
    · exact .inl le_rfl
    · exact (pooled.used p older).imp_left fun before => before.trans (Nat.le_add_right _ _)
  · -- the slot has not been handed out before
    have fresh : s.currentSlot ∉ s.live ++ s.freed := by
      intro mem
      have used := pooled.used _ mem
      omega
    show ((s.currentSlot :: s.live) ++ s.freed.erase s.currentSlot).Nodup
    have unique := pooled.nodup
    rw [nothing, List.append_nil] at fresh unique
    rw [nothing, List.erase_nil, List.append_nil]
    exact List.nodup_cons.mpr ⟨fresh, unique⟩
  · show Linked s.next 0 s.freeSlots (s.freed.erase s.currentSlot)
    rw [nothing, empty]
    exact rfl

/-- A slot that was given back is given again. -/
theorem Pooled.reuse (pooled : Pooled L s) (some : s.freeSlots ≠ 0) :
    Pooled L { s with
      freeSlots := s.next s.freeSlots
      live := s.freeSlots :: s.live
      freed := s.freed.erase s.freeSlots } := by
  obtain ⟨rest, whole, onward⟩ := pooled.free.pop some
  have erased : s.freed.erase s.freeSlots = rest := by rw [whole, List.erase_cons_head]
  have same : ((s.freeSlots :: s.live) ++ s.freed.erase s.freeSlots).Perm (s.live ++ s.freed) := by
    rw [erased, whole]
    exact List.perm_middle.symm
  refine ⟨pooled.aligned, pooled.blocks, pooled.chained, pooled.current, ?_, ?_, ?_, ?_⟩
  · exact fun p mem => pooled.slots p (same.mem_iff.mp mem)
  · exact fun p mem => pooled.used p (same.mem_iff.mp mem)
  · exact same.nodup_iff.mpr pooled.nodup
  · show Linked s.next 0 (s.next s.freeSlots) (s.freed.erase s.freeSlots)
    rw [erased]
    exact onward

theorem Pooled.allocate (pooled : Pooled L s)
    (provides : s.freeSlots = 0 → s.lastSlot ≤ s.currentSlot → s.Provides block) :
    Pooled L ((memoryMachine L).next s (.allocate block)) := by
  show Pooled L { (s.allocate L block).2 with
    live := (s.allocate L block).1 :: (s.allocate L block).2.live
    freed := (s.allocate L block).2.freed.erase (s.allocate L block).1 }
  unfold MemoryPool.allocate
  by_cases some : s.freeSlots ≠ 0
  · rw [if_pos some]
    exact pooled.reuse some
  · rw [if_neg some]
    have empty : s.freeSlots = 0 := not_not.mp some
    by_cases spent : s.lastSlot ≤ s.currentSlot
    · -- the new block has room, so nothing need be asked again
      rw [if_pos spent]
      obtain ⟨multiple, proper, apart⟩ := provides empty spent
      have fits := L.firstSlot_fits multiple
      have two := L.two
      have room : (s.newBlock L block).currentSlot < (s.newBlock L block).lastSlot := by
        show L.firstSlot block < block + blockSize - L.size + 1
        omega
      exact (pooled.newBlock empty ⟨multiple, proper, apart⟩).bump empty room
    · rw [if_neg spent]
      exact pooled.bump empty (Nat.not_le.mp spent)

/-- A slot that is given back becomes the first of the list. -/
theorem Pooled.deallocate (pooled : Pooled L s) (live : p ∈ s.live) :
    Pooled L ((memoryMachine L).next s (.deallocate p)) := by
  have mem : p ∈ s.live ++ s.freed := List.mem_append_left _ live
  have proper := pooled.ne_zero mem
  have pointer := L.pointer
  have large := L.align_le_size
  show Pooled L { s.deallocate p with
    live := (s.deallocate p).live.erase p, freed := p :: (s.deallocate p).freed }
  unfold MemoryPool.deallocate
  rw [if_pos proper]
  have same : (s.live.erase p ++ p :: s.freed).Perm (s.live ++ s.freed) :=
    List.perm_middle.trans ((List.perm_cons_erase live).symm.append_right s.freed)
  have notBlock : p ∉ s.blocks := fun inside =>
    pooled.ne_block (a := p) mem inside le_rfl (by omega) rfl
  have notFree : p ∉ s.freed := fun free => by
    have disjoint := List.disjoint_of_nodup_append pooled.nodup
    exact disjoint live free
  refine ⟨pooled.aligned, pooled.blocks, pooled.chained.update notBlock _, pooled.current,
    ?_, ?_, ?_, pooled.free.push notFree proper⟩
  · exact fun q mem => pooled.slots q (same.mem_iff.mp mem)
  · exact fun q mem => pooled.used q (same.mem_iff.mp mem)
  · exact same.nodup_iff.mpr pooled.nodup

/-- What a caller stores in its slots does not reach the pointers of the pool. -/
theorem Pooled.store (pooled : Pooled L s) (live : p ∈ s.live) (low : p ≤ a)
    (high : a + 8 ≤ p + L.size) :
    Pooled L { s with next := Function.update s.next a value } := by
  have mem : p ∈ s.live ++ s.freed := List.mem_append_left _ live
  have pointer := L.pointer
  have large := L.align_le_size
  have notBlock : a ∉ s.blocks := fun inside => pooled.ne_block mem inside low high rfl
  have notFree : a ∉ s.freed := fun free => by
    -- a slot in the list does not overlap the caller's
    have disjoint := List.disjoint_of_nodup_append pooled.nodup
    have differ : p ≠ a := fun here => disjoint live (here ▸ free)
    have apart := pooled.apart mem (List.mem_append_right _ free) differ
    unfold Apart at apart
    omega
  exact ⟨pooled.aligned, pooled.blocks, pooled.chained.update notBlock _, pooled.current,
    pooled.slots, pooled.used, pooled.nodup, pooled.free.update notFree _⟩

end Use

theorem pooled_of_reachable {L : SlotLayout} {s : MemoryPool}
    (reached : (memoryMachine L).Reachable s) : Pooled L s := by
  refine reached.invariant (I := Pooled L) ?_ ?_
  · rintro _ ⟨next, rfl⟩
    exact pooled_new L next
  · intro s a pooled available _
    cases a with
    | allocate block => exact pooled.allocate available
    | deallocate p => exact pooled.deallocate available
    | store p a value => exact pooled.store available.1 available.2.1 available.2.2

/-- However the pool is used, the slots in use are aligned, lie in blocks behind the pointers
there and do not overlap, and the list has the slots that were given back, each once. -/
theorem slots_apart (L : SlotLayout) (s : MemoryPool) (reached : (memoryMachine L).Reachable s) :
    s.live.Pairwise (Apart L.size) ∧
      (∀ p ∈ s.live, L.align ∣ p ∧ ∃ b ∈ s.blocks, b + 8 ≤ p ∧ p + L.size ≤ b + blockSize) ∧
      Linked s.next 0 s.freeSlots s.freed ∧ s.freed.Nodup := by
  have pooled := pooled_of_reachable reached
  have distinct := List.nodup_append.mp pooled.nodup
  refine ⟨?_, ?_, pooled.free, distinct.2.1⟩
  · refine distinct.1.imp_of_mem fun mem mem' differ => ?_
    exact pooled.apart (List.mem_append_left _ mem) (List.mem_append_left _ mem') differ
  · intro p mem
    obtain ⟨b, inside, slot⟩ := pooled.slots p (List.mem_append_left _ mem)
    exact ⟨slot.align_dvd, b, inside, slot.behind, slot.2⟩

/-- A node of two strings. -/
def nodeLayout : SlotLayout where
  size := 64
  align := 8
  positive := by decide
  power := ⟨3, rfl⟩
  pointer := by decide
  divides := by decide
  two := by decide

/-- A slot is written to, given back and given again before the next one of the block. -/
theorem slots_apart_reused :
    let s := (memoryMachine nodeLayout).after (.new fun _ => 1)
      [.allocate 65536, .allocate 0, .store 65552 65552 7, .deallocate 65552, .allocate 0,
        .allocate 0, .deallocate 65616]
    (s.live = [65680, 65552] ∧ s.freed = [65616]) ∧ s.live.Pairwise (Apart nodeLayout.size) ∧
      (∀ p ∈ s.live, nodeLayout.align ∣ p ∧
        ∃ b ∈ s.blocks, b + 8 ≤ p ∧ p + nodeLayout.size ≤ b + blockSize) ∧
      Linked s.next 0 s.freeSlots s.freed ∧ s.freed.Nodup := by
  have starts : (memoryMachine nodeLayout).init (.new fun _ => 1) := ⟨_, rfl⟩
  have follows : (memoryMachine nodeLayout).Follows (fun _ _ => True) (.new fun _ => 1)
      [.allocate 65536, .allocate 0, .store 65552 65552 7, .deallocate 65552, .allocate 0,
        .allocate 0, .deallocate 65616] := by
    decide +kernel
  exact ⟨by decide +kernel,
    slots_apart nodeLayout _ ((Machine.Reaches.start starts).follow follows)⟩

end CoroutineService.Memory
