import Mathlib.Data.Nat.Notation
import Mathlib.Tactic.Linarith

/-!
# Byte order

The members of a socket address are in network byte order. `byteswapOnLittleEndian` turns what
the host reads there into a number, and back.

## Main definitions

* `bswap16`, `bswap32`, `byteswapOnLittleEndian16`, `byteswapOnLittleEndian32`: the functions of
  `endian.h` for two sizes
* `load16`: two bytes of memory, read as a `uint16_t`

## Main results

* `byteswapOnLittleEndian16_self`, `byteswapOnLittleEndian32_self`: swapping twice
* `byteswapOnLittleEndian16_load16`: the number that two bytes stand for in network byte order
-/

set_option autoImplicit false

namespace CoroutineService.Address

/-- The byte order of the host. -/
inductive ByteOrder
  | little | big
  deriving DecidableEq, Repr

/-- `bswap_16`. -/
def bswap16 (x : BitVec 16) : BitVec 16 := x.extractLsb' 0 8 ++ x.extractLsb' 8 8

/-- `bswap_32`. -/
def bswap32 (x : BitVec 32) : BitVec 32 :=
  x.extractLsb' 0 8 ++ x.extractLsb' 8 8 ++ x.extractLsb' 16 8 ++ x.extractLsb' 24 8

/-- `byteswapOnLittleEndian` for a `uint16_t`. -/
def byteswapOnLittleEndian16 : ByteOrder → BitVec 16 → BitVec 16
  | .little, x => bswap16 x
  | .big, x => x

/-- `byteswapOnLittleEndian` for a `uint32_t`. -/
def byteswapOnLittleEndian32 : ByteOrder → BitVec 32 → BitVec 32
  | .little, x => bswap32 x
  | .big, x => x

/-- The bytes `b` and `c`, which follow one another in memory. -/
def load16 (b c : BitVec 8) : ByteOrder → BitVec 16
  | .little => c ++ b
  | .big => b ++ c

theorem getLsbD_bswap16 (x : BitVec 16) {i : ℕ} (bound : i < 16) :
    (bswap16 x).getLsbD i = x.getLsbD (8 * (1 - i / 8) + i % 8) := by
  simp only [bswap16, BitVec.getLsbD_append, BitVec.getLsbD_extractLsb']
  split
  · rw [show 8 * (1 - i / 8) + i % 8 = 8 + i by omega]
    simp [*]
  · rw [show 8 * (1 - i / 8) + i % 8 = 0 + (i - 8) by omega]
    simp [show i - 8 < 8 by omega]

theorem getLsbD_bswap32 (x : BitVec 32) {i : ℕ} (bound : i < 32) :
    (bswap32 x).getLsbD i = x.getLsbD (8 * (3 - i / 8) + i % 8) := by
  simp only [bswap32, BitVec.getLsbD_append, BitVec.getLsbD_extractLsb']
  split
  · rw [show 8 * (3 - i / 8) + i % 8 = 24 + i by omega]
    simp [*]
  · split
    · rw [show 8 * (3 - i / 8) + i % 8 = 16 + (i - 8) by omega]
      simp [*]
    · split
      · rw [show 8 * (3 - i / 8) + i % 8 = 8 + (i - 8 - 8) by omega]
        simp [*]
      · rw [show 8 * (3 - i / 8) + i % 8 = 0 + (i - 8 - 8 - 8) by omega]
        simp [show i - 8 - 8 - 8 < 8 by omega]

theorem bswap16_bswap16 (x : BitVec 16) : bswap16 (bswap16 x) = x := by
  apply BitVec.eq_of_getLsbD_eq
  intro i bound
  rw [getLsbD_bswap16 _ bound, getLsbD_bswap16 _ (by omega)]
  congr 1
  omega

theorem bswap32_bswap32 (x : BitVec 32) : bswap32 (bswap32 x) = x := by
  apply BitVec.eq_of_getLsbD_eq
  intro i bound
  rw [getLsbD_bswap32 _ bound, getLsbD_bswap32 _ (by omega)]
  congr 1
  omega

section

variable (order : ByteOrder)

@[simp]
theorem byteswapOnLittleEndian16_self (x : BitVec 16) :
    byteswapOnLittleEndian16 order (byteswapOnLittleEndian16 order x) = x := by
  cases order with
  | little => exact bswap16_bswap16 x
  | big => rfl

@[simp]
theorem byteswapOnLittleEndian32_self (x : BitVec 32) :
    byteswapOnLittleEndian32 order (byteswapOnLittleEndian32 order x) = x := by
  cases order with
  | little => exact bswap32_bswap32 x
  | big => rfl

/-- Every bit comes from one place, whatever the word. -/
theorem exists_getLsbD_byteswapOnLittleEndian32 : ∃ place : ℕ → ℕ, ∀ i < 32, place i < 32 ∧
    ∀ x, (byteswapOnLittleEndian32 order x).getLsbD i = x.getLsbD (place i) := by
  cases order with
  | little =>
    refine ⟨fun i => 8 * (3 - i / 8) + i % 8, fun i bound => ⟨?_, fun x => getLsbD_bswap32 x bound⟩⟩
    dsimp only
    omega
  | big => exact ⟨id, fun i bound => ⟨bound, fun x => rfl⟩⟩

@[simp]
theorem byteswapOnLittleEndian32_and (x y : BitVec 32) :
    byteswapOnLittleEndian32 order (x &&& y) =
      byteswapOnLittleEndian32 order x &&& byteswapOnLittleEndian32 order y := by
  obtain ⟨place, bits⟩ := exists_getLsbD_byteswapOnLittleEndian32 order
  apply BitVec.eq_of_getLsbD_eq
  intro i bound
  simp only [BitVec.getLsbD_and, (bits i bound).2]

@[simp]
theorem byteswapOnLittleEndian32_or (x y : BitVec 32) :
    byteswapOnLittleEndian32 order (x ||| y) =
      byteswapOnLittleEndian32 order x ||| byteswapOnLittleEndian32 order y := by
  obtain ⟨place, bits⟩ := exists_getLsbD_byteswapOnLittleEndian32 order
  apply BitVec.eq_of_getLsbD_eq
  intro i bound
  simp only [BitVec.getLsbD_or, (bits i bound).2]

@[simp]
theorem byteswapOnLittleEndian32_not (x : BitVec 32) :
    byteswapOnLittleEndian32 order (~~~x) = ~~~byteswapOnLittleEndian32 order x := by
  obtain ⟨place, bits⟩ := exists_getLsbD_byteswapOnLittleEndian32 order
  apply BitVec.eq_of_getLsbD_eq
  intro i bound
  simp only [BitVec.getLsbD_not, (bits i bound).2, bound, (bits i bound).1]

/-- Two bytes in network byte order. -/
@[simp]
theorem byteswapOnLittleEndian16_load16 (b c : BitVec 8) :
    byteswapOnLittleEndian16 order (load16 b c order) = b ++ c := by
  cases order with
  | little =>
    apply BitVec.eq_of_getLsbD_eq
    intro i bound
    simp only [byteswapOnLittleEndian16, load16, getLsbD_bswap16 _ bound, BitVec.getLsbD_append]
    by_cases low : i < 8
    · rw [if_neg (by omega), if_pos low]
      congr 1
      omega
    · rw [if_pos (by omega), if_neg low]
      congr 1
      omega
  | big => rfl

end

end CoroutineService.Address
