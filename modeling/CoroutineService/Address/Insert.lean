import CoroutineService.Address.Prefix
import CoroutineService.Text.Ipv6Text

/-!
# Printing IPv6 addresses

`IPv6Address::insert` leaves out the first run of zero groups, which it finds in one pass: zeros
are skipped until a group follows them, and two colons are written then, or at the end.

## Main definitions

* `IPv6.insert`: what is written to a stream
* `Reads`: the address and the port that a text stands for

## Main results

* `IPv6.denotes_insertGroups`: the text between the brackets denotes the address
* `reads_insert`: the address and the port can be read back
-/

set_option autoImplicit false

namespace CoroutineService.Address

open CoroutineService.Text

namespace IPv6

/-! ### The stream -/

/-- The stream and the flag `used_zeros`. -/
structure Printing where
  os : List Char
  usedZeros : Bool

section

variable (order : ByteOrder) (bytes : Vector (BitVec 8) 16)

/-- `addr[i]`. -/
def word (i : Fin 8) : BitVec 16 := load16 bytes[2 * i.val] bytes[2 * i.val + 1] order

/-- One iteration of the loop of `insert`. -/
def insertStep (i : Fin 8) (s : Printing) : Printing :=
  if word order bytes i = 0 ∧ s.usedZeros = false then s
  else
    let s :=
      if i.val ≠ 0 ∧ word order bytes ⟨i.val - 1, by omega⟩ = 0 ∧ s.usedZeros = false then
        ⟨s.os ++ [':'], true⟩
      else s
    let os := if i.val ≠ 0 then s.os ++ [':'] else s.os
    { s with
      os := os ++ Nat.toDigits 16 (byteswapOnLittleEndian16 order (word order bytes i)).toNat }

/-- The first iterations of the loop. -/
def insertLoop : (n : ℕ) → n < 9 → Printing
  | 0, _ => ⟨[], false⟩
  | i + 1, bound =>
    insertStep order bytes ⟨i, Nat.lt_of_succ_lt_succ bound⟩
      (insertLoop i (Nat.lt_of_succ_lt bound))

/-- What is written between the brackets. -/
def insertGroups : List Char :=
  let s := insertLoop order bytes 8 (Nat.lt_succ_self 8)
  if s.usedZeros = false ∧ word order bytes 7 = 0 then s.os ++ [':', ':'] else s.os

/-- `IPv6Address::insert`, for a stream with the flags it is created with. -/
def insert (addr : SockaddrIn6) : List Char :=
  '[' :: insertGroups order addr.s6Addr ++ ']' :: ':' ::
    Nat.toDigits 10 (byteswapOnLittleEndian16 order addr.sin6Port).toNat

/-- `IPv6Address(address, port)`. -/
def create (port : BitVec 16) : SockaddrIn6 :=
  ⟨afInet6, byteswapOnLittleEndian16 order port, bytes⟩

end

/-! ### The groups of an address -/

/-- A group, in network byte order. -/
def groupAt (bytes : Vector (BitVec 8) 16) (i : Fin 8) : ℕ :=
  (bytes[2 * i.val] ++ bytes[2 * i.val + 1]).toNat

/-- The groups of an address. -/
def groups (bytes : Vector (BitVec 8) 16) : List ℕ := .ofFn (groupAt bytes)

variable {order : ByteOrder} {bytes bytes' : Vector (BitVec 8) 16}

/-- A group is the number that is printed for it. -/
theorem toNat_word (i : Fin 8) :
    (byteswapOnLittleEndian16 order (word order bytes i)).toNat = groupAt bytes i := by
  rw [word, byteswapOnLittleEndian16_load16, groupAt]

theorem word_eq_zero_iff (i : Fin 8) : word order bytes i = 0 ↔ groupAt bytes i = 0 := by
  rw [← toNat_word i]
  constructor
  · intro zero
    rw [zero]
    cases order <;> rfl
  · intro zero
    have swapped : byteswapOnLittleEndian16 order (word order bytes i) = 0 :=
      BitVec.eq_of_toNat_eq zero
    rw [← byteswapOnLittleEndian16_self order (word order bytes i), swapped]
    cases order <;> rfl

theorem groupAt_lt (bytes : Vector (BitVec 8) 16) (i : Fin 8) : groupAt bytes i < 2 ^ 16 :=
  BitVec.isLt _

theorem take_groups (bytes : Vector (BitVec 8) 16) (i : Fin 8) :
    (groups bytes).take (i + 1) = (groups bytes).take i ++ [groupAt bytes i] := by
  rw [List.take_add_one, groups, List.getElem?_ofFn, dif_pos i.isLt]
  rfl

theorem length_take_groups (bytes : Vector (BitVec 8) 16) {n : ℕ} (bound : n ≤ 8) :
    ((groups bytes).take n).length = n := by
  rw [List.length_take, groups, List.length_ofFn]
  exact Nat.min_eq_left bound

theorem append_inj {b b' c c' : BitVec 8} (same : b ++ c = b' ++ c') : b = b' ∧ c = c' := by
  have bit (i : ℕ) : (b ++ c).getLsbD i = (b' ++ c').getLsbD i := by rw [same]
  simp only [BitVec.getLsbD_append] at bit
  constructor
  · apply BitVec.eq_of_getLsbD_eq
    intro i _
    simpa using bit (i + 8)
  · apply BitVec.eq_of_getLsbD_eq
    intro i small
    simpa [small] using bit i

/-- An address is determined by its groups. -/
theorem groups_injective : Function.Injective groups := by
  intro bytes bytes' same
  have words (i : Fin 8) : bytes[2 * i.val] = bytes'[2 * i.val] ∧
      bytes[2 * i.val + 1] = bytes'[2 * i.val + 1] :=
    append_inj (BitVec.eq_of_toNat_eq (congrFun (List.ofFn_injective same) i))
  apply Vector.ext
  intro k bound
  obtain ⟨even, odd⟩ := words ⟨k / 2, by omega⟩
  rcases Nat.mod_two_eq_zero_or_one k with parity | parity
  · have place : 2 * (k / 2) = k := by omega
    simpa [place] using even
  · have place : 2 * (k / 2) + 1 = k := by omega
    simpa [place] using odd

/-! ### The loop -/

/-- What has been written for the first groups: those in front of the first run of zeros, and,
when a group has followed it, two colons and the groups from there. -/
inductive Printed : Printing → List ℕ → Prop
  | skipping {texts : List (List Char)} {before : List ℕ} {zeros : ℕ}
      (read : texts.map group = before.map some) (nonzero : ∀ g ∈ before, g ≠ 0) :
      Printed ⟨join texts, false⟩ (before ++ .replicate zeros 0)
  | compressed {texts texts' : List (List Char)} {before after : List ℕ} {zeros : ℕ}
      (read : texts.map group = before.map some) (read' : texts'.map group = after.map some)
      (some : 0 < zeros) (some' : texts' ≠ []) :
      Printed ⟨join texts ++ [':', ':'] ++ join texts', true⟩
        (before ++ .replicate zeros 0 ++ after)

theorem map_group_append {texts : List (List Char)} {text : List Char} {before : List ℕ} {g : ℕ}
    (read : texts.map group = before.map some) (value : group text = some g) :
    (texts ++ [text]).map group = (before ++ [g]).map some := by
  simp [read, value]

/-- The groups end in zeros if some have been skipped. -/
theorem getLast?_skipping {before : List ℕ} (zeros : ℕ) (nonzero : ∀ g ∈ before, g ≠ 0) :
    (before ++ .replicate zeros 0).getLast? = some 0 ↔ 0 < zeros := by
  cases zeros with
  | zero =>
    rw [List.replicate_zero, List.append_nil]
    constructor
    · intro last
      exact absurd rfl (nonzero 0 (List.mem_of_getLast? last))
    · exact fun positive => absurd positive (Nat.lt_irrefl 0)
  | succ zeros => simp [List.replicate_succ']

theorem getLast?_take (i : Fin 8) (positive : i.val ≠ 0) :
    ((groups bytes).take i).getLast? = some (groupAt bytes ⟨i.val - 1, by omega⟩) := by
  have last := take_groups bytes ⟨i.val - 1, by omega⟩
  rw [show i.val - 1 + 1 = i.val by omega] at last
  rw [last]
  simp

/-- A zero is skipped until two colons have been written. -/
theorem insertStep_skip {i : Fin 8} {s : Printing} (zero : groupAt bytes i = 0)
    (unused : s.usedZeros = false) : insertStep order bytes i s = s :=
  if_pos ⟨word_eq_zero_iff i |>.mpr zero, unused⟩

/-- The first group that follows zeros. -/
theorem insertStep_zeros {i : Fin 8} {s : Printing} (nonzero : groupAt bytes i ≠ 0)
    (zeros : ((groups bytes).take i).getLast? = some 0) (unused : s.usedZeros = false) :
    insertStep order bytes i s =
      ⟨s.os ++ [':', ':'] ++ Nat.toDigits 16 (groupAt bytes i), true⟩ := by
  have positive : i.val ≠ 0 := fun first => by simp [first] at zeros
  have last : word order bytes ⟨i.val - 1, by omega⟩ = 0 := by
    rw [getLast?_take i positive] at zeros
    exact (word_eq_zero_iff _).mpr (Option.some_inj.mp zeros)
  rw [insertStep, if_neg fun skipped => nonzero ((word_eq_zero_iff i).mp skipped.1)]
  simp [positive, last, unused, toNat_word]

/-- Any other group. -/
theorem insertStep_group {i : Fin 8} {s : Printing}
    (written : groupAt bytes i ≠ 0 ∨ s.usedZeros = true)
    (other : ((groups bytes).take i).getLast? ≠ some 0 ∨ s.usedZeros = true) :
    insertStep order bytes i s =
      ⟨(if i.val ≠ 0 then s.os ++ [':'] else s.os) ++ Nat.toDigits 16 (groupAt bytes i),
        s.usedZeros⟩ := by
  have kept : ¬(word order bytes i = 0 ∧ s.usedZeros = false) := by
    rintro ⟨zero, unused⟩
    rcases written with nonzero | used
    · exact nonzero ((word_eq_zero_iff i).mp zero)
    · exact absurd (unused.symm.trans used) nofun
  have alone : ¬(i.val ≠ 0 ∧ word order bytes ⟨i.val - 1, by omega⟩ = 0 ∧ s.usedZeros = false) := by
    rintro ⟨positive, zero, unused⟩
    rcases other with nonzero | used
    · rw [getLast?_take i positive, (word_eq_zero_iff _).mp zero] at nonzero
      exact nonzero rfl
    · exact absurd (unused.symm.trans used) nofun
  rw [insertStep, if_neg kept, if_neg alone, toNat_word]

theorem Printed.next {i : Fin 8} {s : Printing} (printed : Printed s ((groups bytes).take i)) :
    Printed (insertStep order bytes i s) ((groups bytes).take (i + 1)) := by
  have length := length_take_groups bytes i.isLt.le
  have printed_group := group_toDigits (groupAt_lt bytes i)
  rw [take_groups]
  generalize taken : (groups bytes).take i = gs at printed length
  cases printed with
  | @skipping texts before zeros read nonzero =>
    have last := getLast?_skipping zeros nonzero
    by_cases zero : groupAt bytes i = 0
    · rw [insertStep_skip zero rfl, zero, List.append_assoc, ← List.replicate_succ']
      exact .skipping read nonzero
    · by_cases some : 0 < zeros
      · rw [insertStep_zeros zero (taken ▸ last.mpr some) rfl]
        have alone : [Nat.toDigits 16 (groupAt bytes i)].map group = [groupAt bytes i].map .some :=
          by simp [printed_group]
        have now := Printed.compressed read alone some (List.cons_ne_nil _ _)
        rwa [join_singleton] at now
      · rw [insertStep_group (.inl zero) (.inl (taken ▸ mt last.mp some))]
        obtain rfl : zeros = 0 := Nat.eq_zero_of_not_pos some
        have nonzero' : ∀ g ∈ before ++ [groupAt bytes i], g ≠ 0 := by
          intro g mem
          rcases List.mem_append.mp mem with earlier | last
          · exact nonzero g earlier
          · exact List.mem_singleton.mp last ▸ zero
        have now : Printed ⟨join (texts ++ [Nat.toDigits 16 (groupAt bytes i)]), false⟩
            (before ++ [groupAt bytes i] ++ .replicate 0 0) :=
          .skipping (map_group_append read printed_group) nonzero'
        rw [List.replicate_zero, List.append_nil] at now ⊢
        have first : i.val ≠ 0 ↔ texts ≠ [] := by
          rw [← length, List.replicate_zero, List.append_nil, ← length_of_read read]
          exact List.length_eq_zero_iff.not
        rw [join_concat] at now
        simpa only [first] using now
  | @compressed texts texts' before after zeros read read' some some' =>
    rw [insertStep_group (.inr rfl) (.inr rfl)]
    have positive : i.val ≠ 0 := by
      rw [← length]
      simp
      omega
    have now := Printed.compressed read (map_group_append read' printed_group) some (by simp)
    rw [join_concat, if_pos some'] at now
    simpa [positive] using now

theorem printed_insertLoop (order : ByteOrder) (bytes : Vector (BitVec 8) 16) {n : ℕ}
    (bound : n < 9) : Printed (insertLoop order bytes n bound) ((groups bytes).take n) := by
  induction n with
  | zero =>
    have nothing : Printed ⟨join [], false⟩ ([] ++ .replicate 0 0) := .skipping rfl nofun
    exact nothing
  | succ n ih =>
    have so_far : Printed _ ((groups bytes).take (⟨n, Nat.lt_of_succ_lt_succ bound⟩ : Fin 8)) :=
      ih (Nat.lt_of_succ_lt bound)
    exact so_far.next

/-- The text between the brackets denotes the address. -/
theorem denotes_insertGroups (order : ByteOrder) (bytes : Vector (BitVec 8) 16) :
    Denotes (insertGroups order bytes) (groups bytes) := by
  have printed := printed_insertLoop order bytes (Nat.lt_succ_self 8)
  have length := length_take_groups bytes (Nat.le_refl 8)
  have last : ((groups bytes).take ((7 : Fin 8).val + 1)).getLast? = some (groupAt bytes 7) := by
    rw [take_groups]
    simp
  have all : (groups bytes).take 8 = groups bytes :=
    List.take_of_length_le (by simp [groups])
  unfold insertGroups
  simp only [word_eq_zero_iff]
  rw [all] at printed length
  rw [show (7 : Fin 8).val + 1 = 8 from rfl, all] at last
  generalize insertLoop order bytes 8 (Nat.lt_succ_self 8) = s at printed
  generalize groups bytes = gs at printed length last
  cases printed with
  | @skipping texts before zeros read nonzero =>
    have ends := getLast?_skipping zeros nonzero
    rw [last, Option.some_inj] at ends
    rw [List.length_append, List.length_replicate] at length
    by_cases some : 0 < zeros
    · rw [if_pos ⟨rfl, ends.mpr some⟩]
      have compressed : Denotes (join texts ++ [':', ':'] ++ join [])
          (before ++ .replicate (8 - (before.length + 0)) 0 ++ []) :=
        @Denotes.compressed texts [] before [] read rfl (show before.length + 0 < 8 by omega)
      have zeros_eq : zeros = 8 - (before.length + 0) := by omega
      rw [zeros_eq]
      simpa [join] using compressed
    · obtain rfl : zeros = 0 := Nat.eq_zero_of_not_pos some
      rw [if_neg fun skipped => some (ends.mp skipped.2), List.replicate_zero, List.append_nil]
      exact .full read (by simpa using length)
  | @compressed texts texts' before after zeros read read' some some' =>
    rw [if_neg fun unused => Bool.noConfusion unused.1]
    simp only [List.length_append, List.length_replicate] at length
    have zeros_eq : zeros = 8 - (before.length + after.length) := by omega
    rw [zeros_eq]
    exact .compressed read read' (by omega)

end IPv6

/-! ### Reading it back -/

/-- `s` is an address between brackets, and a port in decimal digits behind a colon. -/
def Reads (s : List Char) (bytes : Vector (BitVec 8) 16) (port : BitVec 16) : Prop :=
  ∃ text digits : List Char, s = '[' :: text ++ ']' :: ':' :: digits ∧
    Denotes text (IPv6.groups bytes) ∧ digits ≠ [] ∧ (∀ c ∈ digits, c.isDigit = true) ∧
      Nat.ofDigitChars 10 digits 0 = port.toNat

namespace Reads

variable {s : List Char} {bytes bytes' : Vector (BitVec 8) 16} {port port' : BitVec 16}

/-- A text stands for one address and one port. -/
theorem unique (reads : Reads s bytes port) (reads' : Reads s bytes' port') :
    bytes = bytes' ∧ port = port' := by
  obtain ⟨text, digits, rfl, denotes, -, -, value⟩ := reads
  obtain ⟨text', digits', same, denotes', -, -, value'⟩ := reads'
  have bracket : ']' ∉ text := denotes.notMem rfl (by decide)
  have bracket' : ']' ∉ text' := denotes'.notMem rfl (by decide)
  obtain ⟨rfl, rest⟩ := cut_inj bracket bracket' (List.cons.inj same).2
  obtain ⟨-, rfl⟩ := List.cons.inj rest
  exact ⟨IPv6.groups_injective (denotes.unique denotes'),
    BitVec.eq_of_toNat_eq (value.symm.trans value')⟩

end Reads

theorem reads_insert (order : ByteOrder) (bytes : Vector (BitVec 8) 16) (port : BitVec 16) :
    Reads (IPv6.insert order (IPv6.create order bytes port)) bytes port := by
  refine ⟨_, _, rfl, IPv6.denotes_insertGroups order bytes, Nat.toDigits_ne_nil, ?_, ?_⟩
  · intro c digit
    exact Nat.isDigit_of_mem_toDigits (by decide) (Nat.le_refl 10) digit
  · rw [Nat.ofDigitChars_ten_toDigits, IPv6.create, byteswapOnLittleEndian16_self]

/-- What is written for an address and a port is read as this address and this port, and as no
others; and so all of them are written differently. -/
theorem insert_decodable (order : ByteOrder) :
    (∀ bytes bytes' port port',
      Reads (IPv6.insert order (IPv6.create order bytes port)) bytes' port' ↔
        bytes' = bytes ∧ port' = port) ∧
    Function.Injective fun addr : Vector (BitVec 8) 16 × BitVec 16 =>
      IPv6.insert order (IPv6.create order addr.1 addr.2) := by
  constructor
  · intro bytes bytes' port port'
    have reads := reads_insert order bytes port
    constructor
    · intro reads'
      exact reads'.unique reads
    · rintro ⟨rfl, rfl⟩
      exact reads
  · rintro ⟨bytes, port⟩ ⟨bytes', port'⟩ same
    have reads := reads_insert order bytes port
    rw [show IPv6.insert order _ = _ from same] at reads
    obtain ⟨rfl, rfl⟩ := reads.unique (reads_insert order bytes' port')
    rfl

/-- Only the first run of zeros is left out. -/
example : IPv6.insert .little (IPv6.create .little
      ⟨#[0x20, 1, 0, 0, 0, 0, 0xab, 0, 0, 0, 0, 0, 0, 0, 0, 0], rfl⟩ 80) =
    "[2001::ab00:0:0:0:0]:80".toList := by
  decide

end CoroutineService.Address
