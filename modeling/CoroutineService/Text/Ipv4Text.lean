import CoroutineService.Text.Ipv6Text

/-!
# The text of IPv4 addresses

Four decimal numbers below 256, separated by dots.

## Main definitions

* `decimal`, `octet`: the number that digits stand for, and one that fits into a byte
* `Quad`: the bytes of a text

## Main results

* `Quad.unique`: a text denotes one address
* `quad_toDigits`: bytes, as they are printed
-/

set_option autoImplicit false

namespace CoroutineService.Text

/-- The value of decimal digits. -/
def decimal (s : List Char) : Option ℕ :=
  if !s.isEmpty && s.all Char.isDigit then some (Nat.ofDigitChars 10 s 0) else none

/-- The value of a byte, without zeros in front. -/
def octet (s : List Char) : Option ℕ :=
  if s.head? = some '0' ∧ s ≠ ['0'] then none else (decimal s).filter (· < 256)

/-- The bytes that a text stands for. -/
def Quad (s : List Char) (octets : List ℕ) : Prop :=
  ∃ texts : List (List Char), s = ['.'].intercalate texts ∧
    texts.map octet = octets.map some ∧ octets.length = 4

variable {s : List Char} {octets octets' : List ℕ} {n : ℕ} {c : Char}

theorem digits_of_decimal (value : decimal s = some n) : ∀ c ∈ s, c.isDigit = true := by
  unfold decimal at value
  split at value
  case isTrue digits =>
    rw [Bool.and_eq_true, List.all_eq_true] at digits
    exact digits.2
  case isFalse => cases value

/-- What is printed for a number is read as this number. -/
theorem decimal_toDigits (n : ℕ) : decimal (Nat.toDigits 10 n) = some n := by
  have digits : (Nat.toDigits 10 n).all Char.isDigit = true := by
    rw [List.all_eq_true]
    intro c mem
    exact Nat.isDigit_of_mem_toDigits (by decide) (Nat.le_refl 10) mem
  have some : (!(Nat.toDigits 10 n).isEmpty) = true := by
    rw [Bool.not_eq_true', List.isEmpty_eq_false_iff]
    exact Nat.toDigits_ne_nil
  rw [decimal, some, digits, if_pos (by decide), Nat.ofDigitChars_ten_toDigits]

theorem octet_toDigits (small : n < 256) : octet (Nat.toDigits 10 n) = some n := by
  have plain : ∀ n < 256, ¬((Nat.toDigits 10 n).head? = some '0' ∧ Nat.toDigits 10 n ≠ ['0']) := by
    decide +kernel
  rw [octet, if_neg (plain n small), decimal_toDigits]
  simp [small]

theorem decimal_of_octet (value : octet s = some n) : decimal s = some n := by
  unfold octet at value
  split at value
  case isTrue => cases value
  case isFalse => exact (Option.filter_eq_some_iff.mp value).1

theorem notMem_of_octet (other : c.isDigit = false) (value : octet s = some n) : c ∉ s := by
  intro mem
  have digit := digits_of_decimal (decimal_of_octet value) c mem
  rw [other] at digit
  cases digit

theorem mem_of_mem_intercalate {d : Char} {texts : List (List Char)}
    (mem : c ∈ [d].intercalate texts) : c = d ∨ ∃ s ∈ texts, c ∈ s := by
  induction texts with
  | nil => exact absurd mem List.not_mem_nil
  | cons s texts ih =>
    by_cases last : texts = []
    · subst last
      exact .inr ⟨s, List.mem_singleton_self s, by simpa using mem⟩
    · rw [List.intercalate_cons_of_ne_nil last, List.append_assoc] at mem
      rcases List.mem_append.mp mem with here | later
      · exact .inr ⟨s, List.mem_cons_self, here⟩
      · rcases List.mem_cons.mp later with rfl | later
        · exact .inl rfl
        · exact (ih later).imp_right fun ⟨t, text, mem⟩ => ⟨t, List.mem_cons_of_mem s text, mem⟩

theorem octet_of_mem {texts : List (List Char)} (read : texts.map octet = octets.map some)
    (mem : s ∈ texts) : ∃ n, octet s = some n := by
  have mapped : octet s ∈ octets.map some := read ▸ List.mem_map_of_mem mem
  obtain ⟨n, -, same⟩ := List.mem_map.mp mapped
  exact ⟨n, same.symm⟩

/-- Four bytes, as they are printed. -/
theorem quad_toDigits {a b c d : ℕ} (small : a < 256 ∧ b < 256 ∧ c < 256 ∧ d < 256) :
    Quad (Nat.toDigits 10 a ++ '.' :: (Nat.toDigits 10 b ++ '.' :: (Nat.toDigits 10 c ++
      '.' :: Nat.toDigits 10 d))) [a, b, c, d] := by
  refine ⟨[a, b, c, d].map (Nat.toDigits 10), ?_, ?_, rfl⟩
  · simp [List.intercalate]
  · simp [octet_toDigits small.1, octet_toDigits small.2.1, octet_toDigits small.2.2.1,
      octet_toDigits small.2.2.2]

namespace Quad

/-- A text denotes one address. -/
theorem unique (quad : Quad s octets) (quad' : Quad s octets') : octets = octets' := by
  have fields : ∀ {texts : List (List Char)} {octets : List ℕ}, octets.length = 4 →
      texts.map octet = octets.map some → (['.'].intercalate texts).splitOn '.' = texts := by
    intro texts octets four read
    refine List.splitOn_intercalate '.' (fun s mem => ?_) ?_
    · obtain ⟨n, value⟩ := octet_of_mem read mem
      exact notMem_of_octet rfl value
    · rintro rfl
      rw [List.map_nil, eq_comm, List.map_eq_nil_iff] at read
      rw [read] at four
      cases four
  obtain ⟨texts, rfl, read, four⟩ := quad
  obtain ⟨texts', same, read', four'⟩ := quad'
  have whole := congrArg (List.splitOn '.') same
  rw [fields four read, fields four' read'] at whole
  subst whole
  exact List.map_injective_iff.mpr (Option.some_injective ℕ) (read.symm.trans read')

/-- Texts have digits and dots only. -/
theorem notMem (quad : Quad s octets) (other : c.isDigit = false) (dot : c ≠ '.') : c ∉ s := by
  obtain ⟨texts, rfl, read, -⟩ := quad
  intro mem
  rcases mem_of_mem_intercalate mem with rfl | ⟨s, text, mem⟩
  · exact dot rfl
  · obtain ⟨n, value⟩ := octet_of_mem read text
    exact notMem_of_octet other value mem

end Quad

end CoroutineService.Text
