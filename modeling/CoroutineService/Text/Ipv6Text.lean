import Mathlib.Algebra.Group.Nat.Even
import Mathlib.Data.List.Basic

/-!
# The text of IPv6 addresses

Eight groups of up to four hexadecimal digits, separated by colons. Two colons may stand, once,
for one or more groups of zeros.

## Main definitions

* `group`: the number that a group of digits stands for
* `Denotes`: the addresses of a text

## Main results

* `Denotes.unique`: a text denotes one address
* `group_toDigits`: numbers of sixteen bits, as they are printed
-/

set_option autoImplicit false

namespace CoroutineService.Text

/-- A list is cut at the first occurrence of an element one way. -/
theorem cut_inj {α : Type*} {a : α} {xs ys us vs : List α} (none : a ∉ xs) (none' : a ∉ ys)
    (same : xs ++ a :: us = ys ++ a :: vs) : xs = ys ∧ us = vs := by
  induction xs generalizing ys with
  | nil =>
    cases ys with
    | nil => exact ⟨rfl, (List.cons.inj same).2⟩
    | cons y ys => exact absurd (List.mem_cons.mpr (.inl (List.cons.inj same).1)) none'
  | cons x xs ih =>
    cases ys with
    | nil => exact absurd (List.mem_cons.mpr (.inl (List.cons.inj same).1.symm)) none
    | cons y ys =>
      obtain ⟨rfl, later⟩ := List.cons.inj same
      obtain ⟨rfl, rest⟩ := ih (List.not_mem_of_not_mem_cons none)
        (List.not_mem_of_not_mem_cons none') later
      exact ⟨rfl, rest⟩

/-! ### Groups -/

/-- The value of a hexadecimal digit. -/
def hexDigit (c : Char) : Option ℕ :=
  if c.isDigit then some (c.toNat - 48)
  else if 'a' ≤ c ∧ c ≤ 'f' then some (c.toNat - 87)
  else if 'A' ≤ c ∧ c ≤ 'F' then some (c.toNat - 55)
  else none

/-- The value of hexadecimal digits that follow digits of value `n`. -/
def hexValue : ℕ → List Char → Option ℕ
  | n, [] => some n
  | n, c :: s => (hexDigit c).bind fun digit => hexValue (16 * n + digit) s

/-- The value of a group. -/
def group (s : List Char) : Option ℕ :=
  if 1 ≤ s.length ∧ s.length ≤ 4 then hexValue 0 s else none

/-- Groups with colons in between. -/
def join (texts : List (List Char)) : List Char := [':'].intercalate texts

/-- The groups that a text stands for. -/
inductive Denotes : List Char → List ℕ → Prop
  | full {texts : List (List Char)} {groups : List ℕ} (read : texts.map group = groups.map some)
      (complete : groups.length = 8) : Denotes (join texts) groups
  | compressed {texts texts' : List (List Char)} {groups groups' : List ℕ}
      (read : texts.map group = groups.map some) (read' : texts'.map group = groups'.map some)
      (shorter : groups.length + groups'.length < 8) :
      Denotes (join texts ++ [':', ':'] ++ join texts')
        (groups ++ .replicate (8 - (groups.length + groups'.length)) 0 ++ groups')

variable {s t : List Char} {texts texts' : List (List Char)} {groups groups' : List ℕ} {n m : ℕ}

theorem hexValue_append : hexValue n (s ++ t) = (hexValue n s).bind fun m => hexValue m t := by
  induction s generalizing n with
  | nil => rfl
  | cons c s ih =>
    rw [List.cons_append, hexValue, hexValue, Option.bind_assoc]
    congr 1
    funext digit
    exact ih

/-- Groups consist of digits. -/
theorem notMem_of_hexValue {c : Char} (other : hexDigit c = none) (value : hexValue n s = some m) :
    c ∉ s := by
  induction s generalizing n with
  | nil => exact List.not_mem_nil
  | cons d s ih =>
    rw [hexValue, Option.bind_eq_some_iff] at value
    obtain ⟨digit, first, rest⟩ := value
    rintro (_ | ⟨_, later⟩)
    · cases other.symm.trans first
    · exact ih rest later

theorem notMem_of_group {c : Char} (other : hexDigit c = none) (read : group s = some n) :
    c ∉ s := by
  unfold group at read
  split at read
  · exact notMem_of_hexValue other read
  · cases read

theorem colon_of_group (read : group s = some n) : ':' ∉ s := notMem_of_group rfl read

theorem ne_nil_of_group (read : group s = some n) : s ≠ [] := by
  rintro rfl
  cases read

/-! ### Reading a text -/

theorem read_of_mem (read : texts.map group = groups.map some) (mem : s ∈ texts) :
    ∃ n, group s = some n := by
  have mapped : group s ∈ groups.map some := read ▸ List.mem_map_of_mem mem
  obtain ⟨n, -, same⟩ := List.mem_map.mp mapped
  exact ⟨n, same.symm⟩

theorem length_of_read (read : texts.map group = groups.map some) :
    texts.length = groups.length := by
  simpa using congrArg List.length read

/-- Texts are read one way. -/
theorem groups_unique (read : texts.map group = groups.map some)
    (read' : texts.map group = groups'.map some) : groups = groups' :=
  List.map_injective_iff.mpr (fun _ _ => Option.some_inj.mp) (read.symm.trans read')

/-- The fields between the colons, when there may be nothing at all. -/
def fields (texts : List (List Char)) : List (List Char) := if texts = [] then [[]] else texts

theorem fields_ne_nil : fields texts ≠ [] := by
  unfold fields
  split
  · exact List.cons_ne_nil _ _
  · assumption

theorem join_fields : join (fields texts) = join texts := by
  unfold fields
  split
  case isTrue none =>
    subst none
    rfl
  case isFalse => rfl

theorem join_cons (some : texts ≠ []) : join (s :: texts) = s ++ ':' :: join texts := by
  rw [join, List.intercalate_cons_of_ne_nil some, List.append_assoc]
  rfl

theorem join_append (some : texts ≠ []) (some' : texts' ≠ []) :
    join (texts ++ texts') = join texts ++ ':' :: join texts' := by
  induction texts with
  | nil => exact absurd rfl some
  | cons s texts ih =>
    by_cases last : texts = []
    · subst last
      rw [List.singleton_append, join_cons some']
      simp [join]
    · rw [List.cons_append, join_cons (by simp [last]), join_cons last, ih last]
      simp

@[simp]
theorem join_singleton : join [s] = s := by simp [join]

/-- One more group, behind a colon unless it is the first. -/
theorem join_concat :
    join (texts ++ [s]) = (if texts ≠ [] then join texts ++ [':'] else join texts) ++ s := by
  split
  case isTrue some =>
    rw [join_append some (List.cons_ne_nil _ _), join_singleton]
    simp
  case isFalse first =>
    obtain rfl := not_not.mp first
    exact join_singleton

theorem mem_of_mem_join {c : Char} (mem : c ∈ join texts) : c = ':' ∨ ∃ s ∈ texts, c ∈ s := by
  induction texts with
  | nil => exact absurd mem List.not_mem_nil
  | cons s texts ih =>
    by_cases last : texts = []
    · subst last
      exact .inr ⟨s, List.mem_singleton_self s, by simpa using mem⟩
    · rw [join_cons last] at mem
      rcases List.mem_append.mp mem with here | later
      · exact .inr ⟨s, List.mem_cons_self, here⟩
      · rcases List.mem_cons.mp later with rfl | later
        · exact .inl rfl
        · exact (ih later).imp_right fun ⟨t, text, mem⟩ => ⟨t, List.mem_cons_of_mem s text, mem⟩

/-- Two colons stand around an empty field. -/
theorem join_compressed : join texts ++ [':', ':'] ++ join texts' =
    join (fields texts ++ [] :: fields texts') := by
  rw [join_append fields_ne_nil (List.cons_ne_nil _ _), join_cons fields_ne_nil, join_fields,
    join_fields]
  simp

theorem splitOn_join (some : texts ≠ []) (read : ∀ s ∈ texts, ':' ∉ s) :
    (join texts).splitOn ':' = texts :=
  List.splitOn_intercalate ':' read some

theorem colon_of_fields (read : texts.map group = groups.map some) :
    ∀ s ∈ fields texts, ':' ∉ s := by
  intro s mem
  unfold fields at mem
  split at mem
  · obtain rfl := List.mem_singleton.mp mem
    exact List.not_mem_nil
  · obtain ⟨n, value⟩ := read_of_mem read mem
    exact colon_of_group value

theorem nil_notMem (read : texts.map group = groups.map some) : [] ∉ texts := by
  intro mem
  obtain ⟨n, value⟩ := read_of_mem read mem
  exact ne_nil_of_group value rfl

theorem splitOn_compressed (read : texts.map group = groups.map some)
    (read' : texts'.map group = groups'.map some) :
    (join texts ++ [':', ':'] ++ join texts').splitOn ':' =
      fields texts ++ [] :: fields texts' := by
  rw [join_compressed]
  refine splitOn_join (by simp) fun s mem => ?_
  rcases List.mem_append.mp mem with before | after
  · exact colon_of_fields read s before
  · rcases List.mem_cons.mp after with rfl | after
    · exact List.not_mem_nil
    · exact colon_of_fields read' s after

/-- Fields without an empty one among them determine the groups. -/
theorem fields_inj (none : [] ∉ texts) (none' : [] ∉ texts') (same : fields texts = fields texts') :
    texts = texts' := by
  unfold fields at same
  split at same
  case isTrue empty =>
    split at same
    case isTrue empty' => rw [empty, empty']
    case isFalse => exact absurd (same ▸ List.mem_singleton_self _) none'
  case isFalse =>
    split at same
    case isTrue => exact absurd (same ▸ List.mem_singleton_self _) none
    case isFalse => exact same

/-- The fields in front of the first empty one, and those behind it. -/
theorem compressed_inj {before before' after after' : List (List Char)} (none : [] ∉ before)
    (none' : [] ∉ before')
    (same : fields before ++ [] :: fields after = fields before' ++ [] :: fields after') :
    before = before' ∧ fields after = fields after' := by
  unfold fields at same
  by_cases empty : before = []
  · by_cases empty' : before' = []
    · rw [if_pos empty, if_pos empty'] at same
      exact ⟨empty.trans empty'.symm, (List.cons.inj (List.cons.inj same).2).2⟩
    · rw [if_pos empty, if_neg empty'] at same
      obtain ⟨s, rest, rfl⟩ := List.exists_cons_of_ne_nil empty'
      exact absurd (List.mem_cons.mpr (.inl (List.cons.inj same).1)) none'
  · by_cases empty' : before' = []
    · rw [if_neg empty, if_pos empty'] at same
      obtain ⟨s, rest, rfl⟩ := List.exists_cons_of_ne_nil empty
      exact absurd (List.mem_cons.mpr (.inl (List.cons.inj same).1.symm)) none
    · rw [if_neg empty, if_neg empty'] at same
      exact cut_inj none none' same

namespace Denotes

/-- A text has eight fields, all of them groups, or it is cut at its first empty field. -/
theorem splitOn (denotes : Denotes s groups) :
    ((s.splitOn ':').map group = groups.map some ∧ groups.length = 8) ∨
      ∃ texts texts' : List (List Char), ∃ before after : List ℕ,
        s.splitOn ':' = fields texts ++ [] :: fields texts' ∧
          texts.map group = before.map some ∧ texts'.map group = after.map some ∧
            groups = before ++ .replicate (8 - (before.length + after.length)) 0 ++ after := by
  cases denotes with
  | @full texts _ read complete =>
    have some : texts ≠ [] := by
      rintro rfl
      have length := length_of_read read
      rw [complete] at length
      exact absurd length nofun
    refine .inl ⟨?_, complete⟩
    rw [splitOn_join some fun s mem => ?_]
    · exact read
    · obtain ⟨n, value⟩ := read_of_mem read mem
      exact colon_of_group value
  | compressed read read' shorter =>
    exact .inr ⟨_, _, _, _, splitOn_compressed read read', read, read', rfl⟩

/-- A text denotes one address. -/
theorem unique (denotes : Denotes s groups) (denotes' : Denotes s groups') : groups = groups' := by
  -- a text whose fields are all groups has no empty field
  have apart {groups : List ℕ} {texts texts' : List (List Char)}
      (read : (s.splitOn ':').map group = groups.map some)
      (cut : s.splitOn ':' = fields texts ++ [] :: fields texts') : False := by
    rw [cut] at read
    exact nil_notMem read (by simp)
  rcases denotes.splitOn with ⟨read, -⟩ | ⟨texts, texts', before, after, cut, first, last, rfl⟩
  · rcases denotes'.splitOn with ⟨read', -⟩ | ⟨_, _, _, _, cut, -⟩
    · exact groups_unique read read'
    · exact (apart read cut).elim
  · rcases denotes'.splitOn with ⟨read', -⟩ | ⟨_, _, _, _, cut', first', last', rfl⟩
    · exact (apart read' cut).elim
    · obtain ⟨rfl, same⟩ :=
        compressed_inj (nil_notMem first) (nil_notMem first') (cut.symm.trans cut')
      obtain rfl := fields_inj (nil_notMem last) (nil_notMem last') same
      rw [groups_unique first first', groups_unique last last']

theorem length (denotes : Denotes s groups) : groups.length = 8 := by
  cases denotes with
  | full _ complete => exact complete
  | compressed _ _ shorter =>
    simp only [List.length_append, List.length_replicate]
    omega

/-- A text has a colon. -/
theorem colon_mem (denotes : Denotes s groups) : ':' ∈ s := by
  cases denotes with
  | @full texts _ read complete =>
    have eight : texts.length = 8 := (length_of_read read).trans complete
    cases texts with
    | nil => cases eight
    | cons t texts =>
      have more : texts ≠ [] := by
        rintro rfl
        cases eight
      rw [join_cons more]
      exact List.mem_append_right t List.mem_cons_self
  | compressed => simp

/-- Texts have digits and colons only. -/
theorem notMem {c : Char} (denotes : Denotes s groups) (other : hexDigit c = none)
    (colon : c ≠ ':') : c ∉ s := by
  have joined {texts : List (List Char)} {groups : List ℕ}
      (read : texts.map group = groups.map some) : c ∉ join texts := fun mem => by
    rcases mem_of_mem_join mem with rfl | ⟨s, text, mem⟩
    · exact colon rfl
    · obtain ⟨n, value⟩ := read_of_mem read text
      exact notMem_of_group other value mem
  cases denotes with
  | full read _ => exact joined read
  | compressed read read' _ => simp [joined read, joined read', colon]

end Denotes

/-! ### Printing a group -/

theorem hexDigit_digitChar : ∀ n < 16, hexDigit n.digitChar = some n := by
  decide

theorem hexValue_toDigits (n : ℕ) : hexValue 0 (Nat.toDigits 16 n) = some n := by
  induction n using Nat.strongRecOn with
  | ind n ih =>
    rw [Nat.toDigits_eq_if (by decide)]
    split
    case isTrue small =>
      simp [hexValue, hexDigit_digitChar n small]
    case isFalse large =>
      rw [hexValue_append, ih (n / 16) (by omega)]
      have digit := hexDigit_digitChar (n % 16) (Nat.mod_lt _ (by decide))
      simp [hexValue, digit]
      omega

/-- A number of sixteen bits is printed as a group. -/
theorem group_toDigits (small : n < 2 ^ 16) : group (Nat.toDigits 16 n) = some n := by
  rw [group, if_pos, hexValue_toDigits]
  have base : 1 < 16 := by omega
  exact ⟨Nat.length_toDigits_pos, (Nat.length_toDigits_le_iff base (by omega)).mpr small⟩

end CoroutineService.Text
