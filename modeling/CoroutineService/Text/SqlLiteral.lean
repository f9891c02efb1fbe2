import Mathlib.Data.List.Basic

/-!
# Single-quoted literals

How MySQL reads a string between single quotes: two quotes stand for one, and a
backslash escapes the character that follows it. Text that has to be read back must
not contain either, except in front of `%` and `_`, where the backslash stays.

## Main definitions

* `scanLiteral`: the value of a literal, and what follows its closing quote
* `Plain`: texts that stand for themselves

## Main results

* `scanLiteral_plain`: a plain text between quotes is read back
* `exists_raw_of_scanLiteral`: what has been read is at most as long as its literal, and
  as long only if the literal is plain
-/

set_option autoImplicit false

namespace CoroutineService.Text

/-- The value of `\c`. -/
def unescape : Char → List Char
  | '0' => ['\x00']
  | 'b' => ['\x08']
  | 'n' => ['\n']
  | 'r' => ['\r']
  | 't' => ['\t']
  | 'Z' => ['\x1a']
  | '%' => ['\\', '%']
  | '_' => ['\\', '_']
  | c => [c]

/-- Put these characters in front of the value that has been read. -/
def prepend (cs : List Char) : Option (List Char × List Char) → Option (List Char × List Char)
  | none => none
  | some (value, rest) => some (cs ++ value, rest)

/-- Read a literal behind its opening quote. -/
def scanLiteral : List Char → Option (List Char × List Char)
  | [] => none
  | [c] => if c = '\'' then some ([], []) else none
  | c :: d :: s =>
    if c = '\'' then
      if d = '\'' then prepend ['\''] (scanLiteral s) else some ([], d :: s)
    else if c = '\\' then prepend (unescape d) (scanLiteral s)
    else prepend [c] (scanLiteral (d :: s))

/-- There is no quote, and every backslash stands in front of `%` or `_`. -/
def Plain : List Char → Prop
  | [] => True
  | [c] => c ≠ '\'' ∧ c ≠ '\\'
  | c :: d :: s =>
    if c = '\\' then (d = '%' ∨ d = '_') ∧ Plain s else c ≠ '\'' ∧ Plain (d :: s)

instance decidablePlain : ∀ s, Decidable (Plain s)
  | [] => isTrue trivial
  | [c] => inferInstanceAs (Decidable (c ≠ '\'' ∧ c ≠ '\\'))
  | c :: d :: s =>
    have := decidablePlain s
    have := decidablePlain (d :: s)
    inferInstanceAs (Decidable (if c = '\\' then (d = '%' ∨ d = '_') ∧ Plain s
      else c ≠ '\'' ∧ Plain (d :: s)))

/-- An escape is as long as its value only if it stands for itself. -/
theorem length_unescape (c : Char) :
    (unescape c).length = 1 ∨ (unescape c).length = 2 ∧ (c = '%' ∨ c = '_') ∧
      unescape c = ['\\', c] := by
  unfold unescape
  split
  case h_7 => exact .inr ⟨rfl, .inl rfl, rfl⟩
  case h_8 => exact .inr ⟨rfl, .inr rfl, rfl⟩
  all_goals exact .inl rfl

variable {s value rest : List Char} {c : Char}

/-- The closing quote. -/
theorem scanLiteral_quote (ends : rest.head? ≠ some '\'') :
    scanLiteral ('\'' :: rest) = some ([], rest) := by
  cases rest with
  | nil => rfl
  | cons d s =>
    have other : d ≠ '\'' := fun here => ends (congrArg some here)
    unfold scanLiteral
    rw [if_pos rfl, if_neg other]

/-- A character that is neither a quote nor a backslash stands for itself. -/
theorem scanLiteral_cons (noQuote : c ≠ '\'') (noEscape : c ≠ '\\') :
    scanLiteral (c :: s) = prepend [c] (scanLiteral s) := by
  cases s with
  | nil => exact if_neg noQuote
  | cons d s => rw [scanLiteral, if_neg noQuote, if_neg noEscape]

/-- A plain text between quotes is read back. -/
theorem scanLiteral_plain (plain : Plain s) (ends : rest.head? ≠ some '\'') :
    scanLiteral (s ++ '\'' :: rest) = some (s, rest) := by
  induction s using Plain.induct with
  | case1 => exact scanLiteral_quote ends
  | case2 c =>
    rw [List.singleton_append, scanLiteral_cons plain.1 plain.2, scanLiteral_quote ends]
    rfl
  | case3 d s ih =>
    obtain ⟨keeps, plain⟩ : (d = '%' ∨ d = '_') ∧ Plain s := by
      simpa [Plain] using plain
    have value : unescape d = ['\\', d] := by
      rcases keeps with rfl | rfl <;> rfl
    rw [List.cons_append, List.cons_append, scanLiteral, if_neg (by decide), if_pos rfl,
      ih plain, value]
    rfl
  | case4 c d s noEscape ih =>
    rw [Plain, if_neg noEscape] at plain
    rw [List.cons_append, scanLiteral_cons plain.1 noEscape, ih plain.2]
    rfl

/-- A character that is neither a quote nor a backslash does no harm. -/
theorem plain_cons (noQuote : c ≠ '\'') (noEscape : c ≠ '\\') (plain : Plain s) :
    Plain (c :: s) := by
  cases s with
  | nil => exact ⟨noQuote, noEscape⟩
  | cons d s =>
    unfold Plain
    rw [if_neg noEscape]
    exact ⟨noQuote, plain⟩

theorem exists_of_prepend {cs : List Char} {read : Option (List Char × List Char)}
    (found : prepend cs read = some (value, rest)) :
    ∃ value', read = some (value', rest) ∧ value = cs ++ value' := by
  cases read with
  | none => cases found
  | some p =>
    obtain ⟨rfl, rfl⟩ := Prod.mk.inj (Option.some_inj.mp found)
    exact ⟨p.1, rfl, rfl⟩

/-- What has been read is at most as long as the text between the quotes, and as long
only if that text is plain and stands for itself. -/
theorem exists_raw_of_scanLiteral (found : scanLiteral s = some (value, rest)) :
    ∃ raw, s = raw ++ '\'' :: rest ∧ value.length ≤ raw.length ∧
      (value.length = raw.length → Plain raw ∧ value = raw) := by
  induction s using scanLiteral.induct generalizing value with
  | case1 => cases found
  | case2 =>
    cases found
    exact ⟨[], rfl, Nat.le_refl _, fun _ => ⟨trivial, rfl⟩⟩
  | case3 c other =>
    rw [scanLiteral, if_neg other] at found
    cases found
  | case4 s ih =>
    -- two quotes for one
    obtain ⟨value', found', rfl⟩ := exists_of_prepend found
    obtain ⟨raw, rfl, shorter, -⟩ := ih found'
    refine ⟨'\'' :: '\'' :: raw, rfl, ?_, fun same => ?_⟩
    · simp only [List.singleton_append, List.length_cons]
      omega
    · simp only [List.singleton_append, List.length_cons] at same
      omega
  | case5 d s other =>
    rw [scanLiteral, if_pos rfl, if_neg other] at found
    cases found
    exact ⟨[], rfl, Nat.le_refl _, fun _ => ⟨trivial, rfl⟩⟩
  | case6 d s _ ih =>
    -- An escape gives one character for two, or two that are not what the backslash stands for.
    have found : prepend (unescape d) (scanLiteral s) = some (value, rest) := by
      simpa [scanLiteral] using found
    obtain ⟨value', found', rfl⟩ := exists_of_prepend found
    obtain ⟨raw, rfl, shorter, plain⟩ := ih found'
    refine ⟨'\\' :: d :: raw, rfl, ?_, fun same => ?_⟩
    · rcases length_unescape d with one | ⟨two, -⟩
      · rw [List.length_append, one]
        simp only [List.length_cons]
        omega
      · rw [List.length_append, two]
        simp only [List.length_cons]
        omega
    · rw [List.length_append, List.length_cons, List.length_cons] at same
      rcases length_unescape d with one | ⟨two, keeps, itself⟩
      · omega
      · obtain ⟨plain, rfl⟩ := plain (by omega)
        refine ⟨?_, by rw [itself]; rfl⟩
        unfold Plain
        rw [if_pos rfl]
        exact ⟨keeps, plain⟩
  | case7 c d s noQuote noEscape ih =>
    rw [scanLiteral, if_neg noQuote, if_neg noEscape] at found
    obtain ⟨value', found', rfl⟩ := exists_of_prepend found
    obtain ⟨raw, whole, shorter, plain⟩ := ih found'
    refine ⟨c :: raw, by rw [whole]; rfl, Nat.succ_le_succ shorter, fun same => ?_⟩
    obtain ⟨plain, rfl⟩ := plain (Nat.succ.inj same)
    exact ⟨plain_cons noQuote noEscape plain, rfl⟩

end CoroutineService.Text
