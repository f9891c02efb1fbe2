import CoroutineService.Http.DoRequest
import CoroutineService.Text.SqlLiteral

/-!
# The statement of a registration

The text in `sql_insert` is the name and the password between quotes. The database reads
it back as one statement with two literals. It gets the name and the password if they are
plain; otherwise something in them is taken for a part of the statement.

## Main definitions

* `readInsert`: the two literals of a text that is the `INSERT` statement

## Main results

* `readInsert_eq_iff`: the names and passwords that are read back
* `not_readInsert`: a name with a quote
-/

set_option autoImplicit false

namespace CoroutineService.Http

open CString CoroutineService.Text

/-- A token of one character, with the blanks in front of it. -/
def expect (c : Char) (s : List Char) : Option (List Char) :=
  match s.dropWhile isSpace with
  | [] => none
  | d :: rest => if d = c then some rest else none

/-- A literal, with the blanks in front of it. -/
def literal (s : List Char) : Option (List Char × List Char) :=
  (expect '\'' s).bind scanLiteral

/-- The values of a text that is `INSERT INTO user(username, passwd) VALUES(`, two
literals with a comma between them, and `)`. -/
def readInsert (sql : List Char) : Option (List Char × List Char) := do
  let s ← sql.dropPrefix? "INSERT INTO user(username, passwd) VALUES(".toList
  let (name, s) ← literal s
  let s ← expect ',' s
  let (password, s) ← literal s
  let s ← expect ')' s
  if s.all isSpace then some (name, password) else none

variable {s rest name password value sql : List Char} {c : Char}

theorem expect_cons (visible : isSpace c = false) : expect c (c :: s) = some s := by
  unfold expect
  rw [List.dropWhile_cons, if_neg (by simp [visible])]
  exact if_pos rfl

theorem expect_blank (blank : isSpace c = true) (d : Char) : expect d (c :: s) = expect d s := by
  unfold expect
  rw [List.dropWhile_cons, if_pos blank]

/-- A token that has been read stands behind blanks. -/
theorem exists_of_expect (found : expect c s = some rest) :
    ∃ gap : List Char, (∀ d ∈ gap, isSpace d = true) ∧ s = gap ++ c :: rest := by
  refine ⟨s.takeWhile isSpace, fun d mem => List.mem_takeWhile_imp mem, ?_⟩
  nth_rewrite 1 [← List.takeWhile_append_dropWhile (p := isSpace) (l := s)]
  unfold expect at found
  split at found
  case h_1 => cases found
  case h_2 d rest' tail =>
    split at found
    case isTrue here => rw [tail, here, Option.some_inj.mp found]
    case isFalse => cases found

/-- A literal that has been read stands behind blanks, and between quotes. -/
theorem exists_of_literal (found : literal s = some (value, rest)) :
    ∃ gap raw : List Char, (∀ d ∈ gap, isSpace d = true) ∧
      s = gap ++ '\'' :: (raw ++ '\'' :: rest) ∧ value.length ≤ raw.length ∧
      (value.length = raw.length → Plain raw ∧ value = raw) := by
  obtain ⟨behind, opened, scanned⟩ := Option.bind_eq_some_iff.mp found
  obtain ⟨gap, blank, rfl⟩ := exists_of_expect opened
  obtain ⟨raw, rfl, shorter, plain⟩ := exists_raw_of_scanLiteral scanned
  exact ⟨gap, raw, blank, rfl, shorter, plain⟩

theorem literal_plain (plain : Plain s) (ends : rest.head? ≠ some '\'') :
    literal ('\'' :: (s ++ '\'' :: rest)) = some (s, rest) := by
  unfold literal
  rw [expect_cons rfl, Option.bind_some, scanLiteral_plain plain ends]

/-- The statement behind the opening parenthesis. -/
def readValues (s : List Char) : Option (List Char × List Char) := do
  let (name, s) ← literal s
  let s ← expect ',' s
  let (password, s) ← literal s
  let s ← expect ')' s
  if s.all isSpace then some (name, password) else none

/-- What stands behind it. -/
def valuesText (name password : List Char) : List Char :=
  '\'' :: (name ++ '\'' :: ',' :: ' ' :: '\'' :: (password ++ '\'' :: [')']))

theorem readInsert_insertText (name password : List Char) :
    readInsert (insertText name password) = readValues (valuesText name password) := by
  have stripped : (insertText name password).dropPrefix?
      "INSERT INTO user(username, passwd) VALUES(".toList = some (valuesText name password) :=
    List.dropPrefix?_append_of_beq _ (beq_self_eq_true _)
  unfold readInsert
  rw [stripped]
  rfl

/-- Plain names and passwords are read back. -/
theorem readValues_of_plain (plainName : Plain name) (plainPassword : Plain password) :
    readValues (valuesText name password) = some (name, password) := by
  have first : literal (valuesText name password) =
      some (name, ',' :: ' ' :: '\'' :: (password ++ '\'' :: [')'])) :=
    literal_plain plainName (by simp)
  have second : literal (' ' :: '\'' :: (password ++ '\'' :: [')'])) = some (password, [')']) := by
    unfold literal
    rw [expect_blank rfl]
    exact literal_plain plainPassword (by simp)
  have comma : ∀ s, expect ',' (',' :: s) = some s := fun _ => expect_cons rfl
  have closing : ∀ s, expect ')' (')' :: s) = some s := fun _ => expect_cons rfl
  unfold readValues
  simp only [first, comma, second, closing, Option.bind_eq_bind, Option.bind_some]
  exact if_pos rfl

/-- What has been read as the statement is two literals with blanks in between. -/
theorem exists_of_readValues (found : readValues s = some (name, password)) :
    ∃ gap₁ raw₁ gap₂ gap₃ raw₂ gap₄ gap₅ : List Char,
      (∀ d ∈ gap₁, isSpace d = true) ∧
      s = gap₁ ++ '\'' :: (raw₁ ++ '\'' :: (gap₂ ++ ',' :: (gap₃ ++ '\'' ::
        (raw₂ ++ '\'' :: (gap₄ ++ ')' :: gap₅))))) ∧
      (name.length ≤ raw₁.length ∧ (name.length = raw₁.length → Plain raw₁ ∧ name = raw₁)) ∧
      (password.length ≤ raw₂.length ∧
        (password.length = raw₂.length → Plain raw₂ ∧ password = raw₂)) := by
  obtain ⟨⟨name', s₁⟩, read₁, found⟩ := Option.bind_eq_some_iff.mp found
  obtain ⟨s₂, read₂, found⟩ := Option.bind_eq_some_iff.mp found
  obtain ⟨⟨password', s₃⟩, read₃, found⟩ := Option.bind_eq_some_iff.mp found
  obtain ⟨s₄, read₄, found⟩ := Option.bind_eq_some_iff.mp found
  split at found
  case isFalse => cases found
  case isTrue =>
    cases found
    obtain ⟨gap₁, raw₁, blank, rfl, short₁, plain₁⟩ := exists_of_literal read₁
    obtain ⟨gap₂, -, rfl⟩ := exists_of_expect read₂
    obtain ⟨gap₃, raw₂, -, rfl, short₂, plain₂⟩ := exists_of_literal read₃
    obtain ⟨gap₄, -, rfl⟩ := exists_of_expect read₄
    exact ⟨gap₁, raw₁, gap₂, gap₃, raw₂, gap₄, s₄, blank, rfl, ⟨short₁, plain₁⟩, short₂, plain₂⟩

/-- Only plain names and passwords are read back: the value of any other literal is
shorter than its text, and the statement has no room for that. -/
theorem plain_of_readValues (back : readValues (valuesText name password) = some (name, password)) :
    Plain name ∧ Plain password := by
  obtain ⟨gap₁, raw₁, gap₂, gap₃, raw₂, gap₄, gap₅, blank, whole, ⟨short₁, plain₁⟩, short₂,
    plain₂⟩ := exists_of_readValues back
  have lengths := congrArg List.length whole
  simp only [valuesText, List.length_append, List.length_cons, List.length_nil] at lengths
  obtain rfl : gap₁ = [] := by
    cases gap₁ with
    | nil => rfl
    | cons d gap₁ =>
      have quote : '\'' = d := (List.cons.inj whole).1
      exact absurd (blank d List.mem_cons_self) (by rw [← quote]; decide)
  replace whole := (List.cons.inj whole).2
  by_cases same₁ : name.length = raw₁.length
  · obtain ⟨plainName, rfl⟩ := plain₁ same₁
    by_cases same₂ : password.length = raw₂.length
    · obtain ⟨plainPassword, rfl⟩ := plain₂ same₂
      exact ⟨plainName, plainPassword⟩
    · -- then there is no blank between the comma and the second quote
      obtain rfl : gap₂ = [] := List.length_eq_zero_iff.mp (by omega)
      obtain rfl : gap₃ = [] := List.length_eq_zero_iff.mp (by omega)
      have tail := List.append_cancel_left whole
      exact absurd tail (by simp)
  · -- the first literal would end where the comma stands
    have place := congrArg (fun s => s[name.length + 1]?) whole
    have longer : raw₁.length = name.length + 1 := by omega
    simp [longer] at place

/-- The text built in `sql_insert` is read back as one statement with the name and the
password if and only if these are plain. -/
theorem readInsert_eq_iff (name password : List Char)
    (built : buildInsert name password = .ok sql) :
    readInsert sql = some (name, password) ↔ Plain name ∧ Plain password := by
  obtain ⟨-, rfl⟩ := buildInsert_eq_ok_iff.mp built
  rw [readInsert_insertText]
  constructor
  · exact plain_of_readValues
  · rintro ⟨plainName, plainPassword⟩
    exact readValues_of_plain plainName plainPassword

/-- A name with an escape that stands for itself. -/
theorem readInsert_percent :
    readInsert (insertText "50\\%".toList "a b".toList) = some ("50\\%".toList, "a b".toList) ↔
      Plain "50\\%".toList ∧ Plain "a b".toList :=
  readInsert_eq_iff _ _ (buildInsert_eq_ok_iff.mpr ⟨by decide, rfl⟩)

/-- A name with a quote. -/
theorem not_readInsert :
    ¬ ∀ name password sql : List Char, '\x00' ∉ name → '\x00' ∉ password →
      buildInsert name password = .ok sql → readInsert sql = some (name, password) := by
  intro always
  have back := always "o'neil".toList "pw".toList _ (by decide) (by decide)
    (buildInsert_eq_ok_iff.mpr ⟨by decide, rfl⟩)
  exact absurd back (by decide +kernel)

end CoroutineService.Http
