import Mathlib.Data.List.Basic
import Mathlib.Data.List.TakeWhile
import Mathlib.Algebra.Order.Ring.Int

/-!
# C strings

A C string is a place in memory from which a NUL is reached. What the functions of
`string.h` find out depends on the text up to that NUL only, so it is not affected by
what is appended to the memory later.

## Main definitions

* `strAt`: the text of the C string at a place
* `strlen`, `strpbrk`, `strchr`, `strspn`, `strcasecmp`, `strncasecmp`, `atol`
* `strcat`: appending a text in place
* `bytesOf`, `numberIn`: numbers in memory
* `IsCStr`: a NUL is reached from this place

## Main results

* `strAt_append`: memory that is appended does not change a C string
* `strAt_line`: the C string made by ending a text with a NUL
* `strAt_cut`, `strAt_behind`: a C string that is cut where `strpbrk` finds something
* `strcat_append`: `strcat` within the memory leaves what follows alone
* `numberIn_bytesOf`: a number is read back
-/

set_option autoImplicit false

namespace CString

/-- The byte at a place. Memory that is not listed is zero. -/
def charAt (m : List Char) (p : ℕ) : Char := m.getD p '\x00'

/-- The text of the C string at `p`. -/
def strAt (m : List Char) (p : ℕ) : List Char := (m.drop p).takeWhile (· ≠ '\x00')

def strlen (m : List Char) (p : ℕ) : ℕ := (strAt m p).length

/-- `strpbrk`: the first place with one of these characters. -/
def strpbrk (m : List Char) (p : ℕ) (accept : List Char) : Option ℕ :=
  ((strAt m p).findIdx? (· ∈ accept)).map (p + ·)

/-- `strchr`, for a character other than NUL. -/
def strchr (m : List Char) (p : ℕ) (c : Char) : Option ℕ := strpbrk m p [c]

/-- `strspn`: how many characters from `p` on are among these. -/
def strspn (m : List Char) (p : ℕ) (accept : List Char) : ℕ :=
  ((strAt m p).takeWhile (· ∈ accept)).length

/-- Texts that differ in case only. -/
def sameText (s t : List Char) : Bool := s.map Char.toLower == t.map Char.toLower

/-- `strcasecmp(p, text) == 0`. -/
def strcasecmp (m : List Char) (p : ℕ) (text : String) : Bool :=
  sameText (strAt m p) text.toList

/-- A text begins with another, up to case. -/
def startsWith (s : List Char) (text : String) : Bool :=
  sameText (s.take text.toList.length) text.toList

/-- `strncasecmp(p, text, strlen(text)) == 0`. -/
def strncasecmp (m : List Char) (p : ℕ) (text : String) : Bool := startsWith (strAt m p) text

/-! ### `atol` -/

/-- `isspace`. -/
def isSpace (c : Char) : Bool := c ∈ [' ', '\t', '\n', '\x0b', '\x0c', '\r']

/-- The value of the digits at the beginning of a text. -/
def digits (s : List Char) : ℕ :=
  (s.takeWhile Char.isDigit).foldl (fun n c => 10 * n + (c.toNat - '0'.toNat)) 0

/-- The nearest value of type `long`. -/
def clampLong (n : ℤ) : ℤ := max (-2 ^ 63) (min n (2 ^ 63 - 1))

/-- The number at the beginning of a text. -/
def number (s : List Char) : ℤ :=
  match s.dropWhile isSpace with
  | '-' :: s => clampLong (-digits s)
  | '+' :: s => clampLong (digits s)
  | s => clampLong (digits s)

def atol (m : List Char) (p : ℕ) : ℤ := number (strAt m p)

/-! ### Writing -/

/-- Storing bytes from a place on. -/
def store : List Char → ℕ → List Char → List Char
  | m, _, [] => m
  | m, p, c :: cs => store (m.set p c) (p + 1) cs

/-- `strcat`: the text and its NUL are stored at the end of the C string. -/
def strcat (m : List Char) (p : ℕ) (text : String) : List Char :=
  store m (p + strlen m p) (text.toList ++ ['\x00'])

variable {m q : List Char} {p k i : ℕ}

@[simp]
theorem length_store (cs : List Char) : (store m p cs).length = m.length := by
  induction cs generalizing m p with
  | nil => rfl
  | cons c cs ih =>
    unfold store
    rw [ih, List.length_set]

@[simp]
theorem length_strcat (text : String) : (strcat m p text).length = m.length :=
  length_store _

theorem store_append (cs : List Char) (fits : p + cs.length ≤ m.length) :
    store (m ++ q) p cs = store m p cs ++ q := by
  induction cs generalizing m p with
  | nil => rfl
  | cons c cs ih =>
    rw [List.length_cons] at fits
    unfold store
    rw [List.set_append_left _ _ (by omega)]
    apply ih
    rw [List.length_set]
    omega

theorem store_append_length (m q : List Char) (k : ℕ) (cs : List Char) :
    store (m ++ q) (m.length + k) cs = m ++ store q k cs := by
  induction cs generalizing q k with
  | nil => rfl
  | cons c cs ih =>
    unfold store
    rw [List.set_append_right _ _ (Nat.le_add_right _ _), Nat.add_sub_cancel_left]
    exact ih _ (k + 1)

theorem store_concat (cs ds : List Char) :
    store m p (cs ++ ds) = store (store m p cs) (p + cs.length) ds := by
  induction cs generalizing m p with
  | nil => rfl
  | cons c cs ih =>
    rw [List.length_cons, ← Nat.add_assoc, Nat.add_right_comm]
    exact ih

/-- What is stored stands between what was there before. -/
theorem store_eq {cs : List Char} (fits : p + cs.length ≤ m.length) :
    store m p cs = m.take p ++ (cs ++ m.drop (p + cs.length)) := by
  induction cs generalizing m p with
  | nil => exact (List.take_append_drop p m).symm
  | cons c cs ih =>
    rw [List.length_cons] at fits
    have inside : p < m.length := by omega
    have front : (m.take p).length = p := List.length_take_of_le (Nat.le_of_lt inside)
    have first : (m.set p c).take (p + 1) = m.take p ++ [c] := by
      rw [List.set_eq_take_append_cons_drop, if_pos inside, List.take_append, front,
        Nat.add_sub_cancel_left, List.take_of_length_le (by omega)]
      rfl
    unfold store
    rw [ih (by rw [List.length_set]; omega), List.drop_set_of_lt (by omega), first,
      List.length_cons, Nat.add_right_comm, Nat.add_assoc p, List.append_assoc]
    rfl

/-- Nothing else is written. -/
theorem charAt_store_of_notMem {cs : List Char} (out : i ∉ List.range' p cs.length) :
    charAt (store m p cs) i = charAt m i := by
  induction cs generalizing m p with
  | nil => rfl
  | cons c cs ih =>
    rw [List.length_cons, List.range'_succ, List.mem_cons, not_or] at out
    unfold store
    rw [ih out.2, charAt, charAt, List.getD_eq_getElem?_getD, List.getD_eq_getElem?_getD,
      List.getElem?_set_ne (Ne.symm out.1)]

/-- What is written inside the memory can be read there. -/
theorem charAt_store {cs : List Char} (inside : p + k < m.length) (written : k < cs.length) :
    charAt (store m p cs) (p + k) = cs[k] := by
  induction cs generalizing m p k with
  | nil => cases written
  | cons c cs ih =>
    unfold store
    cases k with
    | zero =>
      have first : (m.set p c)[p]? = some c := List.getElem?_set_self inside
      simp only [Nat.add_zero, List.getElem_cons_zero]
      rw [charAt_store_of_notMem (by simp), charAt, List.getD_eq_getElem?_getD, first]
      rfl
    | succ k =>
      rw [← Nat.add_assoc, Nat.add_right_comm, List.getElem_cons_succ]
      refine ih ?_ (Nat.lt_of_succ_lt_succ written)
      rw [List.length_set]
      omega

/-! ### Numbers in memory -/

/-- A number in so many bytes, the lowest one first. -/
def bytesOf : ℕ → ℕ → List Char
  | 0, _ => []
  | size + 1, n => .ofNat (n % 256) :: bytesOf size (n / 256)

/-- The number in these bytes. -/
def numberIn : List Char → ℕ
  | [] => 0
  | c :: cs => c.toNat + 256 * numberIn cs

@[simp]
theorem length_bytesOf (size n : ℕ) : (bytesOf size n).length = size := by
  induction size generalizing n with
  | zero => rfl
  | succ size ih => rw [bytesOf, List.length_cons, ih]

/-- A number is read back if the bytes are enough for it. -/
theorem numberIn_bytesOf {size n : ℕ} (fits : n < 256 ^ size) : numberIn (bytesOf size n) = n := by
  induction size generalizing n with
  | zero => exact (Nat.lt_one_iff.mp fits).symm
  | succ size ih =>
    have low : (Char.ofNat (n % 256)).toNat = n % 256 := by
      have byte := Nat.mod_lt n (by decide : 256 > 0)
      have valid : (n % 256).isValidChar := .inl (by omega)
      rw [Char.ofNat, dif_pos valid]
      rfl
    rw [bytesOf, numberIn, low, ih ?_, Nat.mod_add_div]
    rw [Nat.div_lt_iff_lt_mul (by decide)]
    exact fits

/-! ### C strings in memory -/

/-- A NUL is reached from `p`. -/
def IsCStr (m : List Char) (p : ℕ) : Prop := ∃ n, p ≤ n ∧ m[n]? = some '\x00'

theorem isCStr_iff : IsCStr m p ↔ '\x00' ∈ m.drop p := by
  constructor
  · rintro ⟨n, reach, nul⟩
    have found : (m.drop p)[n - p]? = some '\x00' := by
      rw [List.getElem?_drop, Nat.add_sub_cancel' reach, nul]
    exact List.mem_of_getElem? found
  · intro mem
    obtain ⟨k, found⟩ := List.mem_iff_getElem?.mp mem
    rw [List.getElem?_drop] at found
    exact ⟨p + k, Nat.le_add_right _ _, found⟩

instance (m : List Char) (p : ℕ) : Decidable (IsCStr m p) := decidable_of_iff _ isCStr_iff.symm

theorem IsCStr.append (str : IsCStr m p) (q : List Char) : IsCStr (m ++ q) p := by
  obtain ⟨n, reach, nul⟩ := str
  refine ⟨n, reach, ?_⟩
  rw [List.getElem?_append_left (List.getElem?_eq_some_iff.mp nul).1]
  exact nul

/-- Storing a NUL leaves the others where they are. -/
theorem getElem?_set_nul {n : ℕ} (nul : m[n]? = some '\x00') (i : ℕ) :
    (m.set i '\x00')[n]? = some '\x00' := by
  rw [List.getElem?_set]
  split
  · next same =>
    rw [if_pos (same ▸ (List.getElem?_eq_some_iff.mp nul).1)]
  · exact nul

theorem takeWhile_append_of_mem {α : Type} {test : α → Bool} {x : α} {l : List α} (inList : x ∈ l)
    (stops : test x = false) (q : List α) : (l ++ q).takeWhile test = l.takeWhile test := by
  induction l with
  | nil => cases inList
  | cons y l ih =>
    rw [List.cons_append, List.takeWhile_cons, List.takeWhile_cons]
    by_cases goes : test y = true
    · rw [if_pos goes, if_pos goes]
      rcases List.mem_cons.mp inList with rfl | inList
      · rw [stops] at goes
        cases goes
      · rw [ih inList]
    · rw [if_neg goes, if_neg goes]

/-- Memory that is appended does not change a C string. -/
theorem strAt_append (str : IsCStr m p) (q : List Char) : strAt (m ++ q) p = strAt m p := by
  obtain ⟨n, reach, nul⟩ := str
  have inside : n < m.length := (List.getElem?_eq_some_iff.mp nul).1
  unfold strAt
  rw [List.drop_append_of_le_length (by omega)]
  apply takeWhile_append_of_mem (x := '\x00')
  · apply List.mem_of_getElem? (i := n - p)
    rw [List.getElem?_drop, Nat.add_sub_cancel' reach, nul]
  · rfl

/-- What is read behind a front of the memory. -/
theorem strAt_append_length (m q : List Char) (k : ℕ) :
    strAt (m ++ q) (m.length + k) = strAt q k := by
  unfold strAt
  rw [List.drop_append, List.drop_eq_nil_of_le (Nat.le_add_right _ _), Nat.add_sub_cancel_left,
    List.nil_append]

theorem IsCStr.append_length (str : IsCStr q k) (m : List Char) :
    IsCStr (m ++ q) (m.length + k) := by
  obtain ⟨n, reach, nul⟩ := str
  refine ⟨m.length + n, Nat.add_le_add_left reach _, ?_⟩
  rw [List.getElem?_append_right (Nat.le_add_right _ _), Nat.add_sub_cancel_left]
  exact nul

/-- The C string made by ending a text with a NUL. It may end before. -/
theorem strAt_line (m l q : List Char) :
    strAt (m ++ (l ++ '\x00' :: q)) m.length = l.takeWhile (· ≠ '\x00') := by
  have ends : ('\x00' :: q).takeWhile (· ≠ '\x00') = [] := by
    rw [List.takeWhile_cons, if_neg (by decide)]
  rw [strAt, List.drop_left, List.takeWhile_append, ends, List.append_nil]
  split
  · next whole => exact (((List.takeWhile_prefix _).eq_of_length whole)).symm
  · rfl

/-- The memory from `p` on is the text and what follows it. -/
theorem exists_drop_eq (m : List Char) (p : ℕ) :
    ∃ rest, m.drop p = strAt m p ++ rest ∧ rest.takeWhile (· ≠ '\x00') = [] := by
  refine ⟨(m.drop p).dropWhile (· ≠ '\x00'), List.takeWhile_append_dropWhile.symm, ?_⟩
  have again : ((m.drop p).takeWhile (· ≠ '\x00') ++ (m.drop p).dropWhile (· ≠ '\x00')).takeWhile
      (· ≠ '\x00') = (m.drop p).takeWhile (· ≠ '\x00') ++
        ((m.drop p).dropWhile (· ≠ '\x00')).takeWhile (· ≠ '\x00') :=
    List.takeWhile_append_of_pos fun _ => List.mem_takeWhile_imp
  rw [List.takeWhile_append_dropWhile] at again
  exact List.append_cancel_left (again.symm.trans (List.append_nil _).symm)

theorem ne_nul_of_mem {c : Char} (inText : c ∈ strAt m p) : c ≠ '\x00' := by
  simpa using List.mem_takeWhile_imp (p := (· ≠ '\x00')) inText

/-- The text of a C string ends before any NUL behind its beginning. -/
theorem add_strlen_le {n : ℕ} (reach : p ≤ n) (nul : m[n]? = some '\x00') :
    p + strlen m p ≤ n := by
  by_contra beyond
  have early : n - p < (strAt m p).length := by
    unfold strlen at beyond
    omega
  obtain ⟨rest, memory, -⟩ := exists_drop_eq m p
  have char : (strAt m p)[n - p]? = some '\x00' := by
    rw [← List.getElem?_append_left early, ← memory, List.getElem?_drop,
      Nat.add_sub_cancel' reach, nul]
  exact ne_nul_of_mem (List.mem_of_getElem? char) rfl

/-- The C string that starts `k` bytes further on. -/
theorem IsCStr.add (str : IsCStr m p) (within : k ≤ strlen m p) : IsCStr m (p + k) := by
  obtain ⟨n, reach, nul⟩ := str
  have ends := add_strlen_le reach nul
  exact ⟨n, by omega, nul⟩

theorem strAt_add (within : k ≤ strlen m p) : strAt m (p + k) = (strAt m p).drop k := by
  obtain ⟨rest, memory, ends⟩ := exists_drop_eq m p
  rw [strAt, ← List.drop_drop, memory, List.drop_append_of_le_length within,
    List.takeWhile_append_of_pos, ends, List.append_nil]
  intro c inText
  exact decide_eq_true (ne_nul_of_mem (List.mem_of_mem_drop inText))

theorem strspn_le (m : List Char) (p : ℕ) (accept : List Char) :
    strspn m p accept ≤ strlen m p :=
  (List.takeWhile_prefix _).length_le

/-- What follows the characters that `strspn` counts. -/
theorem strAt_strspn (m : List Char) (p : ℕ) (accept : List Char) :
    strAt m (p + strspn m p accept) = (strAt m p).dropWhile (· ∈ accept) := by
  have parts : (strAt m p).takeWhile (· ∈ accept) ++ (strAt m p).dropWhile (· ∈ accept) =
      strAt m p := List.takeWhile_append_dropWhile
  rw [strAt_add (strspn_le m p accept), strspn]
  nth_rewrite 2 [← parts]
  exact List.drop_left

theorem strpbrk_within {accept : List Char} (found : strpbrk m p accept = some i) :
    p ≤ i ∧ i < p + strlen m p := by
  obtain ⟨k, first, rfl⟩ := Option.map_eq_some_iff.mp found
  have inText : k < (strAt m p).length := (List.findIdx?_eq_some_iff_getElem.mp first).1
  exact ⟨Nat.le_add_right _ _, Nat.add_lt_add_left inText _⟩

/-! ### Cutting a text -/

section cut

variable {accept : List Char}

/-- A write before a C string does not concern it. -/
theorem strAt_set_of_lt {c : Char} (before : i < p) : strAt (m.set i c) p = strAt m p := by
  unfold strAt
  rw [List.drop_set_of_lt before]

/-- A NUL stored in a C string ends it there. -/
theorem strAt_set_nul (reach : p ≤ i) (within : i < p + strlen m p) :
    strAt (m.set i '\x00') p = (strAt m p).take (i - p) := by
  obtain ⟨rest, memory, -⟩ := exists_drop_eq m p
  have inText : i - p < (strAt m p).length := by
    unfold strlen at within
    omega
  have parts : (m.set i '\x00').drop p =
      (strAt m p).take (i - p) ++ '\x00' :: ((strAt m p).drop (i - p + 1) ++ rest) := by
    rw [List.drop_set, if_neg (Nat.not_lt.mpr reach), memory, List.set_append_left _ _ inText,
      List.set_eq_take_append_cons_drop, if_pos inText, List.append_assoc, List.cons_append]
  rw [strAt, parts, List.takeWhile_append_of_pos]
  · rw [List.takeWhile_cons, if_neg (by decide), List.append_nil]
  · intro c inPart
    exact decide_eq_true (ne_nul_of_mem (List.mem_of_mem_take inPart))

theorem strpbrk_eq_none : strpbrk m p accept = none ↔ ∀ c ∈ strAt m p, c ∉ accept := by
  simp [strpbrk, List.findIdx?_eq_none_iff]

/-- The place found is behind the characters that are not looked for. -/
theorem strpbrk_eq_some (found : strpbrk m p accept = some i) :
    i - p = (strAt m p).findIdx (· ∈ accept) ∧
      (strAt m p).findIdx (· ∈ accept) < (strAt m p).length := by
  obtain ⟨k, first, rfl⟩ := Option.map_eq_some_iff.mp found
  obtain ⟨inText, index⟩ := List.findIdx?_eq_some_iff_findIdx_eq.mp first
  rw [Nat.add_sub_cancel_left, index]
  exact ⟨rfl, inText⟩

/-- If the place found is overwritten, the text before it is left. -/
theorem strAt_cut (found : strpbrk m p accept = some i) :
    strAt (m.set i '\x00') p = (strAt m p).takeWhile (· ∉ accept) := by
  obtain ⟨reach, within⟩ := strpbrk_within found
  rw [strAt_set_nul reach within, (strpbrk_eq_some found).1, List.takeWhile_eq_take_findIdx_not]
  simp

/-- The text behind that place follows the character that was found. -/
theorem strAt_behind (found : strpbrk m p accept = some i) :
    ∃ c ∈ accept, (strAt m p).dropWhile (· ∉ accept) = c :: strAt (m.set i '\x00') (i + 1) := by
  obtain ⟨reach, within⟩ := strpbrk_within found
  obtain ⟨index, inText⟩ := strpbrk_eq_some found
  have next : i + 1 = p + (i - p + 1) := by omega
  have behind : strAt (m.set i '\x00') (i + 1) = (strAt m p).drop (i - p + 1) := by
    rw [strAt_set_of_lt i.lt_add_one, next, strAt_add (by unfold strlen; omega)]
  refine ⟨_, of_decide_eq_true (List.findIdx_getElem (w := inText)), ?_⟩
  rw [behind, index, List.dropWhile_eq_drop_findIdx_not]
  simp only [decide_not, Bool.not_not]
  exact List.drop_eq_getElem_cons inText

/-- The text from that place on. -/
theorem strAt_found (found : strpbrk m p accept = some i) :
    strAt m i = (strAt m p).dropWhile (· ∉ accept) := by
  obtain ⟨reach, within⟩ := strpbrk_within found
  have place : i = p + (i - p) := by omega
  have index := (strpbrk_eq_some found).1
  rw [place, strAt_add (by omega), index, List.dropWhile_eq_drop_findIdx_not]
  simp

/-- What is found lies in a C string, and so does what follows it. -/
theorem IsCStr.cut (str : IsCStr m p) (found : strpbrk m p accept = some i) :
    IsCStr (m.set i '\x00') p ∧ IsCStr (m.set i '\x00') (i + 1) := by
  obtain ⟨n, reach, nul⟩ := str
  have ends := add_strlen_le reach nul
  have within := (strpbrk_within found).2
  exact ⟨⟨n, reach, getElem?_set_nul nul i⟩, ⟨n, by omega, getElem?_set_nul nul i⟩⟩

end cut

theorem length_of_sameText {s t : List Char} (same : sameText s t = true) :
    s.length = t.length := by
  have lengths := congrArg List.length (beq_iff_eq.mp same)
  simpa using lengths

theorem length_of_startsWith {s : List Char} {text : String} (starts : startsWith s text = true) :
    text.toList.length ≤ s.length := by
  have taken := length_of_sameText starts
  rw [List.length_take] at taken
  omega

theorem charAt_eq_getElem (inside : p < m.length) : charAt m p = m[p] := by
  rw [charAt, List.getD_eq_getElem?_getD, List.getElem?_eq_getElem inside, Option.getD_some]

theorem charAt_of_getElem? {c : Char} (char : m[p]? = some c) : charAt m p = c := by
  rw [charAt, List.getD_eq_getElem?_getD, char, Option.getD_some]

/-- Memory of the same length that reads the same from a place on. -/
theorem drop_eq_of_charAt (length : q.length = m.length)
    (same : ∀ i, p ≤ i → charAt q i = charAt m i) : q.drop p = m.drop p := by
  refine List.ext_getElem? fun k => ?_
  rw [List.getElem?_drop, List.getElem?_drop]
  by_cases inside : p + k < m.length
  · have char := same (p + k) (Nat.le_add_right _ _)
    rw [charAt_eq_getElem inside, charAt_eq_getElem (inside.trans_eq length.symm)] at char
    rw [List.getElem?_eq_getElem inside, List.getElem?_eq_getElem (inside.trans_eq length.symm),
      char]
  · rw [List.getElem?_eq_none (by omega), List.getElem?_eq_none (by omega)]

theorem drop_eq_cons (inside : p < m.length) : m.drop p = charAt m p :: m.drop (p + 1) := by
  rw [List.drop_eq_getElem_cons inside, charAt_eq_getElem inside]

theorem charAt_append (inside : p < m.length) (q : List Char) : charAt (m ++ q) p = charAt m p := by
  unfold charAt
  rw [List.getD_eq_getElem?_getD, List.getD_eq_getElem?_getD, List.getElem?_append_left inside]

theorem charAt_append_length (m q : List Char) (k : ℕ) :
    charAt (m ++ q) (m.length + k) = charAt q k := by
  unfold charAt
  rw [List.getD_eq_getElem?_getD, List.getD_eq_getElem?_getD,
    List.getElem?_append_right (Nat.le_add_right _ _), Nat.add_sub_cancel_left]

/-- The empty C string. -/
theorem strAt_eq_nil (nul : charAt m p = '\x00') : strAt m p = [] := by
  unfold charAt at nul
  unfold strAt
  rw [List.getD_eq_getElem?_getD, ← List.head?_drop] at nul
  cases rest : m.drop p with
  | nil => rfl
  | cons c rest' =>
    rw [rest] at nul
    have first : c = '\x00' := nul
    rw [first, List.takeWhile_cons, if_neg (by decide)]

/-- A C string begins with the character that is there. -/
theorem head?_strAt (visible : charAt m p ≠ '\x00') : (strAt m p).head? = some (charAt m p) := by
  unfold charAt at visible ⊢
  unfold strAt
  rw [List.getD_eq_getElem?_getD, ← List.head?_drop] at visible ⊢
  cases rest : m.drop p with
  | nil =>
    rw [rest] at visible
    exact absurd rfl visible
  | cons c rest' =>
    rw [rest] at visible
    have text : c ≠ '\x00' := visible
    rw [List.takeWhile_cons, if_pos (decide_eq_true text)]
    rfl

theorem charAt_of_head? {c : Char} (head : (strAt m p).head? = some c) : charAt m p = c := by
  by_cases nul : charAt m p = '\x00'
  · rw [strAt_eq_nil nul] at head
    cases head
  · exact Option.some_inj.mp ((head?_strAt nul).symm.trans head)

/-- A C string is what can be read up to a NUL. -/
theorem strAt_eq_of_charAt {l : List Char} (text : '\x00' ∉ l)
    (chars : ∀ k (inText : k < l.length), charAt m (p + k) = l[k])
    (ends : charAt m (p + l.length) = '\x00') : strAt m p = l := by
  induction l generalizing p with
  | nil => exact strAt_eq_nil ends
  | cons c l ih =>
    rw [List.mem_cons, not_or] at text
    obtain ⟨visible, text⟩ := text
    have first : charAt m p = c := chars 0 (Nat.zero_lt_succ _)
    have inside : p < m.length := by
      by_contra beyond
      rw [charAt, List.getD_eq_getElem?_getD, List.getElem?_eq_none (Nat.not_lt.mp beyond)] at first
      exact visible first
    have rest : strAt m (p + 1) = l := by
      refine ih text (fun k inText => ?_) ?_
      · have next := chars (k + 1) (Nat.succ_lt_succ inText)
        rwa [← Nat.add_assoc, Nat.add_right_comm] at next
      · rwa [List.length_cons, ← Nat.add_assoc, Nat.add_right_comm] at ends
    rw [strAt, drop_eq_cons inside, first, List.takeWhile_cons,
      if_pos (decide_eq_true (Ne.symm visible))]
    exact congrArg (c :: ·) rest

theorem mem_of_charAt {c : Char} (char : charAt m p = c) (visible : c ≠ '\x00') : c ∈ m := by
  unfold charAt at char
  rw [List.getD_eq_getElem?_getD] at char
  cases inside : m[p]? with
  | none =>
    rw [inside] at char
    exact absurd char.symm visible
  | some x =>
    rw [inside] at char
    exact char ▸ List.mem_of_getElem? inside

section append

variable (str : IsCStr m p) (q : List Char)

include str

theorem strlen_append : strlen (m ++ q) p = strlen m p := by
  unfold strlen
  rw [strAt_append str]

theorem strpbrk_append (accept : List Char) : strpbrk (m ++ q) p accept = strpbrk m p accept := by
  unfold strpbrk
  rw [strAt_append str]

theorem strchr_append (c : Char) : strchr (m ++ q) p c = strchr m p c :=
  strpbrk_append str q [c]

theorem strspn_append (accept : List Char) : strspn (m ++ q) p accept = strspn m p accept := by
  unfold strspn
  rw [strAt_append str]

theorem strcasecmp_append (text : String) : strcasecmp (m ++ q) p text = strcasecmp m p text := by
  unfold strcasecmp
  rw [strAt_append str]

theorem strncasecmp_append (text : String) :
    strncasecmp (m ++ q) p text = strncasecmp m p text := by
  unfold strncasecmp
  rw [strAt_append str]

/-- `strcat` within the memory leaves what follows alone. -/
theorem strcat_append (text : String)
    (fits : p + strlen m p + text.toList.length < m.length) :
    strcat (m ++ q) p text = strcat m p text ++ q := by
  unfold strcat
  rw [strlen_append str, store_append]
  rw [List.length_append, List.length_singleton]
  omega

end append

end CString
