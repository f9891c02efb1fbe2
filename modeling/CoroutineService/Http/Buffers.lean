import CoroutineService.Http.DoRequest
import CoroutineService.Http.Parsed

/-!
# The arrays of `do_request`

The lengths of the URL and of the form fields come from the request. Whether the copies
stay inside `m_url_real`, `name`, `password`, `sql_insert` and `m_real_file`, and the
scans inside the body, is decided by comparing these lengths.

## Main definitions

* `Respects`: the arrays are respected
* `Fits`: the lengths that fit

## Main results

* `respects_iff`: the requests that respect the arrays
* `not_respects`: a form without `&`
-/

set_option autoImplicit false

namespace CoroutineService.Http

open CString Reader

/-- The bytes of the body, as long as `Content-length` says. -/
def Reader.bodyText (r : Reader) : List Char :=
  match r.string with
  | none => []
  | some text => (r.readBuf.drop text).take r.contentLength.toNat

/-- A call of `do_request` that does no harm to an array, where `harmless` says what has
to hold at its end. -/
def Safe {α : Type} (harmless : α → Prop) : Except Fault α → Prop
  | .ok a => harmless a
  | .error .noSlash => True
  | .error .overflow | .error .overrun | .error .parsing => False

/-- All writes stay inside the arrays, and the body is not read past its end. -/
def Respects (b : Backend) (proxy : ProxyType) (decideProxy : Bool) (users : Users)
    (r : Reader) : Prop :=
  mismatch proxy decideProxy = true ∨
    Safe (fun s => ∀ k : ℕ, k ∈ s.scanned → (k : ℤ) ≤ r.contentLength) (b.prepare users r)

/-! ### What fits -/

namespace Reader

variable (r : Reader)

/-- The bytes between the first five of the body and `&`. -/
def nameField : List Char := (r.bodyText.drop 5).takeWhile (· ≠ '&')

/-- Where the password begins. -/
def passwordAt : ℕ := 5 + r.nameField.length + 10

/-- The bytes from there on. -/
def passwordField : List Char := (r.bodyText.drop r.passwordAt).takeWhile (· ≠ '\x00')

end Reader

/-- The form fits: its URL into `m_url_real`, the fields into the body and into `name` and
`password`, and the statement of a registration into `sql_insert`. -/
structure FormFits (r : Reader) (url : List Char) (kind : Char) : Prop where
  url : url.length ≤ 200
  ampersand : '&' ∈ r.bodyText.drop 5
  name : r.nameField.length < 100
  rest : (r.passwordAt : ℤ) ≤ r.contentLength
  password : r.passwordField.length < 100
  statement : kind = '3' →
    49 + (r.nameField.takeWhile (· ≠ '\x00')).length + r.passwordField.length < 200

/-- The URL leads to a form that fits, to a page that fits behind the document root, or
anywhere else. -/
def Fits (docRoot : List Char) (r : Reader) : Prop :=
  ∀ p ∈ r.url, ∀ k ∈ lastSlash (strAt r.readBuf p),
    let url := strAt r.readBuf p
    let kind := url.getD (k + 1) '\x00'
    if isForm r.cgi kind then FormFits r url kind
    else ∀ page ∈ fixedPage kind, docRoot.length + page.toList.length ≤ filenameLen

/-! ### The form fields -/

section scans

variable {read : ℕ → Except Fault Char} {stop : Char} {room i j : ℕ} {l text : List Char}

/-- A text in front of the first character that stops it. -/
theorem eq_takeWhile_iff : (l[text.length]? = some stop ∧
      ∀ k : ℕ, ∀ c ∈ text[k]?, l[k]? = some c ∧ c ≠ stop) ↔
    text = l.takeWhile (· ≠ stop) ∧ stop ∈ l := by
  induction l generalizing text with
  | nil => simp
  | cons d l ih =>
    by_cases stops : d = stop
    · subst stops
      rw [List.takeWhile_cons, if_neg (by simp)]
      constructor
      · rintro ⟨-, passed⟩
        cases text with
        | nil => exact ⟨rfl, List.mem_cons_self⟩
        | cons c text =>
          obtain ⟨here, differs⟩ := passed 0 c rfl
          exact absurd (Option.some_inj.mp here).symm differs
      · rintro ⟨rfl, -⟩
        exact ⟨rfl, fun k c mem => nomatch mem⟩
    · rw [List.takeWhile_cons, if_pos (by simpa using stops)]
      cases text with
      | nil =>
        refine iff_of_false ?_ (fun ⟨same, _⟩ => nomatch same)
        rintro ⟨here, -⟩
        exact stops (Option.some_inj.mp here)
      | cons c text =>
        have tail := @ih text
        constructor
        · rintro ⟨found, passed⟩
          obtain rfl : d = c := Option.some_inj.mp (passed 0 c rfl).1
          obtain ⟨same, mem⟩ := tail.mp ⟨found, fun k e mem => passed (k + 1) e mem⟩
          exact ⟨congrArg (d :: ·) same, List.mem_cons_of_mem d mem⟩
        · rintro ⟨same, mem⟩
          obtain ⟨rfl, tails⟩ := List.cons.inj same
          have later : stop ∈ l := (List.mem_cons.mp mem).resolve_left (Ne.symm stops)
          obtain ⟨found, passed⟩ := tail.mpr ⟨tails, later⟩
          refine ⟨found, fun k e mem => ?_⟩
          cases k with
          | zero =>
            obtain rfl := Option.some_inj.mp mem
            exact ⟨rfl, stops⟩
          | succ k => exact passed k e mem

/-- What the loops find in memory that is listed. -/
theorem copyUntil_listed (listed : ∀ k c, l[k]? = some c → read k = .ok c) :
    copyUntil read stop room i = .ok (text, j) ∧ j < l.length ↔
      (text = (l.drop i).takeWhile (· ≠ stop) ∧ stop ∈ l.drop i) ∧ text.length < room ∧
        j = i + text.length := by
  have back : ∀ k c, k < l.length → read k = .ok c → l[k]? = some c := by
    intro k c inside found
    have here := List.getElem?_eq_getElem inside
    rw [here, Except.ok.inj ((listed k _ here).symm.trans found)]
  rw [copyUntil_eq_ok_iff, ← eq_takeWhile_iff]
  constructor
  · rintro ⟨⟨rfl, fits, found, passed⟩, inside⟩
    refine ⟨⟨?_, fun k c mem => ?_⟩, fits, rfl⟩
    · rw [List.getElem?_drop]
      exact back _ _ inside found
    · obtain ⟨here, differs⟩ := passed k c mem
      have early : k < text.length := (List.getElem?_eq_some_iff.mp mem).1
      rw [List.getElem?_drop]
      exact ⟨back _ _ (by omega) here, differs⟩
  · rintro ⟨⟨found, passed⟩, fits, rfl⟩
    rw [List.getElem?_drop] at found
    refine ⟨⟨rfl, fits, listed _ _ found, fun k c mem => ?_⟩,
      (List.getElem?_eq_some_iff.mp found).1⟩
    obtain ⟨here, differs⟩ := passed k c mem
    rw [List.getElem?_drop] at here
    exact ⟨listed _ _ here, differs⟩

/-- The character that stops a text may be put behind it. -/
theorem takeWhile_concat (l : List Char) (stop : Char) :
    (l ++ [stop]).takeWhile (· ≠ stop) = l.takeWhile (· ≠ stop) := by
  by_cases mem : stop ∈ l
  · exact takeWhile_append_of_mem mem (by simp) _
  · have passes : ∀ c ∈ l, decide (c ≠ stop) = true := fun c inText =>
      decide_eq_true (ne_of_mem_of_not_mem inText mem)
    rw [List.takeWhile_append_of_pos passes, List.takeWhile_eq_self_iff.mpr passes]
    simp

end scans

namespace Reader

variable {r : Reader} {f : Fields}

theorem fields_eq_ok_iff : r.fields = .ok f ↔ ∃ name i password j,
    copyUntil r.body '&' 100 5 = .ok (name, i) ∧
      copyUntil r.body '\x00' 100 (i + 10) = .ok (password, j) ∧
      f = ⟨name.takeWhile (· ≠ '\x00'), password, j⟩ := by
  unfold fields
  cases copyUntil r.body '&' 100 5 with
  | error fault => exact iff_of_false nofun fun ⟨_, _, _, _, found, _⟩ => nomatch found
  | ok first =>
    obtain ⟨name, i⟩ := first
    dsimp only
    cases second : copyUntil r.body '\x00' 100 (i + 10) with
    | error fault =>
      refine iff_of_false nofun ?_
      rintro ⟨_, _, _, _, ⟨⟩, found, _⟩
      cases second.symm.trans found
    | ok last =>
      constructor
      · rintro ⟨⟩
        exact ⟨name, i, last.1, last.2, rfl, second, rfl⟩
      · rintro ⟨_, _, password, j, ⟨⟩, found, rfl⟩
        cases second.symm.trans found
        rfl

/-- The password begins fifteen bytes behind the beginning of the body, or later. -/
theorem le_last (found : r.fields = .ok f) : 15 ≤ f.last := by
  obtain ⟨name, i, password, j, first, second, rfl⟩ := fields_eq_ok_iff.mp found
  have place := (copyUntil_eq_ok_iff.mp first).1
  have place' := (copyUntil_eq_ok_iff.mp second).1
  show 15 ≤ j
  omega

/-- The body and the NUL behind it can be read. -/
theorem body_listed (parsed : Parsed r) (positive : 0 < r.contentLength) :
    (r.bodyText.length : ℤ) = r.contentLength ∧
      ∀ k c, (r.bodyText ++ ['\x00'])[k]? = some c → r.body k = .ok c := by
  obtain ⟨text, pointer, inside, nul⟩ := parsed.ended positive.ne'
  have room := parsed.room
  have listed : r.bodyText = (r.readBuf.drop text).take r.contentLength.toNat := by
    unfold bodyText
    rw [pointer]
  have length : r.bodyText.length = r.contentLength.toNat := by
    rw [listed, List.length_take, List.length_drop]
    omega
  refine ⟨by omega, fun k c here => ?_⟩
  have within : k < (r.bodyText ++ ['\x00']).length := (List.getElem?_eq_some_iff.mp here).1
  rw [List.length_append, List.length_singleton, length] at within
  have value : charAt r.readBuf (text + k) = c := by
    rcases Nat.lt_succ_iff_lt_or_eq.mp within with before | rfl
    · rw [List.getElem?_append_left (by omega), listed, List.getElem?_take_of_lt before,
        List.getElem?_drop] at here
      unfold charAt
      rw [List.getD_eq_getElem?_getD, here]
      rfl
    · rw [← length, List.getElem?_concat_length] at here
      exact (nul positive.le).trans (Option.some_inj.mp here)
  unfold body
  rw [pointer]
  dsimp only
  rw [if_pos (by omega), value]

/-- The fields that are read within the body. -/
theorem fields_within (parsed : Parsed r) {Q : List Char → List Char → Prop} :
    (∃ f, r.fields = .ok f ∧ Q f.name f.password ∧ (f.last : ℤ) ≤ r.contentLength) ↔
      '&' ∈ r.bodyText.drop 5 ∧ r.nameField.length < 100 ∧ (r.passwordAt : ℤ) ≤ r.contentLength ∧
        r.passwordField.length < 100 ∧ Q (r.nameField.takeWhile (· ≠ '\x00')) r.passwordField := by
  by_cases positive : 0 < r.contentLength
  · obtain ⟨length, listed⟩ := body_listed parsed positive
    have whole : (r.bodyText ++ ['\x00']).length = r.bodyText.length + 1 := by
      rw [List.length_append, List.length_singleton]
    -- Both loops are stopped within what is listed: the body and the NUL behind it.
    have first : ∀ name i, copyUntil r.body '&' 100 5 = .ok (name, i) ∧
        i < (r.bodyText ++ ['\x00']).length ↔ (name = r.nameField ∧ '&' ∈ r.bodyText.drop 5) ∧
          name.length < 100 ∧ i = 5 + name.length := by
      intro name i
      rw [copyUntil_listed listed, List.drop_append]
      refine and_congr_left fun _ => ?_
      have noNul : '&' ∉ ['\x00'].drop (5 - r.bodyText.length) := fun mem =>
        absurd (List.mem_of_mem_drop mem) (by decide)
      rw [List.mem_append, or_iff_left noNul]
      refine and_congr_left fun mem => ?_
      rw [takeWhile_append_of_mem mem (by simp)]
      rfl
    have second : ∀ password j, ∀ i ≤ r.bodyText.length,
        (copyUntil r.body '\x00' 100 i = .ok (password, j) ∧ j < (r.bodyText ++ ['\x00']).length ↔
          password = (r.bodyText.drop i).takeWhile (· ≠ '\x00') ∧ password.length < 100 ∧
            j = i + password.length) := by
      intro password j i before
      rw [copyUntil_listed listed, List.drop_append_of_le_length before, takeWhile_concat,
        and_iff_left (List.mem_append_right _ (List.mem_singleton_self _))]
    constructor
    · rintro ⟨f, found, holds, within⟩
      obtain ⟨name, i, password, j, read, read', rfl⟩ := fields_eq_ok_iff.mp found
      have place := (copyUntil_eq_ok_iff.mp read').1
      replace within : (j : ℤ) ≤ r.contentLength := within
      obtain ⟨⟨rfl, mem⟩, short, rfl⟩ := (first name i).mp ⟨read, by omega⟩
      obtain ⟨rfl, short', -⟩ := (second password j _ (by omega)).mp ⟨read', by omega⟩
      refine ⟨mem, short, ?_, short', holds⟩
      unfold passwordAt
      omega
    · rintro ⟨mem, short, before, short', holds⟩
      obtain ⟨read, -⟩ := (first r.nameField _).mpr ⟨⟨rfl, mem⟩, short, rfl⟩
      obtain ⟨read', within⟩ := (second r.passwordField _ r.passwordAt (by omega)).mpr
        ⟨rfl, short', rfl⟩
      refine ⟨_, fields_eq_ok_iff.mpr ⟨_, _, _, _, read, read', rfl⟩, holds, ?_⟩
      dsimp only
      omega
  · refine iff_of_false ?_ ?_
    -- Without a body the loops read what came before it.
    · rintro ⟨f, found, -, within⟩
      have late := le_last found
      omega
    · rintro ⟨mem, -⟩
      have empty : r.bodyText = [] := by
        unfold bodyText
        split
        · rfl
        · rw [Int.toNat_of_nonpos (not_lt.mp positive), List.take_zero]
      rw [empty] at mem
      exact absurd mem (by simp)

/-- Reading the form fails by an access outside of an array. -/
theorem fields_error {fault : Fault} (failed : r.fields = .error fault) :
    fault = .overflow ∨ fault = .overrun := by
  have scan : ∀ stop room i fault, copyUntil r.body stop room i = .error fault →
      fault = .overflow ∨ fault = .overrun := by
    intro stop room
    induction room with
    | zero =>
      rintro i fault ⟨⟩
      exact .inl rfl
    | succ room ih =>
      intro i fault failed
      unfold copyUntil at failed
      split at failed
      case h_1 fault' here =>
        cases failed
        unfold body at here
        split at here
        · cases here
          exact .inr rfl
        · split at here
          · cases here
          · cases here
            exact .inr rfl
      case h_2 c here =>
        split at failed
        · cases failed
        · split at failed
          case h_1 fault' onward =>
            cases failed
            exact ih _ _ onward
          case h_2 => cases failed
  unfold fields at failed
  split at failed
  case h_1 fault' first =>
    cases failed
    exact scan _ _ _ _ first
  case h_2 =>
    split at failed
    case h_1 fault' second =>
      cases failed
      exact scan _ _ _ _ second
    case h_2 => cases failed

end Reader

/-! ### The writes -/

section writes

variable {α β : Type} {harmless : α → Prop} {x : Except Fault α}

theorem safe_bind {harmless : β → Prop} {next : α → Except Fault β} :
    Safe harmless (x >>= next) ↔ Safe (fun a => Safe harmless (next a)) x := by
  cases x with
  | ok a => rfl
  | error fault => cases fault <;> rfl

variable {harmless : List Char → Prop} {dst s text : List Char} {p n size : ℕ}

theorem safe_strcpy : Safe harmless (strcpy dst p text) ↔
    p + text.length < dst.length ∧ harmless (store dst p (text ++ ['\x00'])) := by
  unfold strcpy
  split
  case isTrue inside => exact (and_iff_right inside).symm
  case isFalse outside => exact iff_of_false id fun fits => outside fits.1

theorem safe_strncpy : Safe harmless (strncpy dst p text n) ↔
    p + n ≤ dst.length ∧ harmless (store dst p ((text ++ List.replicate n '\x00').take n)) := by
  unfold strncpy
  split
  case isTrue inside => exact (and_iff_right inside).symm
  case isFalse outside => exact iff_of_false id fun fits => outside fits.1

theorem safe_append : Safe harmless (append size s text) ↔
    s.length + text.length < size ∧ harmless (s ++ text) := by
  unfold append
  split
  case isTrue inside => exact (and_iff_right inside).symm
  case isFalse outside => exact iff_of_false id fun fits => outside fits.1

end writes

theorem safe_fields {r : Reader} {harmless : Fields → Prop} :
    Safe harmless r.fields ↔ ∃ f, r.fields = .ok f ∧ harmless f := by
  cases found : r.fields with
  | ok f =>
    constructor
    · exact fun holds => ⟨f, rfl, holds⟩
    · rintro ⟨_, ⟨⟩, holds⟩
      exact holds
  | error fault =>
    refine iff_of_false ?_ (fun ⟨_, found, _⟩ => nomatch found)
    rcases Reader.fields_error found with rfl | rfl <;> exact id

theorem safe_buildInsert {name password : List Char} {harmless : List Char → Prop} :
    Safe harmless (buildInsert name password) ↔
      (insertText name password).length < 200 ∧ harmless (insertText name password) := by
  unfold buildInsert
  rw [safe_bind, safe_append, safe_bind, safe_append, safe_bind, safe_append, safe_bind,
    safe_append, safe_bind, safe_append, safe_append, ← insertText_eq]
  have whole := congrArg List.length (insertText_eq name password)
  simp only [List.length_append] at whole ⊢
  constructor
  · rintro ⟨-, -, -, -, -, fits, holds⟩
    exact ⟨by omega, holds⟩
  · rintro ⟨fits, holds⟩
    exact ⟨by omega, by omega, by omega, by omega, by omega, by omega, holds⟩

namespace Backend

variable {b : Backend} {users : Users} {r : Reader} {kind : Char} {file url : List Char}

theorem safe_answerForm {f : Fields} {harmless : String × Users → Prop} {q : Prop}
    (alike : ∀ page users', page ∈ userPages → (harmless (page, users') ↔ q)) :
    Safe harmless (b.answerForm users kind f) ↔
      (kind = '3' → (insertText f.name f.password).length < 200) ∧ q := by
  unfold answerForm
  split
  case isTrue registers =>
    rw [safe_bind, safe_buildInsert]
    refine and_congr ⟨fun fits _ => fits, fun fits => fits registers⟩ ?_
    exact alike _ _ (register_mem_userPages _ _ _ _)
  case isFalse logsIn =>
    exact (alike _ _ (login_mem_userPages _ _ _)).trans
      (and_iff_right fun registers => absurd registers logsIn).symm

theorem safe_prepareFile {s : Prepared} {harmless : Prepared → Prop} {q : Prop}
    (short : b.docRoot.length < filenameLen) (long : s.realFile.length = filenameLen)
    (frame : ∀ file, harmless { s with realFile := file } ↔ q) :
    Safe harmless (b.prepareFile kind s) ↔
      (∀ page ∈ fixedPage kind, b.docRoot.length + page.toList.length ≤ filenameLen) ∧ q := by
  unfold prepareFile
  cases fixedPage kind with
  | none =>
    dsimp only
    rw [safe_bind, safe_strncpy]
    refine and_congr (iff_of_true ?_ nofun) (frame _)
    rw [long]
    unfold room
    omega
  | some page =>
    dsimp only
    rw [safe_bind, safe_strncpy, long]
    exact and_congr (by simp) (frame _)

/-- The branch for a form does no harm if the form fits. -/
theorem safe_form (parsed : Parsed r) (short : b.docRoot.length < filenameLen)
    (long : file.length = filenameLen) {k : ℕ}
    (form : url.getD (k + 1) '\x00' = '2' ∨ url.getD (k + 1) '\x00' = '3') :
    Safe (fun s => ∀ k : ℕ, k ∈ s.scanned → (k : ℤ) ≤ r.contentLength)
      (b.prepareForm users r (url.getD (k + 1) '\x00') file url >>= fun s =>
        b.prepareFile (urlByte url s.url (k + 1)) s) ↔
      FormFits r url (url.getD (k + 1) '\x00') := by
  have visible : k + 1 < url.length := by
    by_contra beyond
    rw [List.getD_eq_getElem?_getD, List.getElem?_eq_none (not_lt.mp beyond)] at form
    exact absurd form (by decide)
  have room : b.docRoot.length + b.room ≤ file.length := by
    rw [long]
    unfold Backend.room
    omega
  have file : ∀ (page : String) (users' : Users) (f : Fields) (real : List Char),
      page ∈ userPages →
      (Safe (fun s => ∀ k : ℕ, k ∈ s.scanned → (k : ℤ) ≤ r.contentLength)
        (b.prepareFile (urlByte url page.toList (k + 1))
          ⟨store file b.docRoot.length real, page.toList, users', some f.last⟩) ↔
        (f.last : ℤ) ≤ r.contentLength) := by
    intro page users' f real answer
    rw [safe_prepareFile (q := (f.last : ℤ) ≤ r.contentLength) short
      ((length_store _).trans long) fun _ => by simp, fixedPage_urlByte answer form]
    exact and_iff_right nofun
  unfold prepareForm
  rw [safe_bind, safe_bind, safe_append, safe_bind, safe_append, safe_bind, safe_strncpy, safe_bind,
    safe_fields]
  refine Iff.trans (and_congr_right fun _ => and_congr_right fun _ => and_congr_right fun _ =>
    exists_congr fun f => and_congr_right fun _ => safe_bind.trans
      (safe_answerForm fun page users' answer => file page users' f _ answer)) ?_
  rw [fields_within parsed (Q := fun name password =>
    url.getD (k + 1) '\x00' = '3' → (insertText name password).length < 200)]
  simp only [length_insertText, List.nil_append, List.length_nil, List.length_singleton,
    List.length_drop]
  constructor
  · rintro ⟨-, whole, -, ampersand, name, rest, password, statement⟩
    exact ⟨by omega, ampersand, name, rest, password, statement⟩
  · rintro ⟨whole, ampersand, name, rest, password, statement⟩
    exact ⟨by omega, by omega, room, ampersand, name, rest, password, statement⟩

end Backend

/-- `do_request` respects its arrays if the request fits. -/
theorem respects_parsed (b : Backend) (short : b.docRoot.length < filenameLen) (proxy : ProxyType)
    (decideProxy : Bool) (users : Users) {r : Reader} (parsed : Parsed r) :
    Respects b proxy decideProxy users r ↔
      mismatch proxy decideProxy = true ∨ Fits b.docRoot r := by
  unfold Respects
  refine or_congr_right ?_
  obtain ⟨p, pointer, -⟩ := parsed.url
  have long : (store (List.replicate filenameLen '\x00') 0 (b.docRoot ++ ['\x00'])).length =
      filenameLen := (length_store _).trans List.length_replicate
  have copied : 0 + b.docRoot.length < (List.replicate filenameLen '\x00').length := by
    rw [List.length_replicate]
    omega
  unfold Backend.prepare Backend.rootFile Fits
  rw [safe_bind, safe_strcpy, and_iff_right copied, pointer]
  simp only [Option.mem_def, Option.some.injEq, forall_eq']
  cases slash : lastSlash (strAt r.readBuf p) with
  | none => exact iff_of_true trivial nofun
  | some k =>
    simp only [Option.some.injEq, forall_eq']
    split
    case isTrue form =>
      have digit := form
      simp only [isForm, Bool.and_eq_true, Bool.or_eq_true, beq_iff_eq] at digit
      exact Backend.safe_form parsed short long digit.2
    case isFalse =>
      refine (Backend.safe_prepareFile (q := True) short long
        fun _ => iff_of_true nofun trivial).trans ?_
      rw [and_true]
      rfl

/-- Every request that is read respects the arrays of `do_request` if and only if it fits,
or is turned away before them. -/
theorem respects_iff (b : Backend) (short : b.docRoot.length < filenameLen) (proxy : ProxyType)
    (users : Users) {c r : Reader} {decideProxy : Bool} (reads : Reads proxy c)
    (called : c.loop proxy .ok true = (.request, decideProxy, r)) :
    Respects b proxy decideProxy users r ↔ mismatch proxy decideProxy = true ∨ Fits b.docRoot r :=
  respects_parsed b short proxy decideProxy users (parsed_of_reads reads called)

/-- A server without files. -/
def emptyServer : Backend := ⟨"/srv/src/root".toList, by decide, fun _ => none, fun _ => false⟩

/-- The login of a user. -/
def loginForm : Reader :=
  unused.init.feed "POST /2 HTTP/1.1\r\nContent-length: 19\r\n\r\nuser=ann&password=x".toList

theorem respects_login :
    let r := (loginForm.loop .noProxy .ok true).2.2
    (r.nameField = "ann".toList ∧ r.passwordField = "x".toList) ∧
      (Respects emptyServer .noProxy true (initmysqlResult []) r ↔
        mismatch .noProxy true = true ∨ Fits emptyServer.docRoot r) := by
  refine ⟨by decide +kernel, respects_iff emptyServer (by decide) .noProxy _
    (.feed (.init unused) (by decide +kernel)) (c := loginForm) ?_⟩
  decide +kernel

/-- A form of two bytes: the scan for `&` leaves the body. -/
def shortForm : Reader :=
  unused.init.feed "POST /2 HTTP/1.1\r\nContent-length: 2\r\n\r\nab".toList

theorem not_respects :
    ¬ ∀ (b : Backend), b.docRoot.length < filenameLen → ∀ proxy users (c r : Reader) decideProxy,
      Reads proxy c → c.loop proxy .ok true = (.request, decideProxy, r) →
      Respects b proxy decideProxy users r := by
  intro respects
  have reads : Reads .noProxy shortForm := .feed (.init unused) (by decide +kernel)
  have called : shortForm.loop .noProxy .ok true =
      (.request, true, (shortForm.loop .noProxy .ok true).2.2) := by
    decide +kernel
  have kept := respects emptyServer (by decide) .noProxy (initmysqlResult []) _ _ _ reads called
  have fits := ((respects_parsed emptyServer (by decide) .noProxy true (initmysqlResult [])
    (parsed_of_reads reads called)).mp kept).resolve_left (by decide)
  have form := fits 5 (by decide +kernel) 0 (by decide +kernel)
  rw [if_pos (by decide +kernel)] at form
  exact absurd form.ampersand (by decide +kernel)

end CoroutineService.Http
