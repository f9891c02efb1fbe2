import CoroutineService.Http.Parser
import CoroutineService.Http.Users

/-!
# Serving a request

`do_request` composes the path of the file to be served in `m_real_file`. For a form it
first takes the name and the password out of the body and asks for the user. The
arrays it writes to are as long as in the source, and a write outside of them is an
outcome of its own.

## Main definitions

* `Fault`, `strcpy`, `strncpy`, `append`: writing to arrays of fixed size
* `copyUntil`, `Reader.fields`: the form fields
* `buildInsert`: the text of the `INSERT`
* `Backend`: the document root, the files and the database
* `Backend.prepare`, `Backend.doRequest`

## Main results

* `copyUntil_eq_ok_iff`: what the scanning loops find
* `Backend.doRequest_ne_noRequest`: a request is never asked for again
-/

set_option autoImplicit false

namespace CoroutineService.Http

open CString CoroutineService.Containers

/-- `FILENAME_LEN`. -/
def filenameLen : ℕ := 200

/-- What ends a call of `do_request`, or of `process_read`, too early. -/
inductive Fault
  /-- A write outside of an array. -/
  | overflow
  /-- A read from outside of `m_read_buf`, or through `m_string` when no body was parsed. -/
  | overrun
  /-- A read through the null pointer that `strrchr` returns. -/
  | noSlash
  /-- Undefined behaviour in the loop of `process_read`. -/
  | parsing
  deriving DecidableEq, Repr

/-! ### Arrays -/

/-- `strcpy(dst + p, text)`. -/
def strcpy (dst : List Char) (p : ℕ) (text : List Char) : Except Fault (List Char) :=
  if p + text.length < dst.length then .ok (store dst p (text ++ ['\x00'])) else .error .overflow

/-- `strncpy(dst + p, text, n)`. -/
def strncpy (dst : List Char) (p : ℕ) (text : List Char) (n : ℕ) : Except Fault (List Char) :=
  if p + n ≤ dst.length then .ok (store dst p ((text ++ List.replicate n '\x00').take n))
  else .error .overflow

/-- `strcat` to the string `s` in an array of this size, or `strcpy` if `s` is empty. -/
def append (size : ℕ) (s text : List Char) : Except Fault (List Char) :=
  if s.length + text.length < size then .ok (s ++ text) else .error .overflow

/-- Copy from place `i` on up to `stop`, into an array with this much room. The result
also tells where `stop` was found. -/
def copyUntil (read : ℕ → Except Fault Char) (stop : Char) :
    ℕ → ℕ → Except Fault (List Char × ℕ)
  | 0, _ => .error .overflow
  | room + 1, i =>
    match read i with
    | .error fault => .error fault
    | .ok c =>
      if c = stop then .ok ([], i)
      else
        match copyUntil read stop room (i + 1) with
        | .error fault => .error fault
        | .ok (text, j) => .ok (c :: text, j)

section Arrays

variable {dst dst' s s' text : List Char} {p n size : ℕ}

theorem strcpy_eq_ok_iff : strcpy dst p text = .ok dst' ↔
    p + text.length < dst.length ∧ store dst p (text ++ ['\x00']) = dst' := by
  unfold strcpy
  split
  case isTrue inside => simp [inside]
  case isFalse outside => simp [outside]

theorem strncpy_eq_ok_iff : strncpy dst p text n = .ok dst' ↔
    p + n ≤ dst.length ∧ store dst p ((text ++ List.replicate n '\x00').take n) = dst' := by
  unfold strncpy
  split
  case isTrue inside => simp [inside]
  case isFalse outside => simp [outside]

theorem append_eq_ok_iff :
    append size s text = .ok s' ↔ s.length + text.length < size ∧ s ++ text = s' := by
  unfold append
  split
  case isTrue inside => simp [inside]
  case isFalse outside => simp [outside]

theorem append_bind_eq_ok_iff {β : Type} {next : List Char → Except Fault β} {result : β} :
    append size s text >>= next = .ok result ↔
      s.length + text.length < size ∧ next (s ++ text) = .ok result := by
  unfold append
  split
  case isTrue inside => exact (and_iff_right inside).symm
  case isFalse outside => exact iff_of_false nofun fun fits => outside fits.1

variable {read : ℕ → Except Fault Char} {stop c : Char} {room i j : ℕ}

/-- The loop stops at once. -/
theorem copyUntil_stop (here : read i = .ok stop) :
    copyUntil read stop (room + 1) i = .ok ([], i) := by
  unfold copyUntil
  rw [here]
  exact if_pos rfl

/-- The loop copies a character and goes on. -/
theorem copyUntil_next (here : read i = .ok c) (goes : c ≠ stop) :
    copyUntil read stop (room + 1) i = .ok (text, j) ↔
      ∃ rest, text = c :: rest ∧ copyUntil read stop room (i + 1) = .ok (rest, j) := by
  rw [copyUntil, here]
  dsimp only
  rw [if_neg goes]
  cases copyUntil read stop room (i + 1) with
  | error fault => simp
  | ok p => simp [eq_comm, Prod.ext_iff]

/-- What the scanning loops find: a text without the character that stops them, that one
behind it, and room for a NUL. -/
theorem copyUntil_eq_ok_iff : copyUntil read stop room i = .ok (text, j) ↔
    j = i + text.length ∧ text.length < room ∧ read j = .ok stop ∧
      ∀ k, ∀ c ∈ text[k]?, read (i + k) = .ok c ∧ c ≠ stop := by
  induction room generalizing i text with
  | zero => simp [copyUntil]
  | succ room ih =>
    cases here : read i with
    | error fault =>
      refine iff_of_false ?_ ?_
      · rw [copyUntil, here]
        exact nofun
      · rintro ⟨rfl, -, found, passed⟩
        cases text with
        | nil => exact absurd (here.symm.trans found) nofun
        | cons c rest => exact absurd (here.symm.trans (passed 0 c rfl).1) nofun
    | ok c =>
      by_cases stops : c = stop
      · subst stops
        rw [copyUntil_stop here]
        constructor
        · rintro ⟨⟩
          exact ⟨rfl, Nat.succ_pos _, here, fun k c mem => nomatch mem⟩
        · rintro ⟨rfl, -, found, passed⟩
          cases text with
          | nil => rfl
          | cons d rest =>
            obtain ⟨read', differs⟩ := passed 0 d rfl
            exact absurd (Except.ok.inj (read'.symm.trans here)) differs
      -- One character is copied, and the rest is found from the next place on.
      · rw [copyUntil_next here stops]
        constructor
        · rintro ⟨rest, rfl, onward⟩
          obtain ⟨rfl, fits, found, passed⟩ := ih.mp onward
          refine ⟨by rw [List.length_cons]; omega, Nat.succ_lt_succ fits, found, fun k d mem => ?_⟩
          cases k with
          | zero =>
            obtain rfl := Option.some_inj.mp mem
            exact ⟨here, stops⟩
          | succ k =>
            have place : i + (k + 1) = i + 1 + k := by omega
            rw [place]
            exact passed k d mem
        · rintro ⟨rfl, fits, found, passed⟩
          cases text with
          | nil => exact absurd (Except.ok.inj (here.symm.trans found)) stops
          | cons d rest =>
            obtain rfl : c = d := Except.ok.inj (here.symm.trans (passed 0 d rfl).1)
            refine ⟨rest, rfl, ih.mpr ⟨by rw [List.length_cons]; omega, Nat.lt_of_succ_lt_succ fits,
              found, fun k e mem => ?_⟩⟩
            have place : i + (k + 1) = i + 1 + k := by omega
            exact place ▸ passed (k + 1) e mem

end Arrays

/-! ### The form -/

/-- The fields of a form, as C strings, and the last place of `m_string` that was read. -/
structure Fields where
  name : List Char
  password : List Char
  last : ℕ
  deriving DecidableEq, Repr

namespace Reader

variable (r : Reader)

/-- `m_string[i]`. The byte behind a full `m_read_buf` is zero once the body is parsed. -/
def body (i : ℕ) : Except Fault Char :=
  match r.string with
  | none => .error .overrun
  | some text =>
    if text + i ≤ readBufferSize then .ok (charAt r.readBuf (text + i)) else .error .overrun

/-- The two loops over the body, with `name[100]` and `password[100]`. -/
def fields : Except Fault Fields :=
  match copyUntil r.body '&' 100 5 with
  | .error fault => .error fault
  | .ok (name, i) =>
    match copyUntil r.body '\x00' 100 (i + 10) with
    | .error fault => .error fault
    -- The name is stopped by '&' alone, so that a NUL in it ends it early.
    | .ok (password, j) => .ok ⟨name.takeWhile (· ≠ '\x00'), password, j⟩

/-- `strrchr(m_url, '/')`, from the beginning of `m_url`. -/
def lastSlash (url : List Char) : Option ℕ :=
  (url.reverse.findIdx? (· = '/')).map fun k => url.length - 1 - k

end Reader

/-- The statement built in `sql_insert[200]`. -/
def buildInsert (name password : List Char) : Except Fault (List Char) := do
  let sql ← append 200 [] "INSERT INTO user(username, passwd) VALUES(".toList
  let sql ← append 200 sql "'".toList
  let sql ← append 200 sql name
  let sql ← append 200 sql "', '".toList
  let sql ← append 200 sql password
  append 200 sql "')".toList

/-- The statement, if `sql_insert` is long enough for it. -/
def insertText (name password : List Char) : List Char :=
  "INSERT INTO user(username, passwd) VALUES(".toList ++
    '\'' :: (name ++ ('\'' :: ',' :: ' ' :: '\'' :: (password ++ ['\'', ')'])))

theorem length_insertText (name password : List Char) :
    (insertText name password).length = 49 + name.length + password.length := by
  unfold insertText
  have front : "INSERT INTO user(username, passwd) VALUES(".toList.length = 42 := by decide
  simp only [List.length_append, List.length_cons, List.length_nil, front]
  omega

/-- The statement as it is put together. -/
theorem insertText_eq (name password : List Char) : insertText name password =
    ((((([] ++ "INSERT INTO user(username, passwd) VALUES(".toList) ++ "'".toList) ++ name) ++
      "', '".toList) ++ password) ++ "')".toList := by
  unfold insertText
  simp

/-- Every `strcat` fits if the last one does. -/
theorem buildInsert_eq_ok_iff {name password sql : List Char} :
    buildInsert name password = .ok sql ↔
      (insertText name password).length < 200 ∧ insertText name password = sql := by
  unfold buildInsert
  rw [append_bind_eq_ok_iff, append_bind_eq_ok_iff, append_bind_eq_ok_iff, append_bind_eq_ok_iff,
    append_bind_eq_ok_iff, append_eq_ok_iff, ← insertText_eq]
  have whole := congrArg List.length (insertText_eq name password)
  simp only [List.length_append] at whole ⊢
  constructor
  · rintro ⟨-, -, -, -, -, fits, same⟩
    exact ⟨by omega, same⟩
  · rintro ⟨fits, same⟩
    exact ⟨by omega, by omega, by omega, by omega, by omega, by omega, same⟩

/-! ### The request -/

/-- What `stat` finds out about a file. -/
structure Stat where
  mode : ℕ
  size : ℕ
  deriving DecidableEq, Repr

/-- What `do_request` works with: `doc_root`, the files, and the database. -/
structure Backend where
  docRoot : List Char
  isText : '\x00' ∉ docRoot
  stat : List Char → Option Stat
  mysqlQuery : List Char → Bool

/-- The members that `do_request` has written: `m_real_file`, the string at `m_url`, the
users, and the last place of the body that it has read. -/
structure Prepared where
  realFile : List Char
  url : List Char
  users : Users
  scanned : Option ℕ

/-- The pages behind the digits. -/
def fixedPage (kind : Char) : Option String :=
  if kind = '0' then some "/register.html"
  else if kind = '1' then some "/log.html"
  else if kind = '5' then some "/picture.html"
  else if kind = '6' then some "/video.html"
  else if kind = '7' then some "/fans.html"
  else none

/-- Whether this is the form of a login or a registration. -/
def isForm (cgi : Bool) (kind : Char) : Bool := cgi && (kind == '2' || kind == '3')

namespace Backend

variable (b : Backend)

/-- `m_real_file` after `init()` and the first `strcpy`. -/
def rootFile : Except Fault (List Char) :=
  strcpy (List.replicate filenameLen '\x00') 0 b.docRoot

/-- `FILENAME_LEN-len-1`. -/
def room : ℕ := filenameLen - b.docRoot.length - 1

/-- The branch for a form: the page, and the users afterwards. -/
def answerForm (users : Users) (kind : Char) (f : Fields) : Except Fault (String × Users) :=
  -- The statement is built even if the name turns out to be taken.
  if kind = '3' then do
    let sql ← buildInsert f.name f.password
    return register users f.name f.password (b.mysqlQuery sql)
  else return login users f.name f.password

/-- The branch for a form, as a whole. -/
def prepareForm (users : Users) (r : Reader) (kind : Char) (file url : List Char) :
    Except Fault Prepared := do
  -- `m_url+2`, which is the rest of the name only where the form lies in the root.
  let real ← append 200 [] ['/']
  let real ← append 200 real (url.drop 2)
  let file ← strncpy file b.docRoot.length real b.room
  let f ← r.fields
  let (page, users) ← b.answerForm users kind f
  return ⟨file, page.toList, users, some f.last⟩

/-- The branches after it. `kind` is read anew, and `url` may have been overwritten. -/
def prepareFile (kind : Char) (s : Prepared) : Except Fault Prepared := do
  match fixedPage kind with
  | some page =>
    -- No NUL is copied: what follows is that of the array.
    let file ← strncpy s.realFile b.docRoot.length page.toList page.toList.length
    return { s with realFile := file }
  | none =>
    let file ← strncpy s.realFile b.docRoot.length s.url b.room
    return { s with realFile := file }

/-- The byte `k` places behind `m_url` after a page has been copied there. -/
def urlByte (url page : List Char) (k : ℕ) : Char :=
  if k ≤ page.length then page.getD k '\x00' else url.getD k '\x00'

/-- `do_request` up to its call of `stat`. -/
def prepare (users : Users) (r : Reader) : Except Fault Prepared := do
  let file ← b.rootFile
  match r.url with
  | none => .error .noSlash
  | some p =>
    let url := strAt r.readBuf p
    match Reader.lastSlash url with
    | none => .error .noSlash
    | some k =>
      let kind := url.getD (k + 1) '\x00'
      if isForm r.cgi kind then do
        -- `p` points into the buffer that the answer is copied to.
        let s ← b.prepareForm users r kind file url
        b.prepareFile (urlByte url s.url (k + 1)) s
      else b.prepareFile kind ⟨file, url, users, none⟩

/-- `!mode & S_IROTH`, as the source has it. -/
def forbidden (mode : ℕ) : Bool := (if mode = 0 then 1 else 0) &&& 4 ≠ 0

/-- `S_ISDIR`. -/
def isDir (mode : ℕ) : Bool := mode &&& 0o170000 = 0o040000

/-- The rest of `do_request`. A path that is not ended within `m_real_file` is read on. -/
def finish (s : Prepared) : Except Fault HttpCode :=
  if '\x00' ∈ s.realFile then
    match b.stat (strAt s.realFile 0) with
    | none => .ok .noResource
    | some stat =>
      if forbidden stat.mode then .ok .forbiddenRequest
      else if isDir stat.mode then .ok .badRequest
      else .ok .fileRequest
  else .error .overrun

/-- `do_request`. -/
def doRequest (proxy : ProxyType) (decideProxy : Bool) (users : Users) (r : Reader) :
    Except Fault (HttpCode × Users) :=
  if mismatch proxy decideProxy then .ok (.badRequest, users)
  else do
    let s ← b.prepare users r
    let code ← b.finish s
    return (code, s.users)

end Backend

/-! ### The answers -/

/-- The pages that a form is answered with. -/
def userPages : List String :=
  ["/log.html", "/registerError.html", "/welcome.html", "/logError.html"]

theorem register_mem_userPages (users : Users) (name password : List Char) (failed : Bool) :
    (register users name password failed).1 ∈ userPages := by
  unfold register
  dsimp only
  split
  · cases failed with
    | true => exact List.mem_cons_of_mem _ List.mem_cons_self
    | false => exact List.mem_cons_self
  · exact List.mem_cons_of_mem _ List.mem_cons_self

theorem login_mem_userPages (users : Users) (name password : List Char) :
    (login users name password).1 ∈ userPages := by
  unfold login
  dsimp only
  split <;> decide

namespace Backend

/-- Behind a page there is no digit of another one. -/
theorem fixedPage_urlByte {url : List Char} {page : String} (answer : page ∈ userPages) {k : ℕ}
    (form : url.getD (k + 1) '\x00' = '2' ∨ url.getD (k + 1) '\x00' = '3') :
    fixedPage (urlByte url page.toList (k + 1)) = none := by
  unfold urlByte
  split
  case isTrue within =>
    have none : ∀ page ∈ userPages, ∀ i ≤ page.toList.length,
        fixedPage (page.toList.getD i '\x00') = none := by
      decide +kernel
    exact none page answer (k + 1) within
  case isFalse =>
    rcases form with digit | digit <;> rw [digit] <;> decide

/-- A request is never asked for again. -/
theorem doRequest_ne_noRequest {b : Backend} {proxy : ProxyType} {decideProxy : Bool}
    {users users' : Users} {r : Reader} {code : HttpCode}
    (answered : b.doRequest proxy decideProxy users r = .ok (code, users')) :
    code ≠ .noRequest := by
  have finished : ∀ s code, b.finish s = .ok code → code ≠ .noRequest := by
    intro s code done
    unfold finish at done
    split at done
    · split at done
      · cases done
        exact nofun
      · split_ifs at done <;> cases done <;> exact nofun
    · cases done
  unfold doRequest at answered
  split at answered
  · cases answered
    exact nofun
  · obtain ⟨s, -, served⟩ := exists_of_bind answered
    obtain ⟨code', done, same⟩ := exists_of_bind served
    cases same
    exact finished s _ done

end Backend

end CoroutineService.Http
