import CoroutineService.Containers.CString
import CoroutineService.Http.Response
import Mathlib.Data.List.DropRight

/-!
# Reading a request

`process_read` looks for lines in `m_read_buf` and reads the request line, the headers
and the body off them. It is called whenever bytes have been appended to the buffer,
and keeps how far it got in `m_checked_idx`, `m_start_line` and `m_check_state`.

## Main definitions

* `Reader`: the members of `http_conn` that concern a request
* `Reader.parseLine`, `Reader.parseRequestLine`, `Reader.parseHeaders`, `Reader.parseContent`
* `Reader.loop`: the loop of `process_read`
* `Server`: what `do_request` does once it has let a request pass
* `Reader.processRead`

## Main results

* `Reader.loop_of_ok`, `Reader.loop_of_stuck`, `Reader.loop_body`: one round of the loop
* `Reader.loop_rule`: what holds when the loop ends
-/

set_option autoImplicit false

namespace CoroutineService.Http

open CString

/-- `CHECK_STATE`. -/
inductive CheckState
  | requestLine | header | content
  deriving DecidableEq, Repr

theorem CheckState.eq_or (s : CheckState) : s = .requestLine ∨ s = .header ∨ s = .content := by
  cases s with
  | requestLine => exact .inl rfl
  | header => exact .inr (.inl rfl)
  | content => exact .inr (.inr rfl)

/-- `LINE_STATUS`. -/
inductive LineStatus
  | ok | bad | open
  deriving DecidableEq, Repr

/-- `METHOD`, as far as requests are accepted. -/
inductive Method
  | get | post
  deriving DecidableEq, Repr

/-- `ProxyType`: `0` with nginx, `1` without a proxy. -/
inductive ProxyType
  | nginx | noProxy
  deriving DecidableEq, Repr

/-- `READ_BUFFER_SIZE`. -/
def readBufferSize : ℕ := 2048

/-! ### Undefined behaviour -/

/-- How a pointer that is passed to a function of `string.h` can be wrong: it is null, or
no NUL is reached from it in the buffer. -/
inductive PointerFault
  | null | outside
  deriving DecidableEq, Repr

/-- A pointer is passed to a function of `string.h`. -/
def strArg (m : List Char) : Option ℕ → Except PointerFault ℕ
  | none => .error .null
  | some p => if IsCStr m p then .ok p else .error .outside

/-- The places that `strcat` writes to. -/
def strcatStores (m : List Char) (p : ℕ) (text : String) : List ℕ :=
  List.range' (p + strlen m p) (text.toList.length + 1)

/-- A value of type `long`. -/
def IsLong (n : ℤ) : Prop := -2 ^ 63 ≤ n ∧ n < 2 ^ 63

instance (n : ℤ) : Decidable (IsLong n) := inferInstanceAs (Decidable (_ ∧ _))

/-- The sum of two values of type `long`, unless it overflows. -/
def addLong (m n : ℤ) : Option ℤ := if IsLong (m + n) then some (m + n) else none

section faults

variable {m : List Char} {p q : ℕ} {n n' : ℤ}

theorem strArg_ok (str : IsCStr m p) : strArg m (some p) = .ok p := if_pos str

theorem strArg_eq_ok_iff : strArg m (some p) = .ok q ↔ IsCStr m p ∧ p = q := by
  unfold strArg
  by_cases str : IsCStr m p
  · simp [str]
  · simp [str]

theorem addLong_eq (inside : IsLong (n + n')) : addLong n n' = some (n + n') := if_pos inside

/-- A computation in two parts ends well if both of them do. -/
theorem exists_of_bind {ε α β : Type} {x : Except ε α} {next : α → Except ε β} {b : β}
    (ends : x >>= next = .ok b) : ∃ a, x = .ok a ∧ next a = .ok b := by
  cases x with
  | error fault => cases ends
  | ok a => exact ⟨a, rfl, ends⟩

end faults

/-! ### The reader -/

/-- The members of `http_conn` that concern a request. `readBuf` is the content of
`m_read_buf` below `m_read_idx`, and the pointers into it are offsets. -/
structure Reader where
  readBuf : List Char
  checkedIdx : ℕ
  startLine : ℕ
  checkState : CheckState
  method : Method
  url : Option ℕ
  version : Option ℕ
  host : Option ℕ
  contentLength : ℤ
  cgi : Bool
  string : Option ℕ
  deriving DecidableEq, Repr

namespace Reader

variable (r : Reader)

/-- `m_read_idx`. -/
def readIdx : ℕ := r.readBuf.length

/-- `init()`. It leaves `m_string` as it is. -/
def init : Reader :=
  { r with
    readBuf := []
    checkedIdx := 0
    startLine := 0
    checkState := .requestLine
    method := .get
    url := none
    version := none
    host := none
    contentLength := 0
    cgi := false }

/-- Bytes are appended to `m_read_buf`. -/
def feed (bytes : List Char) : Reader := { r with readBuf := r.readBuf ++ bytes }

/-! ### Lines -/

/-- The loop of `parse_line` over the `remaining` bytes from `i` on. -/
def scan (buf : List Char) : ℕ → ℕ → LineStatus × List Char × ℕ
  | 0, i => (.open, buf, i)
  | remaining + 1, i =>
    if charAt buf i = '\r' then
      -- The '\n' may still come.
      if i + 1 = buf.length then (.open, buf, i)
      else if charAt buf (i + 1) = '\n' then
        (.ok, (buf.set i '\x00').set (i + 1) '\x00', i + 2)
      else scan buf remaining (i + 1)
    else if charAt buf i = '\n' then
      -- The '\r' was the last byte of an earlier call.
      if i > 1 ∧ charAt buf (i - 1) = '\r' then
        (.ok, (buf.set (i - 1) '\x00').set i '\x00', i + 1)
      else (.bad, buf, i)
    else scan buf remaining (i + 1)

/-- `parse_line`. -/
def parseLine : LineStatus × Reader :=
  let (status, buf, i) := scan r.readBuf (r.readIdx - r.checkedIdx) r.checkedIdx
  (status, { r with readBuf := buf, checkedIdx := i })

/-! ### The request line -/

/-- The step of `parse_request_line` past a scheme, with the pointer as it is then. -/
def skipScheme (scheme : String) (url : Option ℕ) : Except PointerFault (Option ℕ) := do
  let url ← strArg r.readBuf url
  if strncasecmp r.readBuf url scheme then
    let rest ← strArg r.readBuf (some (url + scheme.toList.length))
    return strchr r.readBuf rest '/'
  else return some url

/-- `parse_request_line` from the first `strncasecmp` on. `stores` are the places that have been
written to. -/
def parseUrl (url : ℕ) (stores : List ℕ) : Except PointerFault (HttpCode × Reader × List ℕ) := do
  let url ← r.skipScheme "http://" (some url)
  -- If nothing but a host follows `http://`, the pointer is null here.
  let url ← r.skipScheme "https://" url
  match url with
  | none => return (.badRequest, { r with url := none }, stores)
  | some url =>
    if charAt r.readBuf url ≠ '/' then return (.badRequest, { r with url := some url }, stores)
    else
      let page ← strArg r.readBuf (some url)
      let accepted := { r with url := some url, checkState := .header }
      -- The page is appended in place, over the version and what follows it.
      if strlen r.readBuf page = 1 then
        return (.noRequest, { accepted with readBuf := strcat r.readBuf page "judge.html" },
          stores ++ strcatStores r.readBuf page "judge.html")
      else return (.noRequest, accepted, stores)

/-- `parse_request_line` after the method. -/
def parseTarget (url : ℕ) (stores : List ℕ) :
    Except PointerFault (HttpCode × Reader × List ℕ) := do
  let url ← strArg r.readBuf (some url)
  let url ← strArg r.readBuf (some (url + strspn r.readBuf url [' ', '\t']))
  match strpbrk r.readBuf url [' ', '\t'] with
  | none => return (.badRequest, { r with url := some url, version := none }, stores)
  | some space =>
    let buf := r.readBuf.set space '\x00'
    let version ← strArg buf (some (space + 1))
    let version ← strArg buf (some (version + strspn buf version [' ', '\t']))
    let r := { r with readBuf := buf, url := some url, version := some version }
    if strcasecmp buf version "HTTP/1.1" then r.parseUrl url (stores ++ [space])
    else return (.badRequest, r, stores ++ [space])

/-- `parse_request_line`, with the places that it writes to. -/
def parseRequestLine (text : ℕ) : Except PointerFault (HttpCode × Reader × List ℕ) := do
  let text ← strArg r.readBuf (some text)
  match strpbrk r.readBuf text [' ', '\t'] with
  | none => return (.badRequest, { r with url := none }, [])
  | some space =>
    let buf := r.readBuf.set space '\x00'
    let r := { r with readBuf := buf, url := some (space + 1) }
    let method ← strArg buf (some text)
    if strcasecmp buf method "GET" then
      ({ r with method := .get } : Reader).parseTarget (space + 1) [space]
    else if strcasecmp buf method "POST" then
      ({ r with method := .post, cgi := true } : Reader).parseTarget (space + 1) [space]
    else return (.badRequest, r, [space])

/-! ### Headers and body -/

/-- `text += n; text += strspn(text, " \t")`. -/
def valueAt (text n : ℕ) : ℕ := text + n + strspn r.readBuf (text + n) [' ', '\t']

/-- `parse_headers`, with the new value of `decide_proxy`. -/
def parseHeaders (proxy : ProxyType) (text : ℕ) (decideProxy : Bool) : HttpCode × Bool × Reader :=
  if charAt r.readBuf text = '\x00' then
    if r.contentLength ≠ 0 then (.noRequest, decideProxy, { r with checkState := .content })
    else (.getRequest, decideProxy, r)
  -- What the client wishes is not asked for any more: `m_linger` is the server's choice.
  else if strncasecmp r.readBuf text "Connection:" then (.noRequest, decideProxy, r)
  else if strncasecmp r.readBuf text "Content-length:" then
    (.noRequest, decideProxy, { r with contentLength := atol r.readBuf (r.valueAt text 15) })
  else if strncasecmp r.readBuf text "Host:" then
    (.noRequest, decideProxy, { r with host := some (r.valueAt text 5) })
  else if strncasecmp r.readBuf text "X-Forwarded-By:" then
    match proxy with
    | .noProxy => (.badRequest, decideProxy, r)
    | .nginx => (.noRequest, false, r)
  else (.noRequest, decideProxy, r)

/-- Storing a NUL at a place. What lies outside of the list is left alone. -/
def storeNul (buf : List Char) : ℤ → List Char
  | .ofNat i => buf.set i '\x00'
  | .negSucc _ => buf

/-- `parse_content`, with the place of the NUL in `m_read_buf`. There is no result if the sum
overflows. A NUL behind the bytes read so far is there already, also the one behind a full
`m_read_buf`, which is the low byte of `m_read_idx` then. -/
def parseContent (text : ℕ) : Option (HttpCode × Reader × Option ℤ) := do
  let stop ← addLong r.contentLength r.checkedIdx
  let place := text + r.contentLength
  if (r.readIdx : ℤ) ≥ stop then
    return (.getRequest, { r with readBuf := storeNul r.readBuf place, string := some text }, place)
  else return (.noRequest, r, none)

end Reader

/-- There is a URL. It begins with a slash, or a NUL has been stored there since. -/
def HasUrl (r : Reader) : Prop :=
  ∃ p, r.url = some p ∧ p < r.readBuf.length ∧
    (charAt r.readBuf p = '/' ∨ charAt r.readBuf p = '\x00')

/-! ### The loop -/

/-- How the loop of `process_read` ends: with `BAD_REQUEST`, with a call of `do_request`, by its
condition, or in undefined behaviour, after which nothing is known. -/
inductive Exit
  | bad | request | left | fault
  deriving DecidableEq, Repr

/-- What a pass through the body of the loop does: `line_status` and `decide_proxy` for
the next pass, or the end. -/
inductive Turn
  | ends (exit : Exit) (decideProxy : Bool) (r : Reader)
  | goesOn (status : LineStatus) (decideProxy : Bool) (r : Reader)

/-- The reader when a pass through the body of the loop ends. -/
def Turn.reader : Turn → Reader
  | .ends _ _ r => r
  | .goesOn _ _ r => r

namespace Reader

variable (proxy : ProxyType) (r : Reader)

/-- The body of the loop. `line_status` is `LINE_OK` when it is entered. -/
def turn (decideProxy : Bool) : Turn :=
  let text := r.startLine
  let r := { r with startLine := r.checkedIdx }
  match r.checkState with
  | .requestLine =>
    match r.parseRequestLine text with
    | .error _ => .ends .fault decideProxy r
    | .ok (ret, r, _) =>
      if ret = .badRequest then .ends .bad decideProxy r else .goesOn .ok decideProxy r
  | .header =>
    let (ret, decideProxy, r) := r.parseHeaders proxy text decideProxy
    if ret = .badRequest then .ends .bad decideProxy r
    else if ret = .getRequest then .ends .request decideProxy r
    else .goesOn .ok decideProxy r
  | .content =>
    match r.parseContent text with
    | none => .ends .fault decideProxy r
    | some (ret, r', place) =>
      -- The NUL is stored before `m_read_buf`.
      if ∃ i ∈ place, i < 0 then .ends .fault decideProxy r
      else if ret = .getRequest then .ends .request decideProxy r'
      -- The rest of the body is awaited by `parse_line`.
      else .goesOn .open decideProxy r'

/-! The loop ends: a line takes at least one byte, and the body is looked at once
between two lines. -/

/-- Two readers have read up to the same place. -/
structure SamePlace (r r' : Reader) : Prop where
  readIdx : r'.readBuf.length = r.readBuf.length
  checkedIdx : r'.checkedIdx = r.checkedIdx
  startLine : r'.startLine = r.startLine

section place

variable {proxy r}

theorem SamePlace.refl (r : Reader) : SamePlace r r := ⟨rfl, rfl, rfl⟩

/-- What a parsed request line leaves as it was, and what it changes. It is refused, or leads to
the headers with a URL. -/
structure LineParsed (r : Reader) (code : HttpCode) (r' : Reader) : Prop where
  place : SamePlace r r'
  contentLength : r'.contentLength = r.contentLength
  result : code = .badRequest ∧ r'.checkState = r.checkState ∨
    code = .noRequest ∧ r'.checkState = .header ∧ HasUrl r'

/-- A line that is refused before anything has been stored. -/
theorem LineParsed.refused {r' : Reader} (place : SamePlace r r')
    (length : r'.contentLength = r.contentLength) (state : r'.checkState = r.checkState) :
    LineParsed r .badRequest r' :=
  ⟨place, length, .inl ⟨rfl, state⟩⟩

/-- What is known of a line once a NUL has been stored, and members have been set. -/
theorem LineParsed.of_store {r' r'' : Reader} {code : HttpCode} {i : ℕ}
    (parsed : LineParsed r' code r'') (stored : r'.readBuf = r.readBuf.set i '\x00')
    (checked : r'.checkedIdx = r.checkedIdx) (start : r'.startLine = r.startLine)
    (length : r'.contentLength = r.contentLength) (state : r'.checkState = r.checkState) :
    LineParsed r code r'' := by
  obtain ⟨⟨read, checked', start'⟩, length', result⟩ := parsed
  have same : r'.readBuf.length = r.readBuf.length := by rw [stored, List.length_set]
  refine ⟨⟨read.trans same, checked'.trans checked, start'.trans start⟩, length'.trans length, ?_⟩
  rwa [state] at result

theorem lineParsed_parseUrl {url : ℕ} {stores stores' : List ℕ} {code : HttpCode} {r' : Reader}
    (parsed : r.parseUrl url stores = .ok (code, r', stores')) : LineParsed r code r' := by
  unfold parseUrl at parsed
  obtain ⟨behindHttp, -, parsed⟩ := exists_of_bind parsed
  obtain ⟨behindHttps, -, parsed⟩ := exists_of_bind parsed
  cases behindHttps with
  | none =>
    cases parsed
    exact .refused ⟨rfl, rfl, rfl⟩ rfl rfl
  | some page =>
    dsimp only at parsed
    split at parsed
    · cases parsed
      exact .refused ⟨rfl, rfl, rfl⟩ rfl rfl
    next slash =>
    have first : charAt r.readBuf page = '/' := not_not.mp slash
    have inside : page < r.readBuf.length := by
      by_contra beyond
      unfold charAt at first
      rw [List.getD_eq_getElem?_getD, List.getElem?_eq_none (not_lt.mp beyond)] at first
      exact absurd first (by decide)
    obtain ⟨page', arg, parsed⟩ := exists_of_bind parsed
    obtain ⟨-, rfl⟩ := strArg_eq_ok_iff.mp arg
    split at parsed
    · next one =>
      cases parsed
      have kept : charAt (strcat r.readBuf page "judge.html") page = '/' := by
        unfold strcat
        rw [charAt_store_of_notMem, first]
        rw [List.mem_range'_1]
        omega
      refine ⟨⟨length_strcat _, rfl, rfl⟩, rfl, .inr ⟨rfl, rfl, page, rfl, ?_, .inl kept⟩⟩
      exact inside.trans_eq (length_strcat _).symm
    · cases parsed
      exact ⟨⟨rfl, rfl, rfl⟩, rfl, .inr ⟨rfl, rfl, page, rfl, inside, .inl first⟩⟩

theorem lineParsed_parseTarget {url : ℕ} {stores stores' : List ℕ} {code : HttpCode} {r' : Reader}
    (parsed : r.parseTarget url stores = .ok (code, r', stores')) : LineParsed r code r' := by
  unfold parseTarget at parsed
  obtain ⟨start, -, parsed⟩ := exists_of_bind parsed
  obtain ⟨target, -, parsed⟩ := exists_of_bind parsed
  dsimp only at parsed
  split at parsed
  · cases parsed
    exact .refused ⟨rfl, rfl, rfl⟩ rfl rfl
  · obtain ⟨behind, -, parsed⟩ := exists_of_bind parsed
    obtain ⟨version, -, parsed⟩ := exists_of_bind parsed
    split at parsed
    · exact (lineParsed_parseUrl parsed).of_store rfl rfl rfl rfl rfl
    · cases parsed
      exact .refused ⟨List.length_set, rfl, rfl⟩ rfl rfl

/-- What `parse_request_line` does if it passes good pointers. -/
theorem lineParsed_parseRequestLine {text : ℕ} {stores : List ℕ} {code : HttpCode} {r' : Reader}
    (parsed : r.parseRequestLine text = .ok (code, r', stores)) : LineParsed r code r' := by
  unfold parseRequestLine at parsed
  obtain ⟨line, -, parsed⟩ := exists_of_bind parsed
  dsimp only at parsed
  split at parsed
  · cases parsed
    exact .refused ⟨rfl, rfl, rfl⟩ rfl rfl
  · obtain ⟨method, -, parsed⟩ := exists_of_bind parsed
    split at parsed
    · exact (lineParsed_parseTarget parsed).of_store rfl rfl rfl rfl rfl
    split at parsed
    · exact (lineParsed_parseTarget parsed).of_store rfl rfl rfl rfl rfl
    · cases parsed
      exact .refused ⟨List.length_set, rfl, rfl⟩ rfl rfl

theorem samePlace_parseHeaders (text : ℕ) (decideProxy : Bool) :
    SamePlace r (r.parseHeaders proxy text decideProxy).2.2 := by
  unfold parseHeaders
  repeat' split
  all_goals exact ⟨rfl, rfl, rfl⟩

theorem length_storeNul (buf : List Char) (i : ℤ) : (storeNul buf i).length = buf.length := by
  cases i with
  | ofNat i => exact List.length_set
  | negSucc i => rfl

/-- A line that has been found ends within the bytes read, and takes at least one. -/
theorem scan_ok {buf : List Char} {remaining i : ℕ} (here : i + remaining = buf.length)
    (found : (scan buf remaining i).1 = .ok) :
    i < (scan buf remaining i).2.2 ∧ (scan buf remaining i).2.2 ≤ buf.length := by
  induction remaining generalizing i with
  | zero => cases found
  | succ remaining ih =>
    have onward : i + 1 + remaining = buf.length := by omega
    have later : (scan buf remaining (i + 1)).1 = .ok →
        i < (scan buf remaining (i + 1)).2.2 ∧
          (scan buf remaining (i + 1)).2.2 ≤ buf.length := fun found =>
      ⟨Nat.lt_of_succ_lt (ih onward found).1, (ih onward found).2⟩
    unfold scan at found ⊢
    split_ifs at found ⊢
    · exact ⟨Nat.lt_add_of_pos_right Nat.two_pos, by dsimp only; omega⟩
    · exact later found
    · exact ⟨Nat.lt_succ_self i, by dsimp only; omega⟩
    · exact later found

theorem length_scan (buf : List Char) (remaining i : ℕ) :
    (scan buf remaining i).2.1.length = buf.length := by
  induction remaining generalizing i with
  | zero => rfl
  | succ remaining ih =>
    unfold scan
    repeat' split
    all_goals simp [ih]

/-- The line found by `parse_line` ends within the bytes read, and takes at least one. -/
theorem parseLine_ok {r' : Reader} (found : r.parseLine = (.ok, r')) :
    r'.readBuf.length = r.readBuf.length ∧ r'.checkState = r.checkState ∧
      r.checkedIdx < r'.checkedIdx ∧ r'.checkedIdx ≤ r.readBuf.length := by
  have status : (scan r.readBuf (r.readIdx - r.checkedIdx) r.checkedIdx).1 = .ok :=
    congrArg Prod.fst found
  have reader : r.parseLine.2 = r' := congrArg Prod.snd found
  by_cases inside : r.checkedIdx ≤ r.readBuf.length
  · have ends := scan_ok (Nat.add_sub_cancel' inside) status
    subst reader
    exact ⟨length_scan _ _ _, rfl, ends⟩
  · have nothing : r.readIdx - r.checkedIdx = 0 := by
      unfold readIdx
      omega
    rw [nothing] at status
    cases status

/-- A pass reads a request line, a header, or the body. -/
theorem turn_requestLine {decideProxy : Bool} (state : r.checkState = .requestLine)
    {ret : HttpCode} {r' : Reader} {stores : List ℕ}
    (parsed : { r with startLine := r.checkedIdx }.parseRequestLine r.startLine =
      .ok (ret, r', stores)) :
    r.turn proxy decideProxy =
      if ret = .badRequest then .ends .bad decideProxy r' else .goesOn .ok decideProxy r' := by
  unfold turn
  dsimp only
  split
  · rw [parsed]
  · next state' => exact absurd (state.symm.trans state') nofun
  · next state' => exact absurd (state.symm.trans state') nofun

theorem turn_requestLine_error {decideProxy : Bool} (state : r.checkState = .requestLine)
    {fault : PointerFault}
    (failed : { r with startLine := r.checkedIdx }.parseRequestLine r.startLine = .error fault) :
    r.turn proxy decideProxy = .ends .fault decideProxy { r with startLine := r.checkedIdx } := by
  unfold turn
  dsimp only
  split
  · rw [failed]
  · next state' => exact absurd (state.symm.trans state') nofun
  · next state' => exact absurd (state.symm.trans state') nofun

theorem turn_header {decideProxy decideProxy' : Bool} (state : r.checkState = .header)
    {ret : HttpCode} {r' : Reader} (parsed : { r with startLine := r.checkedIdx }.parseHeaders proxy
      r.startLine decideProxy = (ret, decideProxy', r')) :
    r.turn proxy decideProxy =
      if ret = .badRequest then .ends .bad decideProxy' r'
      else if ret = .getRequest then .ends .request decideProxy' r'
      else .goesOn .ok decideProxy' r' := by
  unfold turn
  dsimp only
  split
  · next state' => exact absurd (state.symm.trans state') nofun
  · rw [parsed]
  · next state' => exact absurd (state.symm.trans state') nofun

theorem turn_content {decideProxy : Bool} (state : r.checkState = .content) :
    r.turn proxy decideProxy =
      if IsLong (r.contentLength + r.checkedIdx) then
        if (r.readIdx : ℤ) ≥ r.contentLength + r.checkedIdx then
          if 0 ≤ (r.startLine : ℤ) + r.contentLength then
            .ends .request decideProxy { r with
              startLine := r.checkedIdx
              readBuf := storeNul r.readBuf (r.startLine + r.contentLength)
              string := some r.startLine }
          else .ends .fault decideProxy { r with startLine := r.checkedIdx }
        else .goesOn .open decideProxy { r with startLine := r.checkedIdx }
      else .ends .fault decideProxy { r with startLine := r.checkedIdx } := by
  unfold turn parseContent
  dsimp only
  split
  · next state' => exact absurd (state.symm.trans state') nofun
  · next state' => exact absurd (state.symm.trans state') nofun
  unfold addLong readIdx
  dsimp only
  by_cases inside : IsLong (r.contentLength + r.checkedIdx)
  · rw [if_pos inside, if_pos inside]
    dsimp only [bind, Option.bind]
    by_cases complete : (r.readBuf.length : ℤ) ≥ r.contentLength + r.checkedIdx
    · rw [if_pos complete, if_pos complete]
      by_cases behind : 0 ≤ (r.startLine : ℤ) + r.contentLength
      · rw [if_pos behind]
        refine (if_neg ?_).trans (if_pos rfl)
        rintro ⟨i, ⟨⟩, negative⟩
        exact absurd behind (not_le.mpr negative)
      · rw [if_neg behind]
        exact if_pos ⟨_, rfl, not_le.mp behind⟩
    · rw [if_neg complete, if_neg complete]
      refine (if_neg ?_).trans (if_neg nofun)
      rintro ⟨i, ⟨⟩, -⟩
  · rw [if_neg inside, if_neg inside]
    rfl

/-- In a pass the next line begins where the last one has ended, and nothing else moves. -/
theorem samePlace_turn {decideProxy : Bool} :
    SamePlace { r with startLine := r.checkedIdx } (r.turn proxy decideProxy).reader := by
  rcases r.checkState.eq_or with state | state | state
  · cases parsed : { r with startLine := r.checkedIdx }.parseRequestLine r.startLine with
    | error fault =>
      rw [turn_requestLine_error state parsed]
      exact .refl _
    | ok x =>
      obtain ⟨ret, r', stores⟩ := x
      rw [turn_requestLine state parsed]
      have same := (lineParsed_parseRequestLine parsed).place
      split <;> exact same
  · have same := @samePlace_parseHeaders proxy { r with startLine := r.checkedIdx } r.startLine
      decideProxy
    rcases parsed : { r with startLine := r.checkedIdx }.parseHeaders proxy r.startLine decideProxy
      with ⟨ret, decideProxy', r'⟩
    rw [parsed] at same
    rw [turn_header state parsed]
    split_ifs <;> exact same
  · rw [turn_content state]
    split_ifs
    · exact ⟨length_storeNul _ _, rfl, rfl⟩
    · exact .refl _
    · exact .refl _
    · exact .refl _

/-- A pass that goes on has not moved, and has `line_status` open if it was for the body. -/
theorem turn_goesOn {decideProxy decideProxy' : Bool} {status : LineStatus} {r' : Reader}
    (turned : r.turn proxy decideProxy = .goesOn status decideProxy' r') :
    r'.readBuf.length = r.readBuf.length ∧ r'.checkedIdx = r.checkedIdx ∧
      (r.checkState = .content → status = .open) := by
  have same := @samePlace_turn proxy r decideProxy
  rw [turned] at same
  refine ⟨same.readIdx, same.checkedIdx, fun state => ?_⟩
  rw [turn_content state] at turned
  split_ifs at turned
  cases turned
  rfl

end place

/-- The loop of `process_read`, from the test of its condition on. -/
def loop (proxy : ProxyType) (status : LineStatus) (decideProxy : Bool) (r : Reader) :
    Exit × Bool × Reader :=
  -- In the body no line is looked for, unless `line_status` has been set to `LINE_OPEN`.
  if _inBody : r.checkState = .content ∧ status = .ok then
    match _turned : r.turn proxy decideProxy with
    | .ends exit decideProxy r => (exit, decideProxy, r)
    | .goesOn status decideProxy r => loop proxy status decideProxy r
  else
    match _line : r.parseLine with
    | (.ok, r) =>
      match _turned : r.turn proxy decideProxy with
      | .ends exit decideProxy r => (exit, decideProxy, r)
      | .goesOn status decideProxy r => loop proxy status decideProxy r
    | (.bad, r) => (.left, decideProxy, r)
    | (.open, r) => (.left, decideProxy, r)
termination_by 2 * (r.readBuf.length - r.checkedIdx) + if status = .ok then 1 else 0
decreasing_by
  · obtain ⟨length, checked, opened⟩ := turn_goesOn _turned
    rw [length, checked, if_pos _inBody.2, opened _inBody.1, if_neg nofun]
    exact Nat.lt_succ_self _
  · obtain ⟨length, checked, -⟩ := turn_goesOn _turned
    obtain ⟨before, -, further, inside⟩ := parseLine_ok _line
    rw [length, checked, before]
    split_ifs <;> omega

/-! ### Rounds of the loop -/

/-- What follows a pass through the body of the loop. -/
def afterTurn (proxy : ProxyType) : Turn → Exit × Bool × Reader
  | .ends exit decideProxy r => (exit, decideProxy, r)
  | .goesOn status decideProxy r => loop proxy status decideProxy r

variable {proxy r} {status : LineStatus} {decideProxy : Bool}

/-- The body is looked at without a line. -/
theorem loop_body (inBody : r.checkState = .content) :
    loop proxy .ok decideProxy r = afterTurn proxy (r.turn proxy decideProxy) := by
  rw [loop, dif_pos ⟨inBody, rfl⟩]
  split <;> next turned => rw [turned, afterTurn]

/-- A line has been found. -/
theorem loop_of_ok {r' : Reader} (line : ¬(r.checkState = .content ∧ status = .ok))
    (found : r.parseLine = (.ok, r')) :
    loop proxy status decideProxy r = afterTurn proxy (r'.turn proxy decideProxy) := by
  rw [loop, dif_neg line]
  split
  · next found' =>
    cases found.symm.trans found'
    split <;> next turned => rw [turned, afterTurn]
  · next found' => cases found.symm.trans found'
  · next found' => cases found.symm.trans found'

/-- No line has been found. -/
theorem loop_of_stuck {status' : LineStatus} {r' : Reader}
    (line : ¬(r.checkState = .content ∧ status = .ok)) (stuck : status' ≠ .ok)
    (found : r.parseLine = (status', r')) :
    loop proxy status decideProxy r = (.left, decideProxy, r') := by
  rw [loop, dif_neg line]
  split
  · next found' =>
    cases found.symm.trans found'
    exact absurd rfl stuck
  · next found' => cases found.symm.trans found'; rfl
  · next found' => cases found.symm.trans found'; rfl

variable (proxy) in
/-- A round looks at the body, or at the line it has found, or finds none. -/
@[elab_as_elim]
theorem loop_induction {motive : LineStatus → Bool → Reader → Prop}
    (body : ∀ decideProxy r, r.checkState = .content →
      (∀ status' decideProxy' r', r.turn proxy decideProxy = .goesOn status' decideProxy' r' →
        motive status' decideProxy' r') → motive .ok decideProxy r)
    (line : ∀ status decideProxy r r', ¬(r.checkState = .content ∧ status = .ok) →
      r.parseLine = (.ok, r') →
      (∀ status' decideProxy' r'', r'.turn proxy decideProxy = .goesOn status' decideProxy' r'' →
        motive status' decideProxy' r'') → motive status decideProxy r)
    (stuck : ∀ status decideProxy r status' r', ¬(r.checkState = .content ∧ status = .ok) →
      status' ≠ .ok → r.parseLine = (status', r') → motive status decideProxy r)
    (status : LineStatus) (decideProxy : Bool) (r : Reader) : motive status decideProxy r := by
  induction status, decideProxy, r using Reader.loop.induct proxy with
  | case1 status decideProxy r inBody exit decideProxy' r' turned =>
    obtain ⟨state, rfl⟩ := inBody
    exact body decideProxy r state fun _ _ _ other => nomatch turned.symm.trans other
  | case2 status decideProxy r inBody status' decideProxy' r' turned ih =>
    obtain ⟨state, rfl⟩ := inBody
    refine body decideProxy r state fun _ _ _ other => ?_
    cases turned.symm.trans other
    exact ih
  | case3 status decideProxy r notBody r' found exit decideProxy' r'' turned =>
    exact line status decideProxy r r' notBody found fun _ _ _ other =>
      nomatch turned.symm.trans other
  | case4 status decideProxy r notBody r' found status' decideProxy' r'' turned ih =>
    refine line status decideProxy r r' notBody found fun _ _ _ other => ?_
    cases turned.symm.trans other
    exact ih
  | case5 status decideProxy r notBody r' found =>
    exact stuck status decideProxy r .bad r' notBody nofun found
  | case6 status decideProxy r notBody r' found =>
    exact stuck status decideProxy r .open r' notBody nofun found

/-- What the lines and the passes keep holds when the loop ends, by its condition or in a pass. -/
theorem loop_rule {I : Reader → Prop} {Q : Exit → Reader → Prop}
    (line : ∀ r, I r → I r.parseLine.2) (left : ∀ r, I r → Q .left r)
    (pass : ∀ r decideProxy, I r → match r.turn proxy decideProxy with
      | .goesOn _ _ r' => I r'
      | .ends exit _ r' => Q exit r')
    (holds : I r) :
    Q (loop proxy status decideProxy r).1 (loop proxy status decideProxy r).2.2 := by
  have after (r : Reader) (decideProxy : Bool) (holds : I r)
      (onward : ∀ status' decideProxy' r', r.turn proxy decideProxy =
        .goesOn status' decideProxy' r' → I r' →
          Q (loop proxy status' decideProxy' r').1 (loop proxy status' decideProxy' r').2.2) :
      Q (afterTurn proxy (r.turn proxy decideProxy)).1
        (afterTurn proxy (r.turn proxy decideProxy)).2.2 := by
    have result := pass r decideProxy holds
    cases turned : r.turn proxy decideProxy with
    | ends exit decideProxy' r' =>
      rw [turned] at result
      exact result
    | goesOn status' decideProxy' r' =>
      rw [turned] at result
      exact onward status' decideProxy' r' turned result
  induction status, decideProxy, r using loop_induction proxy with
  | body decideProxy r state ih =>
    rw [loop_body state]
    exact after r decideProxy holds ih
  | line status decideProxy r r' notBody found ih =>
    obtain rfl : r.parseLine.2 = r' := congrArg Prod.snd found
    rw [loop_of_ok notBody found]
    exact after _ decideProxy (line r holds) ih
  | stuck status decideProxy r status' r' notBody stuck found =>
    obtain rfl : r.parseLine.2 = r' := congrArg Prod.snd found
    rw [loop_of_stuck notBody stuck found]
    exact left _ (line r holds)

end Reader

/-! ### `process_read` -/

/-- The test that `process_read` makes when its loop is left, and `do_request` first. -/
def mismatch : ProxyType → Bool → Bool
  | .noProxy, decideProxy => !decideProxy
  | .nginx, decideProxy => decideProxy

/-- What `do_request` answers and leaves behind once that test is passed. It depends on
files, on the users and on the database. -/
structure Server where
  answer : Reader → HttpCode
  after : Reader → Reader
  answers : ∀ r, answer r ≠ .noRequest

namespace Server

variable (server : Server) (proxy : ProxyType)

/-- `do_request`. -/
def doRequest (decideProxy : Bool) (r : Reader) : HttpCode × Reader :=
  if mismatch proxy decideProxy then (.badRequest, r) else (server.answer r, server.after r)

/-- The end of `process_read`. After undefined behaviour there is no verdict. -/
def conclude : Exit × Bool × Reader → Option HttpCode × Bool × Reader
  | (.bad, decideProxy, r) => (some .badRequest, decideProxy, r)
  | (.request, decideProxy, r) =>
    let (ret, r) := server.doRequest proxy decideProxy r
    (some ret, decideProxy, r)
  | (.left, decideProxy, r) =>
    (some (if mismatch proxy decideProxy then .badRequest else .noRequest), decideProxy, r)
  | (.fault, decideProxy, r) => (none, decideProxy, r)

/-- `process_read`, with the last value of `decide_proxy`. -/
def processRead (r : Reader) : Option HttpCode × Bool × Reader :=
  server.conclude proxy (r.loop proxy .ok true)

end Server

end CoroutineService.Http
