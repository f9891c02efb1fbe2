import Mathlib.Algebra.Order.Ring.Int
import Mathlib.Data.Int.Notation

/-!
# Preparing a response

`process_write` prints the header of a response into `m_write_buf` and points two
`iovec`s at what `write` is to send: the header block, and the mapped file where
there is one. Memory is named by cells, so that one can tell from which buffer a
byte is taken and at which place.

## Main definitions

* `Cell`, `IoVec`: places in memory and the ranges `writev` is given
* `Conn`: the members of `http_conn` that concern a response
* `processWrite`: the response to the outcome of a request
* `Response`: what `write` starts from

## Main results

* `exists_response`: what `process_write` prepares is a response
-/

set_option autoImplicit false

namespace CoroutineService.Http

/-- A place relative to `m_write_buf` or `m_file_address`. -/
inductive Cell
  | writeBuf (i : ℤ)
  | file (j : ℤ)
  deriving DecidableEq, Repr

/-- The place `k` bytes further on. -/
def Cell.add : Cell → ℕ → Cell
  | .writeBuf i, k => .writeBuf (i + k)
  | .file j, k => .file (j + k)

/-- `struct iovec`. -/
structure IoVec where
  base : Cell
  len : ℕ
  deriving DecidableEq, Repr

/-- The places an `iovec` stands for. -/
def IoVec.cells (v : IoVec) : List Cell := (List.range v.len).map v.base.add

/-- A conversion to `int`. -/
@[irreducible]
def int32 (x : ℤ) : ℤ := Int.bmod x (2 ^ 32)

/-- A conversion to `size_t`. -/
@[irreducible]
def sizeT (x : ℤ) : ℕ := (x % 2 ^ 64).toNat

theorem sizeT_eq {n : ℕ} (high : n < 2 ^ 64) : sizeT n = n := by
  unfold sizeT
  omega

/-- `HTTP_CODE`. -/
inductive HttpCode
  | noRequest | getRequest | badRequest | noResource | forbiddenRequest | fileRequest
  | internalError | closedConnection
  deriving DecidableEq, Repr

/-- `WRITE_BUFFER_SIZE`. -/
def writeBufferSize : ℕ := 1024

/-- The address space that `main` leaves the server with `setrlimit`. -/
def addressSpace : ℕ := 2 * (1000 * 1024 * 1024)

/-- The file of a request. It is mapped as a whole, and `m_file_stat` has its size. -/
structure MappedFile where
  size : ℕ
  fits : size ≤ addressSpace

/-- The members of `http_conn` that concern a response. `writeBuf` is the content of
`m_write_buf` below `m_write_idx`. -/
@[ext]
structure Conn where
  writeBuf : List Char
  iv0 : IoVec
  iv1 : IoVec
  ivCount : ℕ
  bytesToSend : ℤ
  bytesHaveSend : ℤ
  linger : Bool

/-! ### `add_response` and what is printed with it -/

/-- `add_response`, given the text that `vsnprintf` makes. What it prints without
success lies beyond `m_write_idx`. -/
def addResponse (text : String) (buf : List Char) : Bool × List Char :=
  if buf.length ≥ writeBufferSize then (false, buf)
  -- `vsnprintf` returns the length of the whole text.
  else if text.toList.length ≥ writeBufferSize - 1 - buf.length then (false, buf)
  else (true, buf ++ text.toList)

/-- `add_status_line`. -/
def addStatusLine (status : ℕ) (title : String) : List Char → Bool × List Char :=
  addResponse ("HTTP/1.1 " ++ toString status ++ " " ++ title ++ "\r\n")

/-- `add_content_length`. -/
def addContentLength (contentLen : ℕ) : List Char → Bool × List Char :=
  addResponse ("Content-Length:" ++ toString (int32 contentLen) ++ "\r\n")

/-- `add_linger`. -/
def addLinger (linger : Bool) : List Char → Bool × List Char :=
  addResponse ("Connection:" ++ (if linger then "keep-alive" else "close") ++ "\r\n")

/-- `add_blank_line`. -/
def addBlankLine : List Char → Bool × List Char := addResponse "\r\n"

/-- `add_content`. -/
def addContent (content : String) : List Char → Bool × List Char := addResponse content

/-- `&&` between two of these. -/
def andThen (first second : List Char → Bool × List Char) (buf : List Char) : Bool × List Char :=
  match first buf with
  | (true, buf) => second buf
  | (false, buf) => (false, buf)

/-- `add_headers`. -/
def addHeaders (contentLen : ℕ) (linger : Bool) : List Char → Bool × List Char :=
  andThen (andThen (addContentLength contentLen) (addLinger linger)) addBlankLine

/-- The texts of `http_conn.cpp`. -/
def ok200Title : String := "OK"
def error403Title : String := "Forbidden"
def error403Form : String := "You do not have permission to get file form this server.\n"
def error404Title : String := "Not Found"
def error404Form : String := "The requested file was not found on this server.\n"
def error500Title : String := "Internal Error"
def error500Form : String := "There was an unusual problem serving the request file.\n"

/-! ### `process_write` -/

namespace Conn

variable (c : Conn)

/-- `init()`, as far as these members are concerned. -/
def init : Conn := { c with writeBuf := [], bytesToSend := 0, bytesHaveSend := 0 }

/-- The end of `process_write`: the response is the header block alone. -/
def headerOnly : Conn :=
  { c with
    iv0 := ⟨.writeBuf 0, c.writeBuf.length⟩
    ivCount := 1
    bytesToSend := c.writeBuf.length }

/-- The end of the branch for a file: the header block and the file. -/
def withFile (size : ℕ) : Conn :=
  { c with
    iv0 := ⟨.writeBuf 0, c.writeBuf.length⟩
    iv1 := ⟨.file 0, size⟩
    ivCount := 2
    bytesToSend := int32 (c.writeBuf.length + size) }

/-- A page that stands in the header block: the branches of `process_write` for
errors. -/
def page (status : ℕ) (title form : String) : Bool × Conn :=
  -- Of the three results only that of `add_content` is looked at.
  let buf := (addStatusLine status title c.writeBuf).2
  let buf := (addHeaders form.length c.linger buf).2
  let (added, buf) := addContent form buf
  let c := { c with writeBuf := buf }
  if added then (true, c.headerOnly) else (false, c)

/-- `process_write`, with the `st_size` of the file, which may be too large to be mapped.
An empty file falls through to `default`. -/
def processWrite (ret : HttpCode) (size : ℕ) : Bool × Conn :=
  match ret with
  | .internalError => c.page 500 error500Title error500Form
  | .badRequest => c.page 404 error404Title error404Form
  | .forbiddenRequest => c.page 403 error403Title error403Form
  | .fileRequest =>
    let buf := (addStatusLine 200 ok200Title c.writeBuf).2
    if size ≠ 0 then
      let buf := (addHeaders size c.linger buf).2
      (true, { c with writeBuf := buf }.withFile size)
    else
      -- The page is printed, and `default` returns `false`.
      let okString := "<html><body></body></html>"
      let buf := (addHeaders okString.length c.linger buf).2
      (false, { c with writeBuf := (addContent okString buf).2 })
  | .noRequest | .getRequest | .noResource | .closedConnection => (false, c)

end Conn

/-- A prepared response: a header block in `m_write_buf`, perhaps a file, and what
`m_iv[1]` holds where there is none. -/
structure Response where
  header : List Char
  nonempty : 0 < header.length
  inBuffer : header.length ≤ writeBufferSize
  file : Option { file : MappedFile // 0 < file.size }
  stale : IoVec
  linger : Bool

namespace Response

variable (r : Response)

/-- The number of bytes of the file. -/
def fileSize : ℕ :=
  match r.file with
  | none => 0
  | some file => file.1.size

/-- The connection when `write` is called for the response. -/
def conn : Conn :=
  let c : Conn := ⟨r.header, r.stale, r.stale, 0, 0, 0, r.linger⟩
  match r.file with
  | none => c.headerOnly
  | some file => c.withFile file.1.size

/-- What is to be sent: the header bytes and then the bytes of the file. -/
def cells : List Cell :=
  IoVec.cells ⟨.writeBuf 0, r.header.length⟩ ++ IoVec.cells ⟨.file 0, r.fileSize⟩

end Response

/-! ### What is prepared is a response -/

/-- Printing keeps what is printed, and stays within `m_write_buf`. -/
def Prints (print : List Char → Bool × List Char) : Prop :=
  ∀ buf : List Char, buf.length ≤ writeBufferSize →
    buf.length ≤ (print buf).2.length ∧ (print buf).2.length ≤ writeBufferSize

theorem prints_addResponse (text : String) : Prints (addResponse text) := by
  intro buf fits
  unfold addResponse
  split
  · exact ⟨Nat.le_refl _, fits⟩
  · split
    · exact ⟨Nat.le_refl _, fits⟩
    · rw [List.length_append]
      omega

theorem prints_addStatusLine (status : ℕ) (title : String) : Prints (addStatusLine status title) :=
  prints_addResponse _

theorem Prints.andThen {first second : List Char → Bool × List Char} (one : Prints first)
    (two : Prints second) : Prints (andThen first second) := by
  intro buf fits
  obtain ⟨grows, stays⟩ := one buf fits
  unfold Http.andThen
  split
  case h_1 buf' printed =>
    rw [printed] at grows stays
    exact ⟨Nat.le_trans grows (two buf' stays).1, (two buf' stays).2⟩
  case h_2 buf' printed =>
    rw [printed] at grows stays
    exact ⟨grows, stays⟩

theorem prints_addHeaders (contentLen : ℕ) (linger : Bool) :
    Prints (addHeaders contentLen linger) :=
  ((prints_addResponse _).andThen (prints_addResponse _)).andThen (prints_addResponse _)

theorem addResponse_of_true {text : String} {buf : List Char} (added : (addResponse text buf).1) :
    (addResponse text buf).2 = buf ++ text.toList := by
  unfold addResponse at added ⊢
  split at added
  · cases added
  · split at added
    · cases added
    · next inside room => rw [if_neg inside, if_neg room]

namespace Conn

variable {c : Conn} {ret : HttpCode} {size : ℕ}

/-- A page that has been prepared is a response without a file. -/
theorem page_response {status : ℕ} {title form : String} (visible : 0 < form.toList.length)
    (prepared : (c.init.page status title form).1 = true) :
    ∃ r : Response, (c.init.page status title form).2 = r.conn := by
  unfold page at prepared ⊢
  dsimp only [init] at prepared ⊢
  generalize start : (addHeaders form.length c.linger (addStatusLine status title []).2).2 = buf
    at prepared ⊢
  have fits : buf.length ≤ writeBufferSize :=
    start ▸ (prints_addHeaders _ _ _ (prints_addStatusLine _ _ [] (Nat.zero_le _)).2).2
  cases added : (addContent form buf).1
  case false => simp [added] at prepared
  case true =>
    have content : (addContent form buf).2 = buf ++ form.toList := addResponse_of_true added
    have stays : (addContent form buf).2.length ≤ writeBufferSize :=
      (prints_addResponse form buf fits).2
    rw [if_pos rfl]
    refine ⟨⟨(addContent form buf).2, ?_, stays, none, c.iv1, c.linger⟩, rfl⟩
    rw [content, List.length_append]
    omega

/-- A header block together with a file is a response. -/
theorem withFile_response {buf : List Char} (nonempty : 0 < buf.length)
    (inBuffer : buf.length ≤ writeBufferSize) (present : size ≠ 0) (fits : size ≤ addressSpace) :
    ∃ r : Response, { c.init with writeBuf := buf }.withFile size = r.conn :=
  ⟨⟨buf, nonempty, inBuffer, some ⟨⟨size, fits⟩, Nat.pos_of_ne_zero present⟩, c.iv1, c.linger⟩, rfl⟩

theorem statusLine_length : (addStatusLine 200 ok200Title []).2.length = 17 := by decide +kernel

/-- What `process_write` prepares on a connection after `init()` is a response, if the
file could be mapped. -/
theorem exists_response (fits : size ≤ addressSpace)
    (prepared : (c.init.processWrite ret size).1 = true) :
    ∃ r : Response, (c.init.processWrite ret size).2 = r.conn := by
  unfold processWrite at prepared ⊢
  cases ret with
  | internalError => exact page_response (by decide) prepared
  | badRequest => exact page_response (by decide) prepared
  | forbiddenRequest => exact page_response (by decide) prepared
  | fileRequest =>
    dsimp only at prepared ⊢
    split at prepared
    case isFalse => cases prepared
    case isTrue present =>
      rw [if_pos present]
      obtain ⟨-, inside⟩ := prints_addStatusLine 200 ok200Title [] (Nat.zero_le _)
      obtain ⟨grows, stays⟩ := prints_addHeaders size c.linger _ inside
      rw [statusLine_length] at grows
      exact withFile_response (Nat.lt_of_lt_of_le (Nat.succ_pos 16) grows) stays present fits
  | noRequest | getRequest | noResource | closedConnection => cases prepared

end Conn

end CoroutineService.Http
