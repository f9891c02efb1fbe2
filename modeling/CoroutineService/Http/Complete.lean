import CoroutineService.Http.Connection
import CoroutineService.Http.DocRoot

/-!
# Complete responses

When `process_read` has decided on a request, `process` queues a response that a client can
read: a status line, header lines, a blank line, and as many bytes as `Content-Length` says.
There is none for a file that is missing or empty, for which `process_write` has no case or
falls through to `default`, and a wrong one for a file whose size does not fit into an `int`
together with the header block.

## Main definitions

* `headerBlock`, `IsStatusLine`, `IsHeader`: what a client expects
* `Complete`: a response is queued as a whole
* `Backend.Answers`: the files that are answered

## Main results

* `complete_iff`: the requests that get a complete response
* `not_complete`: a file that is missing
-/

set_option autoImplicit false

namespace CoroutineService.Http

open CString

/-- The lines of a header block, with the blank line behind them. -/
def headerBlock (statusLine : List Char) (headers : List (List Char)) : List Char :=
  (statusLine :: headers).flatMap (· ++ crlf) ++ crlf

/-- The version, a status of three digits and a reason. -/
def IsStatusLine (l : List Char) : Prop :=
  IsLine l ∧ ∃ (status : ℕ) (reason : List Char), 100 ≤ status ∧ status < 1000 ∧
    l = "HTTP/1.1 ".toList ++ ((toString status).toList ++ ' ' :: reason)

/-- A name and a value with a colon between them. -/
def IsHeader (l : List Char) : Prop :=
  IsLine l ∧ ∃ name value, name ≠ [] ∧ ':' ∉ name ∧ l = name ++ ':' :: value

/-- A header with the length of the body. -/
def contentLengthHeader (n : ℤ) : List Char := "Content-Length:".toList ++ (toString n).toList

/-- The sum of the lengths of the `iovec`s. -/
def Conn.queuedLength (c : Conn) : ℕ := (([c.iv0, c.iv1].take c.ivCount).map IoVec.len).sum

/-- What is queued is a header block and a body, the beginning of which may stand in
`m_write_buf` as well. -/
structure Queued (c : Conn) (statusLine : List Char) (headers : List (List Char))
    (content : List Char) : Prop where
  status : IsStatusLine statusLine
  header : ∀ h ∈ headers, IsHeader h
  buffer : c.writeBuf = headerBlock statusLine headers ++ content
  first : c.iv0 = ⟨.writeBuf 0, c.writeBuf.length⟩
  second : c.ivCount = 1 ∨ c.ivCount = 2 ∧ c.iv1.base = .file 0
  sum : (c.queuedLength : ℤ) = c.bytesToSend
  length : headers.filter ("Content-Length:".toList.isPrefixOf ·) =
    [contentLengthHeader (c.queuedLength - (headerBlock statusLine headers).length)]

/-- A response is queued as a whole. -/
def Complete (c : Conn) : Prop := ∃ statusLine headers content, Queued c statusLine headers content

/-- The file behind the path is answered, on a connection of this kind: it is a directory,
or neither empty nor too large. Without a path the request is refused. -/
def Backend.Answers (b : Backend) (linger : Bool) : Option (List Char) → Prop
  | none => True
  | some path =>
    match b.stat path with
    | none => False
    | some stat =>
      isDir stat.mode = true ∨ 0 < stat.size ∧ stat.size + (if linger then 69 else 64) < 2 ^ 31

/-! ### What is printed -/

namespace Conn

variable (c : Conn) (size : ℕ)

theorem writeBuf_init : c.init.writeBuf = [] := rfl

theorem linger_init : c.init.linger = c.linger := rfl

theorem queuedLength_headerOnly : c.headerOnly.queuedLength = c.writeBuf.length := by
  simp [queuedLength, headerOnly]

theorem queuedLength_withFile : (c.withFile size).queuedLength = c.writeBuf.length + size := by
  simp [queuedLength, withFile]

theorem bytesToSend_withFile :
    (c.withFile size).bytesToSend = int32 ((c.writeBuf.length : ℤ) + size) := rfl

end Conn

/-- `add_response` prints what there is room for. -/
theorem addResponse_of_room {text : String} {buf : List Char}
    (room : buf.length + text.toList.length < writeBufferSize - 1) :
    addResponse text buf = (true, buf ++ text.toList) := by
  unfold addResponse
  rw [if_neg (by omega), if_neg (by omega)]

/-- The status line that `add_status_line` prints. -/
def statusLineOf (status : ℕ) (title : String) : List Char :=
  "HTTP/1.1 ".toList ++ ((toString status).toList ++ ' ' :: title.toList)

/-- The header that `add_linger` prints. -/
def lingerHeader (linger : Bool) : List Char :=
  "Connection:".toList ++ (if linger then "keep-alive" else "close").toList

/-- The headers that `add_headers` prints. -/
def headersOf (n : ℤ) (linger : Bool) : List (List Char) :=
  [contentLengthHeader n, lingerHeader linger]

theorem toList_crlf : "\r\n".toList = crlf := by decide

theorem addStatusLine_nil {status : ℕ} {title : String}
    (room : (statusLineOf status title ++ crlf).length < writeBufferSize - 1) :
    (addStatusLine status title []).2 = statusLineOf status title ++ crlf := by
  have text : ("HTTP/1.1 " ++ toString status ++ " " ++ title ++ "\r\n").toList =
      statusLineOf status title ++ crlf := by
    unfold statusLineOf
    rw [String.toList_append, String.toList_append, String.toList_append, String.toList_append,
      toList_crlf]
    simp only [List.append_assoc]
    rfl
  unfold addStatusLine
  rw [addResponse_of_room (by rw [text, List.length_nil, Nat.zero_add]; exact room), text]
  rfl

/-- Three lines, one after the other. -/
theorem addResponse_three {x y z : String} {first second third buf : List Char}
    (isFirst : x.toList = first) (isSecond : y.toList = second) (isThird : z.toList = third)
    (room : (buf ++ first ++ second ++ third).length < writeBufferSize - 1) :
    andThen (andThen (addResponse x) (addResponse y)) (addResponse z) buf =
      (true, buf ++ first ++ second ++ third) := by
  simp only [List.length_append] at room
  have one : addResponse x buf = (true, buf ++ first) := by
    rw [addResponse_of_room (by rw [isFirst]; omega), isFirst]
  have two : addResponse y (buf ++ first) = (true, buf ++ first ++ second) := by
    rw [addResponse_of_room (by rw [isSecond, List.length_append]; omega), isSecond]
  have three : addResponse z (buf ++ first ++ second) =
      (true, buf ++ first ++ second ++ third) := by
    rw [addResponse_of_room (by rw [isThird, List.length_append, List.length_append]; omega),
      isThird]
  unfold andThen
  rw [one]
  dsimp only
  rw [two]
  dsimp only
  rw [three]

theorem addHeaders_of_room {n : ℕ} {linger : Bool} {buf : List Char}
    (room : (buf ++ ((headersOf (int32 n) linger).flatMap (· ++ crlf) ++ crlf)).length <
      writeBufferSize - 1) :
    addHeaders n linger buf =
      (true, buf ++ ((headersOf (int32 n) linger).flatMap (· ++ crlf) ++ crlf)) := by
  have length : ("Content-Length:" ++ toString (int32 n) ++ "\r\n").toList =
      contentLengthHeader (int32 n) ++ crlf :=
    String.toList_append.trans (congrArg₂ _ String.toList_append toList_crlf)
  have connection : ("Connection:" ++ (if linger then "keep-alive" else "close") ++ "\r\n").toList =
      lingerHeader linger ++ crlf :=
    String.toList_append.trans (congrArg₂ _ String.toList_append toList_crlf)
  have lines : buf ++ ((headersOf (int32 n) linger).flatMap (· ++ crlf) ++ crlf) =
      buf ++ (contentLengthHeader (int32 n) ++ crlf) ++ (lingerHeader linger ++ crlf) ++ crlf := by
    rw [headersOf, List.flatMap_cons, List.flatMap_singleton]
    simp only [List.append_assoc]
  rw [lines] at room ⊢
  exact addResponse_three length connection toList_crlf room

/-! ### What a client reads -/

theorem toString_natCast (n : ℕ) : (toString (n : ℤ)).toList = Nat.toDigits 10 n :=
  Nat.toList_repr

theorem isHeader_contentLength (n : ℕ) : IsHeader (contentLengthHeader n) := by
  refine ⟨fun c mem => ?_, "Content-Length".toList, (toString (n : ℤ)).toList, by decide, by decide,
    rfl⟩
  rcases List.mem_append.mp mem with text | digits
  · have plain : IsLine "Content-Length:".toList := by
      decide +kernel
    exact plain c text
  · rw [toString_natCast] at digits
    have digit : c.isDigit = true :=
      Nat.isDigit_of_mem_toDigits (by decide : 0 < 10) (Nat.le_refl _) digits
    refine ⟨?_, ?_, ?_⟩ <;> rintro rfl <;> exact absurd digit (by decide)

theorem isHeader_linger (linger : Bool) : IsHeader (lingerHeader linger) := by
  refine ⟨?_, "Connection".toList, (if linger then "keep-alive" else "close").toList, by decide,
    by decide, rfl⟩
  cases linger with
  | true => decide
  | false => decide

theorem forall_mem_headersOf (n : ℕ) (linger : Bool) : ∀ h ∈ headersOf n linger, IsHeader h :=
  List.forall_mem_cons.mpr ⟨isHeader_contentLength n,
    List.forall_mem_singleton.mpr (isHeader_linger linger)⟩

/-- There is one header with the length. -/
theorem filter_headersOf (n : ℤ) (linger : Bool) :
    (headersOf n linger).filter ("Content-Length:".toList.isPrefixOf ·) =
      [contentLengthHeader n] := by
  have length : "Content-Length:".toList.isPrefixOf (contentLengthHeader n) = true :=
    List.isPrefixOf_iff_prefix.mpr (List.prefix_append _ _)
  have connection : "Content-Length:".toList.isPrefixOf (lingerHeader linger) = false := by
    cases linger <;> decide
  unfold headersOf
  rw [List.filter_cons_of_pos length, List.filter_cons_of_neg (ne_true_of_eq_false connection),
    List.filter_nil]

/-- The header block that is printed, followed by some content. -/
def printed (status : ℕ) (title : String) (n : ℤ) (linger : Bool) (content : List Char) :
    List Char :=
  headerBlock (statusLineOf status title) (headersOf n linger) ++ content

theorem headerBlock_eq (statusLine : List Char) (headers : List (List Char)) :
    headerBlock statusLine headers =
      statusLine ++ crlf ++ (headers.flatMap (· ++ crlf) ++ crlf) := by
  unfold headerBlock
  rw [List.flatMap_cons, List.append_assoc]

/-- The status line and the headers are printed if there is room for them. -/
theorem print_headers {status n : ℕ} {title : String} {linger : Bool} (small : n < 2 ^ 31)
    (room : (printed status title n linger []).length < writeBufferSize - 1) :
    (addHeaders n linger (addStatusLine status title []).2).2 =
      printed status title n linger [] := by
  have exact' : int32 n = n := int32_eq (Int.natCast_nonneg n) (by omega)
  unfold printed at room ⊢
  rw [List.append_nil, headerBlock_eq] at room ⊢
  have first : (statusLineOf status title ++ crlf).length < writeBufferSize - 1 := by
    rw [List.length_append] at room
    omega
  have headers : addHeaders n linger (statusLineOf status title ++ crlf) = _ :=
    addHeaders_of_room (by rw [exact']; exact room)
  rw [exact'] at headers
  rw [addStatusLine_nil first, headers]

/-- A page that there is room for is queued as a whole. -/
theorem queued_page (c : Conn) {status : ℕ} {title form : String}
    (line : IsStatusLine (statusLineOf status title)) (small : form.length < 2 ^ 31)
    (room : (printed status title form.length c.linger form.toList).length < writeBufferSize - 1) :
    (c.init.page status title form).1 = true ∧ Complete (c.init.page status title form).2 := by
  have shorter : (printed status title form.length c.linger []).length +
      form.toList.length < writeBufferSize - 1 := by
    unfold printed at room ⊢
    rwa [List.append_nil, ← List.length_append]
  have headers := print_headers small (Nat.lt_of_le_of_lt (Nat.le_add_right _ _) shorter)
  have content : addContent form (printed status title form.length c.linger []) =
      (true, printed status title form.length c.linger form.toList) := by
    unfold addContent
    rw [addResponse_of_room shorter]
    unfold printed
    rw [List.append_nil]
  unfold Conn.page
  dsimp only [Conn.init]
  rw [headers, content]
  dsimp only
  rw [if_pos rfl]
  refine ⟨rfl, statusLineOf status title, headersOf form.length c.linger, form.toList, ?_⟩
  -- The text is not looked at any more, only its length.
  generalize buffer : printed status title form.length c.linger form.toList = buf
  have all : buf.length = (headerBlock (statusLineOf status title)
      (headersOf form.length c.linger)).length + form.length := by
    rw [← buffer, printed, List.length_append, String.length_toList]
  refine ⟨line, forall_mem_headersOf _ _, buffer.symm, rfl, .inl rfl, ?_, ?_⟩
  · rw [Conn.queuedLength_headerOnly]
    rfl
  · rw [filter_headersOf, Conn.queuedLength_headerOnly]
    simp [all]

/-! ### The verdicts -/

theorem isStatusLine {status : ℕ} {title : String} (three : 100 ≤ status ∧ status < 1000)
    (line : IsLine (statusLineOf status title)) : IsStatusLine (statusLineOf status title) :=
  ⟨line, status, title.toList, three.1, three.2, rfl⟩

/-- Requests that are refused are answered. -/
theorem complete_badRequest (c : Conn) (size : ℕ) :
    (c.init.processWrite .badRequest size).1 = true ∧
      Complete (c.init.processWrite .badRequest size).2 := by
  have page : c.init.processWrite .badRequest size =
      c.init.page 404 error404Title error404Form := rfl
  have line : IsStatusLine (statusLineOf 404 error404Title) :=
    isStatusLine (by decide) (by decide +kernel)
  have room : (printed 404 error404Title error404Form.length c.linger error404Form.toList).length <
      writeBufferSize - 1 := by
    cases c.linger <;> decide +kernel
  rw [page]
  exact queued_page c line (by decide +kernel) room

/-- The length of a header block for a file. -/
theorem length_headerBlock (n : ℕ) (linger : Bool) :
    (headerBlock (statusLineOf 200 ok200Title) (headersOf n linger)).length =
      (if linger then 59 else 54) + (Nat.toDigits 10 n).length := by
  have status : (statusLineOf 200 ok200Title).length = 15 := by decide +kernel
  have length : (contentLengthHeader n).length = 15 + (Nat.toDigits 10 n).length := by
    have name : "Content-Length:".toList.length = 15 := by decide +kernel
    exact List.length_append.trans (congrArg₂ _ name (congrArg _ (toString_natCast n)))
  have connection : (lingerHeader linger).length = if linger then 21 else 16 := by
    cases linger <;> decide +kernel
  have ends : crlf.length = 2 := rfl
  rw [headerBlock_eq, headersOf, List.flatMap_cons, List.flatMap_singleton]
  simp only [List.length_append, status, length, connection, ends]
  cases linger <;> simp only [if_true, Bool.false_eq_true, if_false] <;> omega

theorem int32_lt (x : ℤ) : int32 x < 2 ^ 31 := by
  unfold int32
  rw [Int.bmod_def]
  omega

/-- A sum that `bytes_to_send` shows as it is. -/
theorem lt_of_int32_eq {length size : ℕ}
    (same : ((length + size : ℕ) : ℤ) = int32 ((length : ℤ) + size)) : length + size < 2 ^ 31 := by
  have bounded := int32_lt ((length : ℤ) + size)
  omega

/-- A file that is queued as a whole is not too large. -/
theorem lt_of_complete_withFile {c : Conn} {size : ℕ} (complete : Complete (c.withFile size)) :
    c.writeBuf.length + size < 2 ^ 31 := by
  obtain ⟨statusLine, headers, content, queued⟩ := complete
  have sum := queued.sum
  rw [Conn.queuedLength_withFile, Conn.bytesToSend_withFile] at sum
  exact lt_of_int32_eq sum

/-- A file that is not too large is queued as a whole. -/
theorem complete_withFile {c : Conn} {size : ℕ} {linger : Bool}
    (line : IsStatusLine (statusLineOf 200 ok200Title))
    (block : c.writeBuf = headerBlock (statusLineOf 200 ok200Title) (headersOf size linger))
    (fits : c.writeBuf.length + size < 2 ^ 31) : Complete (c.withFile size) := by
  have exact' : int32 ((c.writeBuf.length : ℤ) + size) = c.writeBuf.length + size :=
    int32_eq (by omega) (by omega)
  refine ⟨_, _, [], line, forall_mem_headersOf size linger, ?_, rfl, .inr ⟨rfl, rfl⟩, ?_, ?_⟩
  · exact block.trans (List.append_nil _).symm
  · rw [Conn.queuedLength_withFile, Conn.bytesToSend_withFile, exact', Int.natCast_add]
  · rw [filter_headersOf, ← block, Conn.queuedLength_withFile]
    simp

/-- What is prepared for a file that is not empty. -/
theorem processWrite_fileRequest (c : Conn) {size : ℕ} (some : size ≠ 0) :
    c.processWrite .fileRequest size =
      (true, { c with writeBuf :=
        (addHeaders size c.linger (addStatusLine 200 ok200Title c.writeBuf).2).2 }.withFile size) :=
  if_pos some

theorem exists_withFile {c : Conn} (nothing : c.writeBuf = []) {size : ℕ} (some : size ≠ 0) :
    ∃ d : Conn, d.writeBuf = (addHeaders size c.linger (addStatusLine 200 ok200Title []).2).2 ∧
      c.processWrite .fileRequest size = (true, d.withFile size) := by
  rw [← nothing]
  exact ⟨_, rfl, processWrite_fileRequest c some⟩

/-- A file that is neither empty nor too large is answered. -/
theorem complete_fileRequest (c : Conn) (size : ℕ) :
    ((c.init.processWrite .fileRequest size).1 = true ∧
      Complete (c.init.processWrite .fileRequest size).2) ↔
      0 < size ∧ size + (if c.linger then 69 else 64) < 2 ^ 31 := by
  by_cases empty : size = 0
  · refine iff_of_false (fun made => ?_) fun some => some.1.ne' empty
    subst empty
    cases made.1
  obtain ⟨d, buffer, made⟩ := exists_withFile c.writeBuf_init empty
  rw [Conn.linger_init] at buffer
  rw [made, and_iff_right rfl, and_iff_right (Nat.pos_of_ne_zero empty)]
  have longest : (if c.linger then 69 else 64) = (if c.linger then 59 else 54) + 10 := by
    cases c.linger <;> rfl
  have most : (if c.linger then 59 else 54) ≤ 59 := by
    cases c.linger <;> decide
  rw [longest]
  -- The header block, where the size is read as it is.
  have block : size < 2 ^ 31 → d.writeBuf =
      headerBlock (statusLineOf 200 ok200Title) (headersOf size c.linger) := by
    intro small
    have digits : (Nat.toDigits 10 size).length ≤ 10 :=
      (Nat.length_toDigits_le_iff (by decide) (by decide)).mpr (by omega)
    have room : (printed 200 ok200Title size c.linger []).length < writeBufferSize - 1 := by
      rw [printed, List.append_nil, length_headerBlock, writeBufferSize]
      omega
    rw [buffer, print_headers small room, printed, List.append_nil]
  have length (small : size < 2 ^ 31) : d.writeBuf.length = _ :=
    (congrArg _ (block small)).trans (length_headerBlock size c.linger)
  constructor
  · intro complete
    have bounded : d.writeBuf.length + size < 2 ^ 31 := lt_of_complete_withFile complete
    have small : size < 2 ^ 31 := Nat.lt_of_le_of_lt (Nat.le_add_left _ _) bounded
    rw [length small] at bounded
    -- A size of ten digits makes the header block as long as it can be.
    rcases Nat.lt_or_ge size 1000000000 with short | long
    · omega
    · have digits : ¬ (Nat.toDigits 10 size).length ≤ 9 := fun few =>
        Nat.not_lt.mpr long ((Nat.length_toDigits_le_iff (by decide) (by decide)).mp few)
      omega
  · intro fits
    have small : size < 2 ^ 31 := by omega
    have digits : (Nat.toDigits 10 size).length ≤ 10 :=
      (Nat.length_toDigits_le_iff (by decide) (by decide)).mpr (by omega)
    exact complete_withFile (isStatusLine (by decide) (by decide +kernel)) (block small)
      (by rw [length small]; omega)

/-! ### The result -/

section requests

variable {b : Backend} {proxy : ProxyType} {users : Users} {r : Reader} {c : Conn} {a : Answer}

/-- `!mode & S_IROTH` is never true. -/
theorem forbidden_eq_false (mode : ℕ) : Backend.forbidden mode = false := by
  unfold Backend.forbidden
  split <;> rfl

/-- The verdict that `do_request` reaches on the file behind a path. -/
def Backend.verdict (b : Backend) (path : List Char) : HttpCode :=
  match b.stat path with
  | none => .noResource
  | some stat => if isDir stat.mode then .badRequest else .fileRequest

theorem finish_eq_ok {s : Prepared} {ret : HttpCode} (done : b.finish s = .ok ret) :
    ret = b.verdict (strAt s.realFile 0) := by
  unfold Backend.finish at done
  unfold Backend.verdict
  cases found : b.stat (strAt s.realFile 0) with
  | none =>
    rw [found] at done
    split at done
    · cases done
      rfl
    · cases done
  | some stat =>
    rw [found] at done
    dsimp only at done ⊢
    rw [forbidden_eq_false, if_neg Bool.false_ne_true] at done
    split at done
    · split at done
      · next directory =>
        rw [if_pos directory]
        cases done
        rfl
      · next file =>
        rw [if_neg file]
        cases done
        rfl
    · cases done

/-- A request on which `process_read` has decided is refused, or has the verdict on a file. -/
theorem decided_cases (decided : b.processRead proxy users r = .ok a)
    (finished : a.ret ≠ .noRequest) : a.path = none ∧ a.ret = .badRequest ∨
      ∃ path, a.path = some path ∧ a.ret = b.verdict path ∧ a.size = b.fileSize path := by
  unfold Backend.processRead Backend.conclude at decided
  split at decided
  · cases decided
    exact .inl ⟨rfl, rfl⟩
  · unfold Backend.answer at decided
    split at decided
    · cases decided
      exact .inl ⟨rfl, rfl⟩
    · obtain ⟨s, -, decided⟩ := exists_of_bind decided
      obtain ⟨ret, done, same⟩ := exists_of_bind decided
      cases same
      exact .inr ⟨_, rfl, finish_eq_ok done, rfl⟩
  · cases decided
    dsimp only at finished ⊢
    split at finished
    · next refused => exact .inl ⟨rfl, if_pos refused⟩
    · exact absurd rfl finished
  · cases decided

/-- What `process` does once `process_read` has decided. -/
theorem process_of_decided {k : HttpConn} (decided : b.processRead proxy users k.reader = .ok a)
    (finished : a.ret ≠ .noRequest) : b.process proxy users k =
      .ok ⟨(k.conn.processWrite a.ret a.size).1, ⟨a.reader, (k.conn.processWrite a.ret a.size).2⟩,
        a.users, a.path⟩ := by
  unfold Backend.process
  rw [decided]
  dsimp only [bind, Except.bind]
  rw [if_neg finished]
  rfl

/-- A file is answered as a whole if `Answers` says so, and a refused request in any case. -/
theorem complete_decided (c : Conn) (decided : b.processRead proxy users r = .ok a)
    (finished : a.ret ≠ .noRequest) :
    ((c.init.processWrite a.ret a.size).1 = true ∧ Complete (c.init.processWrite a.ret a.size).2) ↔
      b.Answers c.linger a.path := by
  -- Refused requests have a page of their own, and the rest depends on the file.
  rcases decided_cases decided finished with ⟨unread, bad⟩ | ⟨path, reached, verdict, size⟩
  · rw [unread, bad]
    exact iff_of_true (complete_badRequest c a.size) trivial
  · rw [reached, verdict, size]
    unfold Backend.Answers Backend.verdict Backend.fileSize
    dsimp only
    cases b.stat path with
    | none =>
      -- `process_write` has no branch for `NO_RESOURCE`.
      refine iff_of_false (fun made => ?_) id
      exact Bool.false_ne_true made.1
    | some stat =>
      dsimp only
      by_cases directory : Backend.isDir stat.mode = true
      · rw [if_pos directory]
        exact iff_of_true (complete_badRequest c stat.size) (.inl directory)
      · rw [if_neg directory, or_iff_right directory]
        exact complete_fileRequest c stat.size

/-- A finished request gets a complete response exactly when it is refused, or what it asks for
is a directory, or a file that is neither empty nor too large. -/
theorem complete_iff (b : Backend) (proxy : ProxyType) (users : Users) (r : Reader) (c : Conn)
    {a : Answer} (decided : b.processRead proxy users r = .ok a) (finished : a.ret ≠ .noRequest) :
    (∃ p, b.process proxy users ⟨r, c.init⟩ = .ok p ∧ p.value = true ∧ Complete p.conn.conn) ↔
      b.Answers c.linger a.path := by
  rw [process_of_decided (k := ⟨r, c.init⟩) decided finished, ← complete_decided c decided finished]
  simp only [Except.ok.injEq, exists_eq_left']

end requests

/-- A server with one page of five bytes under every name. -/
def pageServer : Backend :=
  { emptyServer with stat := fun _ => some ⟨0o100644, 5⟩ }

/-- A connection that has not been used. -/
def unusedConn : Conn := ⟨[], ⟨.writeBuf 0, 0⟩, ⟨.file 0, 0⟩, 0, 0, 0, true⟩

/-- The verdict, where `process_read` has one. -/
def Backend.decides (b : Backend) (proxy : ProxyType) (r : Reader) : Option HttpCode :=
  (b.processRead proxy (initmysqlResult []) r).toOption.map Answer.ret

theorem complete_page : ∃ a,
    pageServer.processRead .noProxy (initmysqlResult []) pageRequest = .ok a ∧
    a.ret = .fileRequest ∧
    ((∃ p, pageServer.process .noProxy (initmysqlResult []) ⟨pageRequest, unusedConn.init⟩ = .ok p ∧
        p.value = true ∧ Complete p.conn.conn) ↔
      pageServer.Answers true a.path) := by
  have verdict : pageServer.decides .noProxy pageRequest = some .fileRequest := by decide +kernel
  unfold Backend.decides at verdict
  cases decided : pageServer.processRead .noProxy (initmysqlResult []) pageRequest with
  | error fault =>
    rw [decided] at verdict
    cases verdict
  | ok a =>
    rw [decided] at verdict
    have file : a.ret = .fileRequest := Option.some_inj.mp verdict
    exact ⟨a, rfl, file, complete_iff pageServer .noProxy (initmysqlResult []) pageRequest
      unusedConn decided (by rw [file]; decide)⟩

/-- A request for a file that is missing gets no response. -/
theorem not_complete : ¬ ∀ (b : Backend) proxy users (r : Reader) (c : Conn) (a : Answer),
    b.processRead proxy users r = .ok a → a.ret ≠ .noRequest →
      ∃ p, b.process proxy users ⟨r, c.init⟩ = .ok p ∧ p.value = true ∧ Complete p.conn.conn := by
  intro complete
  have verdict : emptyServer.decides .noProxy pageRequest = some .noResource := by decide +kernel
  unfold Backend.decides at verdict
  cases decided : emptyServer.processRead .noProxy (initmysqlResult []) pageRequest with
  | error fault =>
    rw [decided] at verdict
    cases verdict
  | ok a =>
    rw [decided] at verdict
    have missing : a.ret = .noResource := Option.some_inj.mp verdict
    have finished : a.ret ≠ .noRequest := by
      rw [missing]
      decide
    obtain ⟨p, made, success, -⟩ := complete _ _ _ _ unusedConn a decided finished
    rw [process_of_decided (k := ⟨pageRequest, unusedConn.init⟩) decided finished, missing] at made
    cases made
    cases success

end CoroutineService.Http
