import CoroutineService.Http.KeepAlive
import CoroutineService.Http.RequestLine

/-!
# What a site sends

The requests for pages that a client sends on one connection are answered from the files under the
document root. A site is a function from such requests to the texts that are sent for them; what
`handleClient` hands to the socket, byte by byte, is what this function says, in the same order.

## Main definitions

* `Site`: a document root and the contents of the files
* `Visit`: a request for a page that is not a form
* `Site.reply`, `Site.serve`: the texts that are sent for a request, and on a connection
* `Site.arrives`: the bytes that have been handed to the socket

## Main results

* `loop_text`: what `process_read` makes of a request
* `Site.pass_of_some`, `Site.pass_of_none`: a pass through the loop of `handleClient`
* `handleClient_serves`: all passes
-/

set_option autoImplicit false

namespace CoroutineService.Http

open CString Reader

/-- A document root whose files can be mapped as a whole, with what stands in them. Behind the root
there is room for the longest of the fixed pages. -/
structure Site extends Backend where
  contents : List Char → List Char
  whole : ∀ path stat, toBackend.stat path = some stat → Backend.isDir stat.mode = false →
    (contents path).length = stat.size ∧ stat.size ≤ addressSpace
  roomy : docRoot.length + 14 < filenameLen

/-- The character behind the last slash. -/
def kindAt (url : List Char) : Char :=
  match lastSlash url with
  | none => '\x00'
  | some k => url.getD (k + 1) '\x00'

/-- The method is not `GET`. -/
def posts (requestLine : List Char) : Bool := !sameText (firstWord requestLine) "GET".toList

/-- A header says that the request comes from a proxy. -/
def isForwarded (headers : List (List Char)) : Bool := headers.any (kindOf · == .forwardedBy)

/-- A request for a page, by whatever method, that is not a form. -/
structure Visit extends Request where
  page : List Char
  accepts : Accepts requestLine page
  plain : isForm (posts requestLine) (kindAt (pageOf page)) = false

/-- The request has not come the way it should. -/
def Visit.refused (v : Visit) (proxy : ProxyType) : Bool := mismatch proxy (!isForwarded v.headers)

namespace Site

variable (site : Site) (proxy : ProxyType) (linger : Bool)

/-- The path of the file for a URL. -/
def path (url : List Char) : List Char :=
  site.docRoot ++ match fixedPage (kindAt url) with
    | some page => page.toList
    | none => url.take site.room

/-- The page for requests that are refused. -/
def notFound (linger : Bool) : List Char :=
  printed 404 error404Title error404Form.length linger error404Form.toList

/-- The text that is sent for a path, if any. -/
def replyTo (path : List Char) : Option (List Char) :=
  match site.stat path with
  | none => none
  | some stat =>
    if Backend.isDir stat.mode then some (notFound linger)
    else if stat.size = 0 then none
    else some (printed 200 ok200Title stat.size linger (site.contents path))

/-- The text that is sent for a request, if any. -/
def reply (v : Visit) : Option (List Char) :=
  if v.refused proxy then some (notFound linger)
  else site.replyTo linger (site.path (pageOf v.page))

/-- The texts that are sent on a connection. -/
def serve : List Visit → List (List Char)
  | [] => []
  | v :: vs =>
    match site.reply proxy linger v with
    | none => []
    | some text => text :: if linger then serve vs else []

end Site

/-- The byte at a place, if there is one. -/
def Cell.byte (writeBuf file : List Char) : Cell → Option Char
  | .writeBuf (.ofNat i) => writeBuf[i]?
  | .file (.ofNat j) => file[j]?
  | .writeBuf (.negSucc _) | .file (.negSucc _) => none

/-- The bytes that have been handed to the socket. -/
def Site.arrives (site : Site) (sent : Sent) : List (Option Char) :=
  sent.cells.map (Cell.byte sent.writeBuf ((sent.path.map site.contents).getD []))

/-- The first two calls of `writev` take whatever fits into `m_write_buf`. -/
def Socket.Brisk (socket : Socket) : Prop :=
  ∀ given, min given writeBufferSize ≤
    socket.accepts 0 given + socket.accepts 1 (given - socket.accepts 0 given)

/-! ### The request -/

namespace Reader

variable {proxy : ProxyType} {decideProxy : Bool} {c c' r : Reader} {l body url : List Char}
  {headers : List (List Char)} {p : ℕ}

/-- A reader that has gone on behind the request line. -/
structure Onward (c r : Reader) : Prop where
  url : r.url = c.url
  cgi : r.cgi = c.cgi
  text : c.readBuf <+: r.readBuf

theorem Onward.trans (first : Onward c c') (second : Onward c' r) : Onward c r :=
  ⟨second.url.trans first.url, second.cgi.trans first.cgi, first.text.trans second.text⟩

theorem onward_consumed (c : Reader) (l : List Char) : Onward c (c.consumed l) :=
  ⟨rfl, rfl, List.prefix_append _ _⟩

theorem onward_readHeader (c : Reader) (text : ℕ) (l : List Char) :
    Onward c (c.readHeader text l) := by
  unfold readHeader
  split <;> exact ⟨rfl, rfl, List.prefix_refl _⟩

/-- A NUL that is stored behind a text leaves it alone. -/
theorem prefix_storeNul {buf text : List Char} {i : ℕ} (starts : text <+: buf)
    (behind : text.length ≤ i) : text <+: storeNul buf i := by
  obtain ⟨rest, rfl⟩ := starts
  have stored : storeNul (text ++ rest) i = text ++ rest.set (i - text.length) '\x00' :=
    List.set_append_right _ _ behind
  rw [stored]
  exact List.prefix_append _ _

variable (proxy) in
/-- A body that has been read completely, and what stood in front of it. -/
theorem onward_content {m u : List Char} {n : ℕ} (inBody : InBody c m u n) (whole : n ≤ u.length) :
    ∃ r, r.url = c.url ∧ r.cgi = c.cgi ∧ m <+: r.readBuf ∧
      ∀ decideProxy, loop proxy .ok decideProxy c = (.request, decideProxy, r) := by
  refine ⟨{ c with
    startLine := c.checkedIdx
    readBuf := storeNul c.readBuf (c.startLine + c.contentLength)
    string := some c.startLine }, rfl, rfl, ?_, fun decideProxy => ?_⟩
  · have place : (c.startLine : ℤ) + c.contentLength = ((m.length + 2 + n : ℕ) : ℤ) := by
      rw [inBody.contentLength, inBody.startLine]
      omega
    dsimp only
    rw [place]
    refine prefix_storeNul ?_ (by omega)
    rw [inBody.readBuf]
    exact List.prefix_append _ _
  · have positive : 0 ≤ c.contentLength := inBody.contentLength ▸ Int.natCast_nonneg n
    rw [loop_body inBody.checkState, turn_whole inBody.checkState positive inBody.sum_lt, afterTurn]
    rw [inBody.contentLength, inBody.checkedIdx, readIdx, inBody.length]
    omega

/-- The blank line and the body. -/
theorem loop_end (here : AtLine c) (state : c.checkState = .header)
    (length : c.contentLength = body.length)
    (fits : c.readBuf.length + (crlf ++ body).length ≤ readBufferSize) :
    ∃ r, Onward c r ∧ ∀ decideProxy,
      loop proxy .ok decideProxy (c.feed (crlf ++ body)) = (.request, decideProxy, r) := by
  by_cases some : c.contentLength ≠ 0
  · rw [List.length_append, ← Nat.add_assoc] at fits
    have inBody : InBody { c.consumed [] with checkState := .content } c.readBuf [] body.length :=
      ⟨fits, rfl, rfl, rfl, rfl, length⟩
    obtain ⟨r, url, cgi, text, ends⟩ := onward_content proxy (inBody.feed body) le_rfl
    refine ⟨r, ⟨url, cgi, text⟩, fun decideProxy => ?_⟩
    rw [loop_blank here state, if_pos some, ends]
  · refine ⟨(c.consumed []).feed body, ?_, fun decideProxy => ?_⟩
    · exact (onward_consumed c []).trans ⟨rfl, rfl, List.prefix_append _ _⟩
    · rw [loop_blank here state, if_neg some]

/-- The lines behind the request line, with the body. -/
theorem loop_headers (here : AtLine c) (state : c.checkState = .header)
    (shape : ∀ h ∈ headers, IsLine h ∧ h ≠ [])
    (length : headers.foldl declared c.contentLength = body.length)
    (fits : c.readBuf.length + (stream body
      (headers.map fun h => (h, decide (kindOf h = .forwardedBy)))).length ≤ readBufferSize)
    (allowed : isForwarded headers = true → proxy = .nginx) :
    ∃ r, Onward c r ∧ ∀ decideProxy, loop proxy .ok decideProxy
      (c.feed (stream body (headers.map fun h => (h, decide (kindOf h = .forwardedBy))))) =
        (.request, decideProxy && !isForwarded headers, r) := by
  induction headers generalizing c with
  | nil =>
    obtain ⟨r, onward, ends⟩ := loop_end here state length fits
    refine ⟨r, onward, fun decideProxy => ?_⟩
    rw [show isForwarded [] = false from rfl, Bool.not_false, Bool.and_true]
    exact ends decideProxy
  | cons h headers ih =>
    obtain ⟨line, visible⟩ := shape h List.mem_cons_self
    have split : isForwarded (h :: headers) =
      (kindOf h == .forwardedBy || isForwarded headers) := rfl
    have taken : ¬(kindOf h = .forwardedBy ∧ proxy = .noProxy) := by
      rintro ⟨forwarded, noProxy⟩
      have nginx := allowed (by rw [split, beq_iff_eq.mpr forwarded, Bool.true_or])
      cases noProxy.symm.trans nginx
    have same := samePlace_readHeader (c.consumed h) c.startLine h
    have here' := (atLine_consumed c h).of_samePlace same
    have fits' : ((c.consumed h).readHeader c.startLine h).readBuf.length + (stream body
        (headers.map fun h => (h, decide (kindOf h = .forwardedBy)))).length ≤ readBufferSize := by
      have whole : c.readBuf.length + (h ++ (crlf ++ stream body
          (headers.map fun h => (h, decide (kindOf h = .forwardedBy))))).length ≤
          readBufferSize := fits
      have ended : (c.consumed h).readBuf.length = c.readBuf.length + h.length + 2 :=
        (atLine_consumed c h).checked.symm
      have read := same.readIdx
      have two : crlf.length = 2 := rfl
      rw [List.length_append, List.length_append] at whole
      omega
    obtain ⟨r, onward, ends⟩ := ih (c := (c.consumed h).readHeader c.startLine h)
      here' ((checkState_readHeader _ _ _).trans state)
      (fun h' later => shape h' (List.mem_cons_of_mem h later))
      ((congrArg (headers.foldl declared) (contentLength_readHeader _ _ _)).trans length) fits'
      fun forwarded => allowed (by rw [split, forwarded, Bool.or_true])
    refine ⟨r, ((onward_consumed c h).trans (onward_readHeader _ _ _)).trans onward,
      fun decideProxy => ?_⟩
    have first := @loop_header proxy decideProxy c h here state line visible
      (stream body (headers.map fun h => (h, decide (kindOf h = .forwardedBy))))
    rw [if_neg taken, ends] at first
    rw [split, Bool.not_or, ← Bool.and_assoc]
    exact first

/-- Without a proxy, a header that claims one is refused. -/
theorem loop_headers_refused (here : AtLine c) (state : c.checkState = .header)
    (shape : ∀ h ∈ headers, IsLine h ∧ h ≠ []) (forwarded : isForwarded headers = true) :
    (loop .noProxy .ok decideProxy
      (c.feed (stream body (headers.map fun h => (h, decide (kindOf h = .forwardedBy)))))).1 =
        .bad := by
  induction headers generalizing c decideProxy with
  | nil => cases forwarded
  | cons h headers ih =>
    obtain ⟨line, visible⟩ := shape h List.mem_cons_self
    have first := @loop_header .noProxy decideProxy c h here state line visible
      (stream body (headers.map fun h => (h, decide (kindOf h = .forwardedBy))))
    refine (congrArg Prod.fst first).trans ?_
    by_cases claims : kindOf h = .forwardedBy
    · rw [if_pos ⟨claims, rfl⟩]
    · rw [if_neg fun both => claims both.1]
      have later : isForwarded headers = true := by
        have split : isForwarded (h :: headers) =
          (kindOf h == .forwardedBy || isForwarded headers) := rfl
        rwa [split, beq_eq_false_iff_ne.mpr claims, Bool.false_or] at forwarded
      have same := samePlace_readHeader (c.consumed h) c.startLine h
      exact ih ((atLine_consumed c h).of_samePlace same) ((checkState_readHeader _ _ _).trans state)
        (fun h' later => shape h' (List.mem_cons_of_mem h later)) later

theorem cgi_parseUrl {url : ℕ} {stores stores' : List ℕ} {code : HttpCode} {r' : Reader}
    (parsed : r.parseUrl url stores = .ok (code, r', stores')) : r'.cgi = r.cgi := by
  unfold parseUrl at parsed
  obtain ⟨behindHttp, -, parsed⟩ := exists_of_bind parsed
  obtain ⟨behindHttps, -, parsed⟩ := exists_of_bind parsed
  cases behindHttps with
  | none =>
    cases parsed
    rfl
  | some page =>
    dsimp only at parsed
    split at parsed
    · cases parsed
      rfl
    · obtain ⟨page', -, parsed⟩ := exists_of_bind parsed
      split at parsed
      · cases parsed
        rfl
      · cases parsed
        rfl

/-- What follows the method does not set `cgi`. -/
theorem cgi_parseTarget {url : ℕ} {stores stores' : List ℕ} {code : HttpCode} {r' : Reader}
    (parsed : r.parseTarget url stores = .ok (code, r', stores')) : r'.cgi = r.cgi := by
  unfold parseTarget at parsed
  obtain ⟨start, -, parsed⟩ := exists_of_bind parsed
  obtain ⟨target, -, parsed⟩ := exists_of_bind parsed
  dsimp only at parsed
  split at parsed
  · cases parsed
    rfl
  · obtain ⟨behind, -, parsed⟩ := exists_of_bind parsed
    obtain ⟨version, -, parsed⟩ := exists_of_bind parsed
    split at parsed
    · have kept := cgi_parseUrl parsed
      exact kept
    · cases parsed
      rfl

/-- The method of an accepted request line. -/
theorem cgi_parseRequestLine {text : ℕ} {stores : List ℕ} {r' : Reader}
    (str : IsCStr r.readBuf text)
    (accepted : r.parseRequestLine text = .ok (.noRequest, r', stores)) (unset : r.cgi = false) :
    r'.cgi = posts (strAt r.readBuf text) := by
  unfold parseRequestLine at accepted
  rw [strArg_ok str] at accepted
  dsimp only [bind, Except.bind] at accepted
  cases found : strpbrk r.readBuf text [' ', '\t'] with
  | none =>
    rw [found] at accepted
    cases accepted
  | some space =>
    rw [found] at accepted
    obtain ⟨word, -, strWord, -⟩ := strAt_word str found
    dsimp only at accepted
    rw [strArg_ok strWord] at accepted
    dsimp only at accepted
    unfold posts
    rw [← word]
    by_cases get : strcasecmp (r.readBuf.set space '\x00') text "GET" = true
    · rw [if_pos get] at accepted
      exact (cgi_parseTarget accepted).trans (unset.trans (congrArg not get).symm)
    · rw [if_neg get] at accepted
      by_cases post : strcasecmp (r.readBuf.set space '\x00') text "POST" = true
      · rw [if_pos post] at accepted
        exact (cgi_parseTarget accepted).trans (congrArg not (eq_false_of_ne_true get)).symm
      · rw [if_neg post] at accepted
        cases accepted

end Reader

/-- A line for a page is not one for a host only. -/
theorem Accepts.not_hostOnly {l page : List Char} (accepts : Accepts l page) : ¬HostOnly l := by
  rintro ⟨target, line, starts, noSlash⟩
  obtain ⟨target', line', found, -⟩ := accepts
  have same : target' = target :=
    (isRequestLine_iff.mp line').2.1.trans (isRequestLine_iff.mp line).2.1.symm
  rw [same, remaining, if_pos starts, fromSlash, if_neg noSlash] at found
  cases found

/-- Where the URL of a request stands, whatever follows the request line. -/
theorem Accepts.url {l page : List Char} (accepts : Accepts l page) (line : IsLine l)
    (c : Reader) : ∃ p, (c.afterRequestLine l).url = some p ∧
      (c.afterRequestLine l).cgi = posts l ∧
      ∀ q, strAt ((c.afterRequestLine l).readBuf ++ q) p = pageOf page := by
  obtain ⟨found, slash⟩ := accepts_iff.mp accepts
  have text : (c.init.consumed l).readBuf = l ++ nuls := rfl
  have ended : (c.init.consumed l).readBuf[l.length]? = some '\x00' := by
    rw [text, List.getElem?_append_right le_rfl, Nat.sub_self]
    rfl
  have room : l.length + 1 < (c.init.consumed l).readBuf.length := by
    rw [text, List.length_append]
    exact Nat.lt_succ_self _
  have read : ∀ q, strAt ((c.init.consumed l).feed q).readBuf 0 = l := by
    intro q
    have whole : ((c.init.consumed l).feed q).readBuf = [] ++ (l ++ '\x00' :: '\x00' :: q) := by
      simp [feed, text, nuls]
    rw [whole]
    exact (strAt_line [] l _).trans line.textOf
  -- The line is parsed in the same way with anything behind it.
  have parsed : ∀ q, ∃ p stores, (c.init.consumed l).parseRequestLine 0 =
      .ok (.noRequest, c.afterRequestLine l, stores) ∧ (c.afterRequestLine l).url = some p ∧
        strAt ((c.afterRequestLine l).readBuf ++ q) p = pageOf page := by
    intro q
    have ended' : ((c.init.consumed l).feed q).readBuf[l.length]? = some '\x00' := by
      show ((c.init.consumed l).readBuf ++ q)[l.length]? = _
      rw [List.getElem?_append_left (by omega), ended]
    have traces := traces_parseRequestLine (Nat.zero_le _) ended'
    rw [read, parseRequestLine_feed (Nat.zero_le _) ended room] at traces
    unfold afterRequestLine
    rcases traces with ⟨host, -⟩ | ⟨-, code, r', stores, fed, answers⟩
    · exact absurd host accepts.not_hostOnly
    · obtain ⟨rfl, p, pointer, str⟩ := answers.accepted page found slash
      cases result : (c.init.consumed l).parseRequestLine 0 with
      | error fault =>
        rw [result] at fed
        cases fed
      | ok x =>
        rw [result] at fed
        obtain ⟨code, r'', stores'⟩ := x
        cases fed
        exact ⟨p, _, rfl, pointer, str⟩
  obtain ⟨p, stores, accepted, pointer, -⟩ := parsed []
  refine ⟨p, pointer, ?_, fun q => ?_⟩
  · have cgi := cgi_parseRequestLine ⟨l.length, Nat.zero_le _, ended⟩ accepted rfl
    have whole := read []
    rw [show ((c.init.consumed l).feed []).readBuf = (c.init.consumed l).readBuf from
      List.append_nil _] at whole
    rw [whole] at cgi
    exact cgi
  · obtain ⟨p', -, -, pointer', str⟩ := parsed q
    obtain rfl : p = p' := Option.some_inj.mp (pointer.symm.trans pointer')
    exact str

namespace Visit

variable {proxy : ProxyType} (v : Visit) (c : Reader)

/-- What follows the request line fits into `m_read_buf` too. -/
theorem fits_headers : v.requestLine.length + 2 + (stream v.body
    (v.headers.map fun h => (h, decide (kindOf h = .forwardedBy)))).length ≤ readBufferSize := by
  have fits : (v.requestLine ++ (crlf ++ stream v.body
      (v.headers.map fun h => (h, decide (kindOf h = .forwardedBy))))).length ≤ readBufferSize :=
    v.fits
  rwa [List.length_append, List.length_append, ← Nat.add_assoc] at fits

/-- What `process_read` makes of a request that is not refused. -/
theorem loop_text (admitted : v.refused proxy = false) :
    ∃ r p, (c.init.feed v.text).loop proxy .ok true = (.request, !isForwarded v.headers, r) ∧
      r.url = some p ∧ r.cgi = posts v.requestLine ∧ strAt r.readBuf p = pageOf v.page := by
  obtain ⟨here, state, length, read⟩ := @afterRequestLine_header c _ v.accepted
  have fits := v.fits_headers
  rw [← read] at fits
  have allowed : isForwarded v.headers = true → proxy = .nginx := by
    intro forwarded
    unfold refused at admitted
    rw [forwarded] at admitted
    cases proxy with
    | nginx => rfl
    | noProxy => cases admitted
  obtain ⟨r, onward, ends⟩ := loop_headers here state v.lines (by rw [length]; exact v.declared)
    fits allowed
  obtain ⟨p, pointer, cgi, str⟩ := v.accepts.url v.line c
  obtain ⟨rest, text⟩ := onward.text
  refine ⟨r, p, ?_, onward.url.trans pointer, onward.cgi.trans cgi, ?_⟩
  · have first := @loop_requestLine proxy true c _ v.line.lf v.accepted
      (stream v.body (v.headers.map fun h => (h, decide (kindOf h = .forwardedBy))))
    rw [ends, Bool.true_and] at first
    exact first
  · rw [← text, str]

/-- A request that is refused. -/
theorem processRead_refused (b : Backend) (users : Users) (refused : v.refused proxy = true) :
    ∃ a, b.processRead proxy users (c.init.feed v.text) = .ok a ∧ a.ret = .badRequest ∧
      a.path = none ∧ a.users = users := by
  obtain ⟨here, state, length, read⟩ := @afterRequestLine_header c _ v.accepted
  have fits := v.fits_headers
  rw [← read] at fits
  have first := @loop_requestLine proxy true c _ v.line.lf v.accepted
    (stream v.body (v.headers.map fun h => (h, decide (kindOf h = .forwardedBy))))
  cases proxy with
  | nginx =>
    -- `do_request` finds no header of a proxy.
    have unmarked : isForwarded v.headers = false := by
      unfold Visit.refused mismatch at refused
      simpa using refused
    obtain ⟨r, -, ends⟩ := @loop_headers .nginx _ v.body v.headers here state v.lines
      (by rw [length]; exact v.declared) fits fun _ => rfl
    rw [ends, unmarked] at first
    refine ⟨⟨.badRequest, none, 0, users, r⟩, ?_, rfl, rfl, rfl⟩
    show b.conclude .nginx users ((c.init.feed v.text).loop .nginx .ok true) = _
    rw [show (c.init.feed v.text).loop .nginx .ok true = _ from first]
    rfl
  | noProxy =>
    have marked : isForwarded v.headers = true := by
      unfold Visit.refused mismatch at refused
      simpa using refused
    have bad := @loop_headers_refused true _ v.body v.headers here state v.lines marked
    rcases result : (c.init.feed v.text).loop .noProxy .ok true with ⟨exit, decideProxy, r⟩
    rw [← show (c.init.feed v.text).loop .noProxy .ok true = _ from first, result] at bad
    obtain rfl : exit = .bad := bad
    refine ⟨⟨.badRequest, none, 0, users, r⟩, ?_, rfl, rfl, rfl⟩
    show b.conclude .noProxy users ((c.init.feed v.text).loop .noProxy .ok true) = _
    rw [result]
    rfl

end Visit

/-! ### The file -/

/-- The slash that a URL begins with. -/
theorem exists_lastSlash {url : List Char} (slash : '/' ∈ url) : ∃ k, lastSlash url = some k := by
  unfold lastSlash
  cases found : url.reverse.findIdx? (· = '/') with
  | some k => exact ⟨_, rfl⟩
  | none =>
    have other := List.findIdx?_eq_none_iff.mp found '/' (List.mem_reverse.mpr slash)
    simp at other

/-- A page begins with a slash. -/
theorem slash_mem_pageOf {page : List Char} (slash : page.head? = some '/') :
    '/' ∈ pageOf page := by
  unfold pageOf
  split
  · decide
  · exact List.mem_of_head? slash

/-- A string that does not fill its array is ended in it. -/
theorem nul_mem_of_short {m : List Char} (short : (strAt m 0).length < m.length) : '\x00' ∈ m := by
  by_contra none
  have whole : strAt m 0 = m := by
    unfold strAt
    rw [List.drop_zero, List.takeWhile_eq_self_iff]
    exact fun c mem => decide_eq_true (ne_of_mem_of_not_mem mem none)
  rw [whole] at short
  exact lt_irrefl _ short

theorem length_fixedPage {kind : Char} {page : String} (found : fixedPage kind = some page) :
    page.toList.length ≤ 14 := by
  unfold fixedPage at found
  split_ifs at found <;> cases found <;> decide

namespace Site

variable {proxy : ProxyType} {decideProxy : Bool} {users : Users} {r : Reader} {url : List Char}
  {p : ℕ}

variable (site : Site)

/-- What `do_request` composes for a page. -/
theorem exists_prepared (pointer : r.url = some p) (text : strAt r.readBuf p = url)
    (slash : '/' ∈ url) (plain : isForm r.cgi (kindAt url) = false) (users : Users) :
    ∃ s, site.prepare users r = .ok s ∧ strAt s.realFile 0 = site.path url ∧
      '\x00' ∈ s.realFile ∧ s.users = users := by
  have noNul : '\x00' ∉ url := text ▸ fun mem => ne_nul_of_mem mem rfl
  have roomy := site.roomy
  obtain ⟨k, found⟩ := exists_lastSlash slash
  have kind : url.getD (k + 1) '\x00' = kindAt url := by
    unfold kindAt
    rw [found]
  obtain ⟨file, made⟩ : ∃ file, site.rootFile = .ok file :=
    ⟨_, strcpy_eq_ok_iff.mpr ⟨by rw [Nat.zero_add, List.length_replicate]; omega, rfl⟩⟩
  obtain ⟨short, rooted, zeros⟩ := rooted_rootFile made
  have prepared : site.prepare users r =
      site.prepareFile (kindAt url) ⟨file, url, users, none⟩ := by
    unfold Backend.prepare
    rw [made, pointer]
    dsimp only [bind, Except.bind]
    rw [text, found]
    dsimp only
    rw [kind, plain, if_neg Bool.false_ne_true]
  rw [prepared]
  unfold Backend.prepareFile Site.path
  cases fixed : fixedPage (kindAt url) with
  | some page =>
    have small := length_fixedPage fixed
    obtain ⟨file', copied⟩ : ∃ file', strncpy file site.docRoot.length page.toList
        page.toList.length = .ok file' :=
      ⟨_, strncpy_eq_ok_iff.mpr ⟨by rw [rooted.length]; omega, rfl⟩⟩
    have path := strAt_page rooted zeros (tame_fixedPage fixed).1 copied
    have length : file'.length = filenameLen := by
      rw [← (strncpy_eq_ok_iff.mp copied).2]
      exact (length_store _).trans rooted.length
    refine ⟨⟨file', url, users, none⟩, ?_, path, nul_mem_of_short ?_, rfl⟩
    · dsimp only
      rw [copied]
      rfl
    · rw [path, length, List.length_append]
      omega
  | none =>
    obtain ⟨file', copied⟩ :
        ∃ file', strncpy file site.docRoot.length url site.room = .ok file' := by
      refine ⟨_, strncpy_eq_ok_iff.mpr ⟨?_, rfl⟩⟩
      rw [rooted.length]
      unfold Backend.room
      omega
    obtain ⟨rooted', path⟩ := rooted_strncpy rooted short noNul copied
    refine ⟨⟨file', url, users, none⟩, ?_, path, rooted'.mem, rfl⟩
    dsimp only
    rw [copied]
    rfl

/-- What `do_request` answers for a page. -/
theorem exists_answer (passes : mismatch proxy decideProxy = false) (pointer : r.url = some p)
    (text : strAt r.readBuf p = url) (slash : '/' ∈ url)
    (plain : isForm r.cgi (kindAt url) = false) (users : Users) :
    ∃ a, site.answer proxy decideProxy users r = .ok a ∧ a.path = some (site.path url) ∧
      a.ret = site.verdict (site.path url) ∧ a.size = site.fileSize (site.path url) ∧
      a.users = users := by
  obtain ⟨s, prepared, path, ended, same⟩ :=
    site.exists_prepared pointer text slash plain users
  obtain ⟨ret, finished⟩ : ∃ ret, site.finish s = .ok ret := by
    unfold Backend.finish
    rw [if_pos ended]
    cases site.stat (strAt s.realFile 0) with
    | none => exact ⟨_, rfl⟩
    | some stat =>
      dsimp only
      rw [← apply_ite, ← apply_ite]
      exact ⟨_, rfl⟩
  refine ⟨⟨ret, some (strAt s.realFile 0), site.fileSize (strAt s.realFile 0), s.users,
    r.rewritten s⟩, ?_, ?_, ?_, ?_, same⟩
  · unfold Backend.answer
    rw [passes, if_neg Bool.false_ne_true, prepared]
    dsimp only [bind, Except.bind]
    rw [finished]
    rfl
  · exact congrArg some path
  · exact (finish_eq_ok finished).trans (congrArg site.verdict path)
  · exact congrArg site.fileSize path

end Site

/-! ### The response -/

namespace Conn

variable {c c' : Conn} {socket : Socket} {rounds rounds' i : ℕ} {done out : List Cell}
  {value : Bool}

/-- More rounds than the loop takes change nothing. -/
theorem loop_of_le {writev : ℕ → ℕ → ℤ × Bool} {result : Bool × Conn × List Cell}
    (returned : loop writev rounds i c done = some result) (more : rounds ≤ rounds') :
    loop writev rounds' i c done = some result := by
  induction rounds generalizing rounds' i c done with
  | zero => cases returned
  | succ rounds ih =>
    obtain ⟨rounds', rfl⟩ := Nat.exists_eq_add_of_le' (Nat.lt_of_lt_of_le rounds.succ_pos more)
    unfold loop at returned ⊢
    dsimp only at returned ⊢
    cases after : c.round (writev i c.pending.length).1 (writev i c.pending.length).2 with
    | goesOn c' =>
      rw [after] at returned
      exact ih returned (Nat.le_of_succ_le_succ more)
    | returns value c' =>
      rw [after] at returned
      exact returned

theorem linger_account (c : Conn) (temp : ℤ) : (c.account temp).linger = c.linger := by
  unfold account
  dsimp only
  split <;> rfl

/-- What `write` returns is whether the connection is kept alive. -/
theorem value_of_loop (returned : loop socket.writev rounds i c done = some (value, c', out))
    (small : out.length < 2 ^ 31) : value = c.linger := by
  induction rounds generalizing i c done with
  | zero => cases returned
  | succ rounds ih =>
    have sent : Finishes socket (rounds + 1) i c done out := ⟨value, c', returned⟩
    rw [loop_succ] at returned
    have taken : done.length + socket.taken i c ≤ out.length := by
      have within := socket.bounded i c.pending.length
      have starts : done ++ c.pending.take (socket.taken i c) <+: out := by
        cases after : c.round (socket.taken i c) false with
        | goesOn c' =>
          rw [after, Round.elim] at returned
          exact Finishes.prefix ⟨value, _, returned⟩
        | returns value c' =>
          rw [after, Round.elim] at returned
          cases returned
          exact List.prefix_refl _
      have shorter := starts.length_le
      rw [List.length_append, List.length_take] at shorter
      unfold Socket.taken at shorter ⊢
      omega
    have counted : int32 (socket.taken i c) = socket.taken i c :=
      int32_eq (Int.natCast_nonneg _) (by omega)
    unfold round at returned
    rw [counted] at returned
    dsimp only at returned
    rw [if_neg (by omega : ¬(socket.taken i c : ℤ) < 0)] at returned
    by_cases all : (c.account (socket.taken i c)).bytesToSend ≤ 0
    · rw [if_pos all] at returned
      by_cases keeps : (c.account (socket.taken i c)).linger = true
      · rw [if_pos keeps, Round.elim] at returned
        cases returned
        exact keeps.symm.trans (linger_account c _)
      · rw [if_neg keeps, Round.elim] at returned
        cases returned
        exact (eq_false_of_ne_true keeps).symm.trans (linger_account c _)
    · rw [if_neg all, Round.elim] at returned
      exact (ih returned).trans (linger_account c _)

/-- What is prepared for a file. -/
theorem processWrite_file (c : Conn) {size : ℕ} (some' : size ≠ 0) (fits : size ≤ addressSpace) :
    ∃ r : Response, c.init.processWrite .fileRequest size = (true, r.conn) ∧
      r.header = printed 200 ok200Title size c.linger [] ∧ r.fileSize = size ∧
      r.linger = c.linger := by
  have small : size < 2 ^ 31 := Nat.lt_of_le_of_lt fits (by decide)
  have length : (printed 200 ok200Title size c.linger []).length =
      (if c.linger then 59 else 54) + (Nat.toDigits 10 size).length := by
    rw [printed, List.append_nil, length_headerBlock]
  have digits : (Nat.toDigits 10 size).length ≤ 10 :=
    (Nat.length_toDigits_le_iff (by decide) (by decide)).mpr (by omega)
  have front : 0 < (if c.linger then 59 else 54) ∧ (if c.linger then 59 else 54) ≤ 59 := by
    cases c.linger <;> decide
  have room : (printed 200 ok200Title size c.linger []).length < writeBufferSize - 1 := by
    rw [length, writeBufferSize]
    omega
  refine ⟨⟨printed 200 ok200Title size c.linger [], by omega, by omega,
    some ⟨⟨size, fits⟩, Nat.pos_of_ne_zero some'⟩, c.iv1, c.linger⟩, ?_, rfl, rfl, rfl⟩
  rw [processWrite_fileRequest _ some']
  have text : (addHeaders size c.linger (addStatusLine 200 ok200Title []).2).2 =
      printed 200 ok200Title size c.linger [] := print_headers small room
  rw [writeBuf_init, linger_init, text]
  rfl

/-- A page that there is room for. -/
theorem page_of_room (c : Conn) {status : ℕ} {title form : String} (small : form.length < 2 ^ 31)
    (room : (printed status title form.length c.linger form.toList).length < writeBufferSize - 1) :
    c.init.page status title form = (true, { c.init with
      writeBuf := printed status title form.length c.linger form.toList }.headerOnly) := by
  have shorter : (printed status title form.length c.linger []).length + form.toList.length <
      writeBufferSize - 1 := by
    unfold printed at room ⊢
    rwa [List.append_nil, ← List.length_append]
  have headers := print_headers small (Nat.lt_of_le_of_lt (Nat.le_add_right _ _) shorter)
  have content : addContent form (printed status title form.length c.linger []) =
      (true, printed status title form.length c.linger form.toList) := by
    unfold addContent
    rw [addResponse_of_room shorter, printed, List.append_nil, printed]
  unfold page
  dsimp only [init]
  rw [headers, content]
  exact if_pos rfl

/-- What is prepared for a request that is refused, and for a directory. -/
theorem processWrite_refused (c : Conn) (size : ℕ) :
    ∃ r : Response, c.init.processWrite .badRequest size = (true, r.conn) ∧
      r.header = Site.notFound c.linger ∧ r.fileSize = 0 ∧ r.linger = c.linger := by
  have room : (Site.notFound c.linger).length < writeBufferSize - 1 ∧
      0 < (Site.notFound c.linger).length := by
    cases c.linger <;> decide +kernel
  refine ⟨⟨Site.notFound c.linger, room.2, by omega, none, c.iv1, c.linger⟩, ?_, rfl, rfl, rfl⟩
  unfold Site.notFound at room ⊢
  have page := page_of_room c (by decide +kernel) room.1
  exact page

end Conn

/-- The bytes at the front of a buffer, one after the other. -/
theorem map_byte_range {buf : List Char} {n : ℕ} (within : n ≤ buf.length) :
    (List.range n).map (buf[·]?) = (buf.take n).map some := by
  apply List.ext_getElem
  · simp [within]
  · intro i inside _
    rw [List.length_map, List.length_range] at inside
    simp [Nat.lt_of_lt_of_le inside within]

/-- The bytes of a response. -/
theorem map_byte_cells (r : Response) {file : List Char} (within : r.fileSize ≤ file.length) :
    r.cells.map (Cell.byte r.header file) = (r.header ++ file.take r.fileSize).map some := by
  have start : ∀ k : ℕ, (0 : ℤ) + k = Int.ofNat k := fun k => Int.zero_add _
  have header := map_byte_range (le_refl r.header.length)
  rw [List.take_length] at header
  unfold Response.cells IoVec.cells
  rw [List.map_append, List.map_map, List.map_map, List.map_append, ← header,
    ← map_byte_range within]
  congr 1
  · apply List.map_congr_left
    intro k _
    show Cell.byte r.header file (.writeBuf (0 + k)) = _
    rw [start]
    rfl
  · apply List.map_congr_left
    intro k _
    show Cell.byte r.header file (.file (0 + k)) = _
    rw [start]
    rfl

/-- A socket that takes the header in time is handed the whole response. -/
theorem Socket.Brisk.write {socket : Socket} (brisk : socket.Brisk) (r : Response) :
    ∃ enough c, ∀ rounds, enough ≤ rounds →
      r.conn.write socket.writev rounds = some (r.linger, c, r.cells) := by
  have reaches := brisk r.total
  have inside := r.inBuffer
  have total : r.total = r.header.length + r.fileSize := rfl
  obtain ⟨enough, value, c, written⟩ := delivers_of_le socket r (by omega)
  have left : r.conn.bytesToSend ≠ 0 := by
    have some := r.nonempty
    rw [r.conn_counters.2]
    omega
  have linger : r.conn.linger = r.linger := by
    unfold Response.conn
    cases r.file <;> rfl
  unfold Conn.write at written ⊢
  rw [if_neg left] at written
  have small : r.cells.length < 2 ^ 31 := r.length_cells ▸ r.total_lt
  obtain rfl : value = r.linger := (Conn.value_of_loop written small).trans linger
  refine ⟨enough, c, fun rounds more => ?_⟩
  rw [if_neg left]
  exact Conn.loop_of_le written more

/-! ### A pass through the loop -/

namespace Site

variable {site : Site} {proxy : ProxyType} {linger : Bool} {socket : Socket} {v : Visit}
  {text : List Char}

/-- What `process` answers to a request, on a connection on which `init()` has been called. -/
theorem exists_process (site : Site) (proxy : ProxyType) (linger : Bool) (users : Users)
    (k : HttpConn) (v : Visit) :
    ∃ p, site.process proxy users ⟨(k.init linger).reader.feed v.text, (k.init linger).conn⟩ =
        .ok p ∧ p.users = users ∧
      (p.value = false ∧ site.reply proxy linger v = none ∨
        p.value = true ∧ ∃ (r : Response) (file : List Char), p.conn.conn = r.conn ∧
          r.linger = linger ∧ file = (p.path.map site.contents).getD [] ∧
          r.fileSize ≤ file.length ∧
          site.reply proxy linger v = some (r.header ++ file.take r.fileSize)) := by
  have ready : (k.init linger).reader = k.reader.init := rfl
  obtain ⟨conn, begun, kept⟩ : ∃ conn : Conn, (k.init linger).conn = conn.init ∧
    conn.linger = linger := ⟨{ k.conn with linger := linger }, rfl, rfl⟩
  rw [ready, begun]
  unfold Site.reply
  by_cases refused : v.refused proxy = true
  · obtain ⟨a, decided, ret, path, same⟩ :=
      v.processRead_refused k.reader site.toBackend users refused
    obtain ⟨r, made, header, size, keeps⟩ := conn.processWrite_refused a.size
    have process := process_of_decided (k := ⟨k.reader.init.feed v.text, conn.init⟩) decided
      (by rw [ret]; decide)
    rw [ret, made] at process
    refine ⟨_, process, same, .inr ⟨rfl, r, _, rfl, keeps.trans kept, rfl, ?_, ?_⟩⟩
    · rw [size]
      exact Nat.zero_le _
    · rw [if_pos refused, size, List.take_zero, List.append_nil, header, kept]
  · obtain ⟨reader, p, called, pointer, cgi, str⟩ :=
      v.loop_text k.reader (eq_false_of_ne_true refused)
    have slash := slash_mem_pageOf (accepts_iff.mp v.accepts).2
    obtain ⟨a, answered, path, ret, size, same⟩ := site.exists_answer
      (eq_false_of_ne_true refused) pointer str slash (cgi ▸ v.plain) users
    have decided : site.processRead proxy users (k.reader.init.feed v.text) = .ok a := by
      show site.conclude proxy users ((k.reader.init.feed v.text).loop proxy .ok true) = _
      rw [called]
      exact answered
    have decides : a.ret ≠ .noRequest := by
      rw [ret]
      unfold Backend.verdict
      split
      · decide
      · split <;> decide
    have process := process_of_decided (k := ⟨k.reader.init.feed v.text, conn.init⟩) decided decides
    rw [if_neg refused]
    unfold Site.replyTo
    unfold Backend.verdict at ret
    unfold Backend.fileSize at size
    cases found : site.stat (site.path (pageOf v.page)) with
    | none =>
      -- `process_write` has no case for a file that is missing.
      rw [found] at ret
      rw [ret] at process
      exact ⟨_, process, same, .inl ⟨rfl, rfl⟩⟩
    | some stat =>
      rw [found] at ret size
      dsimp only at ret size ⊢
      by_cases directory : Backend.isDir stat.mode = true
      · rw [if_pos directory] at ret ⊢
        obtain ⟨r, made, header, none, keeps⟩ := conn.processWrite_refused a.size
        rw [ret, made] at process
        refine ⟨_, process, same, .inr ⟨rfl, r, _, rfl, keeps.trans kept, rfl, ?_, ?_⟩⟩
        · rw [none]
          exact Nat.zero_le _
        · rw [none, List.take_zero, List.append_nil, header, kept]
      · rw [if_neg directory] at ret ⊢
        by_cases empty : stat.size = 0
        · -- An empty file falls through to `default`.
          rw [ret, size, empty] at process
          exact ⟨_, process, same, .inl ⟨rfl, if_pos empty⟩⟩
        · obtain ⟨whole, fits⟩ := site.whole _ stat found (eq_false_of_ne_true directory)
          obtain ⟨r, made, header, all, keeps⟩ := conn.processWrite_file empty fits
          rw [ret, size, made] at process
          refine ⟨_, process, same, .inr ⟨rfl, r, site.contents (site.path (pageOf v.page)), rfl,
            keeps.trans kept, ?_, ?_, ?_⟩⟩
          · rw [path]
            rfl
          · rw [all, whole]
          · rw [if_neg empty, all, ← whole, List.take_length, header, kept, whole]
            simp [printed]

variable {site : Site} {proxy : ProxyType} {linger : Bool} {users : Users} {socket : Socket}
  {v : Visit} {text : List Char}

/-- There is room in `m_read_buf` after `init()`. -/
theorem pass_init (b : Backend) (rounds : ℕ) (users : Users) (k : HttpConn) (e : Exchange) :
    b.pass proxy rounds users (k.init linger) e = HttpConn.respond e.writev rounds
      (b.process proxy users ⟨(k.init linger).reader.feed e.received, (k.init linger).conn⟩) :=
  if_neg (show ¬0 ≥ readBufferSize by decide)

/-- A request without a reply ends the connection. -/
theorem pass_of_none (none : site.reply proxy linger v = none) (socket : Socket) (users : Users)
    (k : HttpConn) (rounds : ℕ) : ∃ c,
      site.pass proxy rounds users (k.init linger) ⟨v.text, socket.writev⟩ = .ends c users [] := by
  obtain ⟨p, process, rfl, ⟨value, -⟩ | ⟨-, r, file, -, -, -, -, reply⟩⟩ :=
    site.exists_process proxy linger users k v
  · refine ⟨p.conn, ?_⟩
    rw [pass_init, process]
    unfold HttpConn.respond
    dsimp only
    rw [value, if_neg Bool.false_ne_true]
  · cases none.symm.trans reply

/-- The reply to a request is handed to the socket, byte by byte, and the connection goes on if it
is kept alive. -/
theorem pass_of_some (brisk : socket.Brisk) (reply : site.reply proxy linger v = some text)
    (users : Users) (k : HttpConn) : ∃ enough sent, site.arrives sent = text.map some ∧
      ((linger = true ∧ ∃ k' : HttpConn, ∀ rounds, enough ≤ rounds →
          site.pass proxy rounds users (k.init linger) ⟨v.text, socket.writev⟩ =
            .goesOn (k'.init linger) users sent) ∨
        linger = false ∧ ∃ c, ∀ rounds, enough ≤ rounds →
          site.pass proxy rounds users (k.init linger) ⟨v.text, socket.writev⟩ =
            .ends c users [sent]) := by
  obtain ⟨p, process, rfl, ⟨-, none⟩ | ⟨value, r, file, conn, keeps, isFile, within, reply'⟩⟩ :=
    site.exists_process proxy linger users k v
  · cases none.symm.trans reply
  obtain ⟨enough, c, writes⟩ := brisk.write r
  obtain rfl := Option.some_inj.mp (reply'.symm.trans reply)
  refine ⟨enough, ⟨r.header, p.path, r.cells⟩, ?_, ?_⟩
  · unfold arrives
    rw [← isFile]
    exact map_byte_cells r within
  have respond : ∀ rounds, enough ≤ rounds →
      site.pass proxy rounds p.users (k.init linger) ⟨v.text, socket.writev⟩ =
        if linger then .goesOn ⟨if c.bytesToSend = 0 then p.conn.reader.init else p.conn.reader, c⟩
          p.users ⟨r.header, p.path, r.cells⟩
        else .ends ⟨p.conn.reader, c⟩ p.users [⟨r.header, p.path, r.cells⟩] := by
    intro rounds more
    rw [pass_init, process]
    unfold HttpConn.respond HttpConn.write
    dsimp only
    rw [value, if_pos rfl, conn, writes rounds more, keeps, Response.writeBuf_conn]
    cases linger with
    | true => simp
    | false => rfl
  cases linger with
  | true =>
    -- `write` has called `init()`.
    have written := writes enough le_rfl
    rw [keeps] at written
    obtain ⟨last, rfl, linger⟩ := Conn.init_of_write_socket written
    have kept : { last with linger := true } = last := by
      have long : r.conn.linger = true := by
        unfold Response.conn
        cases r.file <;> exact keeps
      rw [← linger.trans long]
    refine .inl ⟨rfl, ⟨p.conn.reader, last⟩, fun rounds more => ?_⟩
    rw [respond rounds more]
    unfold HttpConn.init
    rw [kept]
    rfl
  | false => exact .inr ⟨rfl, _, respond⟩

end Site

/-! ### All passes -/

section serves

variable {site : Site} {proxy : ProxyType} {linger : Bool} {sockets : ℕ → Socket}

/-- The passes for the requests that come, each of them at once. -/
theorem passes_serve (brisk : ∀ i, (sockets i).Brisk) (visits : List Visit) (i : ℕ) (users : Users)
    (k : HttpConn) : ∃ enough, ∀ rounds, enough ≤ rounds → ∃ sent,
      site.passes proxy rounds sockets i users (k.init linger) (visits.map (·.text)) = some sent ∧
        sent.map site.arrives = (site.serve proxy linger visits).map (·.map some) := by
  -- After each reply the connection is again one on which `init()` has been called.
  induction visits generalizing i k with
  | nil => exact ⟨0, fun _ _ => ⟨[], rfl, rfl⟩⟩
  | cons v visits ih =>
    rw [List.map_cons]
    unfold Backend.passes Site.serve
    cases reply : site.reply proxy linger v with
    | none =>
      refine ⟨0, fun rounds _ => ⟨[], ?_, rfl⟩⟩
      obtain ⟨c, ends⟩ := Site.pass_of_none reply (sockets i) users k rounds
      rw [ends]
    | some text =>
      obtain ⟨enough, sent, arrived, ⟨rfl, k', goesOn⟩ | ⟨rfl, c, ends⟩⟩ :=
        Site.pass_of_some (brisk i) reply users k
      · obtain ⟨enough', later⟩ := ih (i + 1) k'
        refine ⟨max enough enough', fun rounds more => ?_⟩
        obtain ⟨rest, passed, arrived'⟩ := later rounds (le_of_max_le_right more)
        refine ⟨sent :: rest, ?_, ?_⟩
        · rw [goesOn rounds (le_of_max_le_left more)]
          dsimp only
          rw [passed]
          rfl
        · rw [List.map_cons, arrived, arrived']
          rfl
      · refine ⟨enough, fun rounds more => ⟨[sent], ?_, ?_⟩⟩
        · rw [ends rounds more]
        · rw [List.map_singleton, arrived]
          rfl

/-- On a connection on which each request for a page comes at once, and whose socket takes the
header of each response in time, `handleClient` sends what the site replies, byte by byte and in
order. -/
theorem handleClient_serves (site : Site) (proxy : ProxyType) (brisk : ∀ i, (sockets i).Brisk)
    (users : Users) (c : HttpConn) (keepalive : Bool) (visits : List Visit) :
    ∃ enough, ∀ rounds, enough ≤ rounds → ∃ sent,
      site.handleClient proxy rounds sockets users c keepalive (visits.map (·.text)) = some sent ∧
        sent.map site.arrives = (site.serve proxy keepalive visits).map (·.map some) :=
  passes_serve brisk visits 0 users c

end serves

/-- A site that has one text under every name. -/
def helloSite : Site :=
  { pageServer with
    contents := fun _ => "hello".toList
    whole := by
      intro path stat found _
      cases found
      decide
    roomy := by decide }

/-- A request for a page, with a header. -/
def visitPage : Visit where
  requestLine := "GET /a.html HTTP/1.1".toList
  headers := ["Host: b".toList]
  body := []
  line := by decide
  accepted := by decide +kernel
  lines := by decide
  declared := by decide +kernel
  fits := by decide
  page := "/a.html".toList
  accepts := accepts_iff.mpr (by decide +kernel)
  plain := by decide +kernel

/-- A socket that takes all it is given. -/
def fastSocket : Socket where
  accepts _ given := given
  bounded _ given := le_refl given
  positive _ _ some := some

theorem handleClient_serves_hello :
    helloSite.serve .noProxy true [visitPage, visitPage] = List.replicate 2
      "HTTP/1.1 200 OK\r\nContent-Length:5\r\nConnection:keep-alive\r\n\r\nhello".toList ∧
    ∃ enough, ∀ rounds, enough ≤ rounds → ∃ sent,
      helloSite.handleClient .noProxy rounds (fun _ => fastSocket) (initmysqlResult []) newConn true
        ([visitPage, visitPage].map (·.text)) = some sent ∧
        sent.map helloSite.arrives =
          (helloSite.serve .noProxy true [visitPage, visitPage]).map (·.map some) :=
  ⟨by decide +kernel, handleClient_serves helloSite .noProxy
    (fun _ given => (min_le_left given _).trans (Nat.le_add_right _ _)) (initmysqlResult []) newConn
    true [visitPage, visitPage]⟩

end CoroutineService.Http
