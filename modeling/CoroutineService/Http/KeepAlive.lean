import CoroutineService.Http.BodyPointer
import CoroutineService.Http.Complete
import CoroutineService.Http.Pieces

/-!
# One request after another

On a connection that is kept alive, `handleClient` goes on to the next request after a response.
It takes what one call of `read_once` gives for one request: the bytes that follow a request are
discarded by the `init()` after the response, and a request of which a part is missing makes
`process` fail, which ends the connection.

## Main definitions

* `Backend.handleClient`: the loop, for the bytes that come in a row of calls of `read_once`
* `Backend.alone`: the responses that the requests get on new connections
* `AnswersEach`: `handleClient` sends these responses

## Main results

* `answersEach_of_aligned`: a request in each call of `read_once`
* `not_answersEach_of_fewer`: fewer calls than requests
* `not_answersEach_of_split`: a first call that ends within the first request
-/

set_option autoImplicit false

namespace CoroutineService.Http

open CString

/-- A connection for which nothing has been used before. -/
def newConn : HttpConn := ⟨unused, unusedConn⟩

namespace Backend

variable (b : Backend) (proxy : ProxyType) (rounds : ℕ) (sockets : ℕ → Socket)

/-- The loop of `handleClient`, until no more bytes come: what is sent. The response of the pass
`i` is taken by the socket `sockets i`. -/
def passes : ℕ → Users → HttpConn → List (List Char) → Option (List Sent)
  | _, _, _, [] => some []
  | i, users, c, p :: ps =>
    match b.pass proxy rounds users c ⟨p, (sockets i).writev⟩ with
    | .ends _ _ sent => some sent
    | .goesOn c users sent => (passes (i + 1) users c ps).map (sent :: ·)
    | .faults | .hangs => none

/-- `handleClient`, for a connection that is given this element of `users`. -/
def handleClient (users : Users) (c : HttpConn) (keepalive : Bool) (pieces : List (List Char)) :
    Option (List Sent) :=
  b.passes proxy rounds sockets 0 users (c.init keepalive) pieces

/-- Each of these requests comes at once, on a connection of its own: the responses, if each of
them is answered. -/
def alone : ℕ → Users → List (List Char) → Option (List Sent)
  | _, _, [] => some []
  | i, users, s :: ss =>
    match b.pass proxy rounds users (newConn.init true) ⟨s, (sockets i).writev⟩ with
    | .goesOn _ users sent => (alone (i + 1) users ss).map (sent :: ·)
    | .ends _ _ _ | .faults | .hangs => none

end Backend

/-- What a row of successful calls of `read_once` can give of a stream. -/
structure Received (stream : List Char) extends Cut stream where
  room : ∀ p ∈ pieces, p.length ≤ readBufferSize

/-- If each of the requests is answered on a new connection, `handleClient` sends the same
responses on one that is kept alive. -/
def AnswersEach (b : Backend) (proxy : ProxyType) (rounds : ℕ) (sockets : ℕ → Socket)
    (users : Users) (c : HttpConn) (requests pieces : List (List Char)) : Prop :=
  ∀ responses, b.alone proxy rounds sockets 0 users requests = some responses →
    b.handleClient proxy rounds sockets users c true pieces = some responses

/-! ### The `iovec`s of an earlier response -/

namespace Conn

variable {c d c' : Conn} {iv0 iv1 : IoVec} {n : ℕ} {writev : ℕ → ℕ → ℤ × Bool} {rounds i : ℕ}
  {done : List Cell} {ret : HttpCode} {size : ℕ}

/-- The connection, had its `iovec`s been something else. -/
def withIovecs (c : Conn) (iv0 iv1 : IoVec) (n : ℕ) : Conn :=
  { c with iv0 := iv0, iv1 := iv1, ivCount := n }

/-- Two connections that differ at most in an `m_iv[1]` that is not sent. -/
def Alike (c d : Conn) : Prop := d = c ∨ c.ivCount = 1 ∧ ∃ v, d = { c with iv1 := v }

theorem Alike.writeBuf (alike : Alike c d) : d.writeBuf = c.writeBuf := by
  rcases alike with rfl | ⟨-, v, rfl⟩
  · rfl
  · rfl

theorem alike_headerOnly : Alike c.headerOnly (c.withIovecs iv0 iv1 n).headerOnly :=
  .inr ⟨rfl, iv1, rfl⟩

theorem page_withIovecs {status : ℕ} {title form : String}
    (made : c.page status title form = (true, c')) :
    ∃ d', (c.withIovecs iv0 iv1 n).page status title form = (true, d') ∧ Alike c' d' := by
  have buf : (c.withIovecs iv0 iv1 n).writeBuf = c.writeBuf := rfl
  have linger : (c.withIovecs iv0 iv1 n).linger = c.linger := rfl
  unfold page at made ⊢
  rw [buf, linger]
  dsimp only at made ⊢
  generalize addContent form _ = added at made ⊢
  obtain ⟨added, text⟩ := added
  cases added with
  | false => cases (Prod.ext_iff.mp made).1
  | true =>
    have same : c' = { c with writeBuf := text }.headerOnly := (Prod.ext_iff.mp made).2.symm
    rw [same]
    exact ⟨_, rfl, alike_headerOnly⟩

variable (iv0 iv1 n) in
/-- What `process_write` prepares does not depend on the `iovec`s that it finds. -/
theorem processWrite_withIovecs (made : c.processWrite ret size = (true, c')) :
    ∃ d', (c.withIovecs iv0 iv1 n).processWrite ret size = (true, d') ∧ Alike c' d' := by
  cases ret with
  | internalError => exact page_withIovecs made
  | badRequest => exact page_withIovecs made
  | forbiddenRequest => exact page_withIovecs made
  | fileRequest =>
    by_cases some : size ≠ 0
    · rw [processWrite_fileRequest _ some] at made ⊢
      exact ⟨_, rfl, .inl (Prod.ext_iff.mp made).2⟩
    · have none : (c.processWrite .fileRequest size).1 = false := by
        unfold processWrite
        dsimp only
        rw [if_neg some]
      rw [made] at none
      cases none
  | noRequest => cases made
  | getRequest => cases made
  | noResource => cases made
  | closedConnection => cases made

theorem Alike.pending (alike : Alike c d) : d.pending = c.pending := by
  rcases alike with rfl | ⟨one, v, rfl⟩
  · rfl
  · unfold Conn.pending
    rw [one]
    rfl

theorem Alike.bytesToSend (alike : Alike c d) : d.bytesToSend = c.bytesToSend := by
  rcases alike with rfl | ⟨-, v, rfl⟩
  · rfl
  · rfl

theorem Alike.linger (alike : Alike c d) : d.linger = c.linger := by
  rcases alike with rfl | ⟨-, v, rfl⟩
  · rfl
  · rfl

theorem Alike.account (alike : Alike c d) (temp : ℤ) : Alike (c.account temp) (d.account temp) := by
  rcases alike with rfl | ⟨one, v, rfl⟩
  · exact .inl rfl
  · unfold Conn.account
    dsimp only
    split
    · -- `m_iv[1]` is pointed at the rest.
      exact .inl rfl
    · exact .inr ⟨one, v, rfl⟩

/-- The rounds of `write` end alike. -/
theorem Alike.loop (alike : Alike c d) {value : Bool} {sent : List Cell}
    (returned : Conn.loop writev rounds i c done = some (value, c', sent)) :
    ∃ d', Conn.loop writev rounds i d done = some (value, d', sent) := by
  induction rounds generalizing i c d done with
  | zero => cases returned
  | succ rounds ih =>
    have counted := alike.account (int32 (writev i c.pending.length).1)
    unfold Conn.loop at returned ⊢
    rw [alike.pending]
    unfold Conn.round at returned ⊢
    dsimp only at returned ⊢
    rw [counted.bytesToSend, counted.linger]
    by_cases failed : int32 (writev i c.pending.length).1 < 0
    · rw [if_pos failed] at returned ⊢
      cases returned
      exact ⟨_, rfl⟩
    · rw [if_neg failed] at returned ⊢
      by_cases all : (c.account (int32 (writev i c.pending.length).1)).bytesToSend ≤ 0
      · rw [if_pos all] at returned ⊢
        split at returned
        · next keeps =>
          rw [if_pos keeps]
          cases returned
          exact ⟨_, rfl⟩
        · next closes =>
          rw [if_neg closes]
          cases returned
          exact ⟨_, rfl⟩
      · rw [if_neg all] at returned ⊢
        exact ih counted returned

theorem Alike.write (alike : Alike c d) {value : Bool} {sent : List Cell}
    (returned : c.write writev rounds = some (value, c', sent)) :
    ∃ d', d.write writev rounds = some (value, d', sent) := by
  unfold Conn.write at returned ⊢
  rw [alike.bytesToSend]
  split at returned
  · next none =>
    rw [if_pos none]
    cases returned
    exact ⟨_, rfl⟩
  · next left =>
    rw [if_neg left]
    exact alike.loop returned

theorem linger_page {status : ℕ} {title form : String} :
    (c.page status title form).2.linger = c.linger := by
  unfold page
  dsimp only
  split <;> rfl

/-- `process_write` leaves `m_linger` alone. -/
theorem linger_processWrite : (c.processWrite ret size).2.linger = c.linger := by
  unfold processWrite
  split
  · exact linger_page
  · exact linger_page
  · exact linger_page
  · dsimp only
    split <;> rfl
  · rfl
  · rfl
  · rfl
  · rfl

end Conn

/-- On a socket that is never full, a response that is sent for one connection is sent for another
one that is alike, which is kept alive and ready for the next request. -/
theorem HttpConn.write_of_alike {c c' d : HttpConn} {socket : Socket} {rounds : ℕ}
    {cells : List Cell} (alike : Conn.Alike c.conn d.conn) (keeps : d.conn.linger = true)
    (written : c.write socket.writev rounds = some (true, c', cells)) :
    ∃ k : HttpConn, d.write socket.writev rounds = some (true, k.init true, cells) := by
  unfold HttpConn.write at written
  split at written
  · cases written
  · next value conn sent returned =>
    cases written
    obtain ⟨conn', returned'⟩ := alike.write returned
    obtain ⟨last, rfl, linger⟩ := Conn.init_of_write_socket returned'
    have same : { last with linger := true } = last := by
      rw [← linger.trans keeps]
    refine ⟨⟨d.reader, last⟩, ?_⟩
    unfold HttpConn.write HttpConn.init
    rw [returned', same]
    rfl

/-! ### The pointer of an earlier request -/

namespace Backend

variable {b : Backend} {proxy : ProxyType} {rounds : ℕ} {users users' : Users} {r : Reader}
  {a : Answer} {c c' : HttpConn} {e : Exchange} {sent : Sent}

/-- A request that is decided upon without an earlier pointer to a body is decided upon in the same
way with any such pointer. -/
theorem processRead_withString (string : Option ℕ) (unset : r.string = none)
    (decided : b.processRead proxy users r = .ok a) :
    ∃ r', b.processRead proxy users (r.withString string) = .ok { a with reader := r' } := by
  have other := Reader.loop_withString proxy .ok true string r
  unfold processRead at decided ⊢
  rw [other]
  rcases looped : r.loop proxy .ok true with ⟨exit, decideProxy, r'⟩
  rw [looped] at decided
  cases exit with
  | bad =>
    cases decided
    exact ⟨_, rfl⟩
  | left =>
    cases decided
    exact ⟨_, rfl⟩
  | fault => cases decided
  | request =>
    replace decided : b.answer proxy decideProxy users r' = .ok a := decided
    unfold Reader.withStringAfter
    by_cases set : Reader.setsString (.request, decideProxy, r') = true
    · -- `parse_content` has set it, so that the earlier one is forgotten.
      rw [if_pos set]
      exact ⟨_, decided⟩
    · -- A form would have read the pointer that was not set.
      rw [if_neg set]
      have still : r'.string = none := by
        have kept := @Reader.string_of_loop proxy .ok true r
          (by rw [looped]; exact Bool.eq_false_iff.mpr set)
        rw [looped] at kept
        exact kept.trans unset
      have noForm : entersForm proxy decideProxy r' = false :=
        Bool.eq_false_iff.mpr fun form => answer_unset form still a decided
      refine ⟨a.reader.withString string, ?_⟩
      show b.answer proxy decideProxy users (r'.withString string) = _
      rw [answer_withString noForm, decided]
      rfl

/-- `process` answers what `process_read` has decided and `process_write` has prepared. -/
theorem decided_of_process {p : Processed} (processed : b.process proxy users c = .ok p)
    (answers : p.value = true) : ∃ a conn, b.processRead proxy users c.reader = .ok a ∧
      a.ret ≠ .noRequest ∧ c.conn.processWrite a.ret a.size = (true, conn) ∧
      p = ⟨true, ⟨a.reader, conn⟩, a.users, a.path⟩ := by
  have same := processed
  unfold process at processed
  obtain ⟨a, decided, processed⟩ := exists_of_bind processed
  by_cases unfinished : a.ret = .noRequest
  · rw [if_pos unfinished] at processed
    cases processed
    cases answers
  · rw [process_of_decided decided unfinished] at same
    rcases made : c.conn.processWrite a.ret a.size with ⟨value, conn⟩
    rw [made] at same
    cases same
    subst answers
    exact ⟨a, conn, decided, unfinished, made, rfl⟩

theorem respond_eq_goesOn_iff {x : Except Fault Processed} :
    HttpConn.respond e.writev rounds x = .goesOn c' users' sent ↔
      ∃ p cells, x = .ok p ∧ p.value = true ∧
        p.conn.write e.writev rounds = some (true, c', cells) ∧
        users' = p.users ∧ sent = ⟨p.conn.conn.writeBuf, p.path, cells⟩ := by
  unfold HttpConn.respond
  constructor
  · intro went
    cases x with
    | error fault => cases went
    | ok p =>
      dsimp only at went
      split at went
      · next answers =>
        split at went
        · cases went
        · cases went
        · next c' cells written =>
          cases went
          exact ⟨p, cells, rfl, answers, written, rfl, rfl⟩
      · cases went
  · rintro ⟨p, cells, rfl, answers, written, rfl, rfl⟩
    dsimp only
    rw [if_pos answers, written]

/-- A pass goes on to the next one if it has answered a request. -/
theorem pass_eq_goesOn_iff : b.pass proxy rounds users c e = .goesOn c' users' sent ↔
    c.reader.readIdx < readBufferSize ∧ ∃ a conn cells,
      b.processRead proxy users (c.reader.feed e.received) = .ok a ∧ a.ret ≠ .noRequest ∧
      c.conn.processWrite a.ret a.size = (true, conn) ∧
      HttpConn.write ⟨a.reader, conn⟩ e.writev rounds = some (true, c', cells) ∧
      users' = a.users ∧ sent = ⟨conn.writeBuf, a.path, cells⟩ := by
  unfold pass
  by_cases full : c.reader.readIdx ≥ readBufferSize
  · rw [if_pos full]
    exact iff_of_false nofun fun went => absurd full (Nat.not_le.mpr went.1)
  rw [if_neg full, and_iff_right (Nat.not_le.mp full), respond_eq_goesOn_iff]
  constructor
  · rintro ⟨p, cells, processed, answers, written, rfl, rfl⟩
    obtain ⟨a, conn, decided, finished, made, rfl⟩ := decided_of_process processed answers
    exact ⟨a, conn, cells, decided, finished, made, written, rfl, rfl⟩
  · rintro ⟨a, conn, cells, decided, finished, made, written, rfl, rfl⟩
    refine ⟨_, cells, process_of_decided decided finished, ?_⟩
    rw [made]
    exact ⟨rfl, written, rfl, rfl⟩

/-- A request that is answered on a new connection is answered alike on one that has been used
before, and the next request finds such a connection again. -/
theorem pass_of_newConn {socket : Socket} {text : List Char} (k : HttpConn)
    (answered : b.pass proxy rounds users (newConn.init true) ⟨text, socket.writev⟩ =
      .goesOn c' users' sent) :
    ∃ k' : HttpConn, b.pass proxy rounds users (k.init true) ⟨text, socket.writev⟩ =
      .goesOn (k'.init true) users' sent := by
  obtain ⟨-, a, conn, cells, decided, finished, made, written, rfl, rfl⟩ :=
    pass_eq_goesOn_iff.mp answered
  -- What `init()` leaves of an earlier request is `m_string` and the `iovec`s.
  have reader : (k.init true).reader.feed text =
      ((newConn.init true).reader.feed text).withString k.reader.string := rfl
  have ranges : (k.init true).conn =
      (newConn.init true).conn.withIovecs k.conn.iv0 k.conn.iv1 k.conn.ivCount := rfl
  obtain ⟨r', decided'⟩ := processRead_withString k.reader.string rfl decided
  obtain ⟨conn', made', alike⟩ :=
    Conn.processWrite_withIovecs k.conn.iv0 k.conn.iv1 k.conn.ivCount made
  have keeps : conn'.linger = true := by
    have kept := @Conn.linger_processWrite (k.init true).conn a.ret a.size
    rw [ranges, made'] at kept
    exact kept
  obtain ⟨k', written'⟩ := HttpConn.write_of_alike (d := ⟨r', conn'⟩) alike keeps written
  have room : (k.init true).reader.readIdx < readBufferSize := show 0 < readBufferSize by decide
  refine ⟨k', pass_eq_goesOn_iff.mpr ⟨room, { a with reader := r' }, conn', cells, ?_⟩⟩
  rw [reader, ranges, alike.writeBuf]
  exact ⟨decided', finished, made', written', rfl, rfl⟩

variable {sockets : ℕ → Socket} {i : ℕ} {requests pieces : List (List Char)} {responses : List Sent}

/-- Requests that are answered alone are answered one after the other if each of them comes at
once. -/
theorem passes_of_alone (k : HttpConn)
    (answered : b.alone proxy rounds sockets i users requests = some responses) :
    b.passes proxy rounds sockets i users (k.init true) requests = some responses := by
  -- After each request the connection is again one on which `init()` has been called.
  induction requests generalizing i users k responses with
  | nil => exact answered
  | cons s ss ih =>
    unfold alone at answered
    split at answered
    · next c users' sent went =>
      obtain ⟨later, laterAnswered, same⟩ := Option.map_eq_some_iff.mp answered
      obtain ⟨k', went'⟩ := pass_of_newConn k went
      unfold passes
      rw [went']
      dsimp only
      rw [ih k' laterAnswered, ← same]
      rfl
    · cases answered
    · cases answered
    · cases answered

theorem length_of_alone
    (answered : b.alone proxy rounds sockets i users requests = some responses) :
    responses.length = requests.length := by
  induction requests generalizing i users responses with
  | nil =>
    cases answered
    rfl
  | cons s ss ih =>
    unfold alone at answered
    split at answered
    · obtain ⟨later, laterAnswered, rfl⟩ := Option.map_eq_some_iff.mp answered
      exact congrArg Nat.succ (ih laterAnswered)
    · cases answered
    · cases answered
    · cases answered

/-- A pass sends at most one response. -/
theorem length_of_ends {sent : List Sent}
    (ended : b.pass proxy rounds users c e = .ends c' users' sent) : sent.length ≤ 1 := by
  unfold pass at ended
  split at ended
  · cases ended
    exact Nat.zero_le _
  · unfold HttpConn.respond at ended
    split at ended
    · cases ended
    · split at ended
      · split at ended
        · cases ended
        · cases ended
          exact Nat.le_refl _
        · cases ended
      · cases ended
        exact Nat.zero_le _

/-- There are no more responses than calls of `read_once`. -/
theorem length_of_passes
    (served : b.passes proxy rounds sockets i users c pieces = some responses) :
    responses.length ≤ pieces.length := by
  induction pieces generalizing i users c responses with
  | nil =>
    cases served
    exact Nat.le_refl _
  | cons p ps ih =>
    unfold passes at served
    split at served
    · next ended =>
      cases served
      exact Nat.le_trans (length_of_ends ended) (Nat.succ_le_succ (Nat.zero_le _))
    · obtain ⟨later, laterServed, rfl⟩ := Option.map_eq_some_iff.mp served
      exact Nat.succ_le_succ (ih laterServed)
    · cases served
    · cases served

end Backend

/-! ### The result -/

section requests

variable {b : Backend} {proxy : ProxyType} {rounds : ℕ} {sockets : ℕ → Socket} {users : Users}
  {requests : List (List Char)}

/-- Every request is answered if each call of `read_once` gives one request. -/
theorem answersEach_of_aligned (b : Backend) (proxy : ProxyType) (rounds : ℕ)
    (sockets : ℕ → Socket) (users : Users) (c : HttpConn) (requests : List (List Char))
    (received : Received requests.flatten) (aligned : received.pieces = requests) :
    AnswersEach b proxy rounds sockets users c requests received.pieces := by
  intro responses answered
  rw [aligned]
  exact Backend.passes_of_alone c answered

/-- With fewer calls of `read_once` than requests, some request is not answered. -/
theorem not_answersEach_of_fewer {c : HttpConn} {pieces : List (List Char)} {responses : List Sent}
    (answered : b.alone proxy rounds sockets 0 users requests = some responses)
    (fewer : pieces.length < requests.length) :
    ¬ AnswersEach b proxy rounds sockets users c requests pieces := by
  intro answersEach
  have served := Backend.length_of_passes (answersEach responses answered)
  rw [Backend.length_of_alone answered] at served
  exact absurd fewer (Nat.not_lt.mpr served)

/-- A call of `read_once` that ends within a request, on which no header casts doubt, ends the
connection without a response. -/
theorem pass_of_split (c : HttpConn) (s : Request) (unforwarded : s.forwarded = [])
    {p rest : List Char} (whole : p ++ rest = s.text) (more : rest ≠ [])
    (writev : ℕ → ℕ → ℤ × Bool) :
    ∃ c', b.pass .noProxy rounds users (c.init true) ⟨p, writev⟩ = .ends c' users [] := by
  have onTrack := s.onTrack .noProxy c.reader
  rw [unforwarded, ← whole] at onTrack
  -- Whether or not the rest could still be read as it should, the loop is left.
  have left : ∃ r', (c.reader.init.feed p).loop .noProxy .ok true = (.left, true, r') := by
    cases onTrack.outcome with
    | refused _ early => cases early
    | waits r' _ _ left => exact ⟨r', left true⟩
    | strays r' _ _ left => exact ⟨r', left true⟩
    | done _ last => exact absurd last more
  obtain ⟨r', left⟩ := left
  have undecided : b.processRead .noProxy users (c.reader.init.feed p) =
      .ok ⟨.noRequest, none, 0, users, r'⟩ := by
    unfold Backend.processRead
    rw [left]
    rfl
  have processed : b.process .noProxy users ⟨c.reader.init.feed p, (c.init true).conn⟩ =
      .ok ⟨false, ⟨r', (c.init true).conn⟩, users, none⟩ := by
    unfold Backend.process
    rw [undecided]
    rfl
  have room : ¬ (c.init true).reader.readIdx ≥ readBufferSize :=
    show ¬ 0 ≥ readBufferSize by decide
  refine ⟨⟨r', (c.init true).conn⟩, ?_⟩
  unfold Backend.pass
  rw [if_neg room]
  show HttpConn.respond writev rounds
    (b.process .noProxy users ⟨c.reader.init.feed p, (c.init true).conn⟩) = _
  rw [processed]
  rfl

/-- If the first call of `read_once` ends within the first request, it is not answered. -/
theorem not_answersEach_of_split {c : HttpConn} (s : Request) (unforwarded : s.forwarded = [])
    {p rest : List Char} {ps : List (List Char)} (whole : p ++ rest = s.text) (more : rest ≠ [])
    {responses : List Sent}
    (answered : b.alone .noProxy rounds sockets 0 users (s.text :: requests) = some responses) :
    ¬ AnswersEach b .noProxy rounds sockets users c (s.text :: requests) (p :: ps) := by
  intro answersEach
  have served := answersEach responses answered
  obtain ⟨c', ended⟩ := @pass_of_split b rounds users c s unforwarded p rest whole more
    (sockets 0).writev
  unfold Backend.handleClient Backend.passes at served
  rw [ended] at served
  cases served
  exact absurd (Backend.length_of_alone answered) (Nat.succ_ne_zero _).symm

end requests

/-- A request for a page. -/
def fansRequest : Request where
  requestLine := "GET /fans.html HTTP/1.1".toList
  headers := []
  body := []
  line := by decide +kernel
  accepted := by decide +kernel
  lines := nofun
  declared := rfl
  fits := by decide +kernel

/-- A socket that takes all it is given. -/
def wideSocket : Socket := ⟨fun _ given => given, fun _ _ => Nat.le_refl _, fun _ _ some => some⟩

/-- The request, twice. -/
def twice : List Request := [fansRequest, fansRequest]

/-- Each of the two requests comes at once. -/
def oneByOne : Received (twice.map Request.text).flatten where
  pieces := [fansRequest.text, fansRequest.text]
  nonempty := by decide +kernel
  flatten := by decide +kernel
  room := by decide +kernel

theorem answersEach_oneByOne :
    (pageServer.alone .noProxy 1 (fun _ => wideSocket) 0 (initmysqlResult [])
        (twice.map Request.text)).map List.length = some 2 ∧
      AnswersEach pageServer .noProxy 1 (fun _ => wideSocket) (initmysqlResult []) newConn
        (twice.map Request.text) oneByOne.pieces :=
  ⟨by decide +kernel, answersEach_of_aligned _ _ _ _ _ _ _ oneByOne rfl⟩

/-- Both requests come at once. -/
def together : Received (twice.map Request.text).flatten where
  pieces := [fansRequest.text ++ fansRequest.text]
  nonempty := by decide +kernel
  flatten := by decide +kernel
  room := by decide +kernel

/-- One of two requests that come together is not answered. -/
theorem not_answersEach : ¬ ∀ (b : Backend) proxy rounds sockets users (c : HttpConn)
    (requests : List Request) (received : Received (requests.map Request.text).flatten),
      AnswersEach b proxy rounds sockets users c (requests.map Request.text) received.pieces := by
  intro answersEach
  have both : (pageServer.alone .noProxy 1 (fun _ => wideSocket) 0 (initmysqlResult [])
      (twice.map Request.text)).isSome = true := by
    decide +kernel
  obtain ⟨responses, answered⟩ := Option.isSome_iff_exists.mp both
  have fewer : together.pieces.length < (twice.map Request.text).length := by decide
  exact not_answersEach_of_fewer answered fewer (answersEach _ _ _ _ _ newConn twice together)

end CoroutineService.Http
