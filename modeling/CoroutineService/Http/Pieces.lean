import CoroutineService.Http.Lines

/-!
# Requests that arrive in pieces

`process_read` is called after each piece of a request that is appended to
`m_read_buf`. It is to ask for more until the last piece has come, and then to decide
as if the request had come at once. Two things stand in the way: `decide_proxy` starts
anew in each call and is tested even when the request is incomplete, and `parse_line`
goes past the beginning of a body that has not been read completely.

## Main definitions

* `Request`: a well-formed request
* `Server.replies`: what the calls for the pieces of a request return
* `AsWhole`: the request is read as if it had come at once
* `Request.Kept`: the cuts that `process_read` copes with
* `OnTrack`: a reader that goes on as if it had read no piece yet

## Main results

* `OnTrack.outcome`: one call of `process_read`
* `asWhole_iff`: the cuts for which a request is read as a whole
* `not_asWhole`: a request cut within its body
-/

set_option autoImplicit false

namespace CoroutineService.Http

open CString

/-- Lines, with whether they are `X-Forwarded-By` headers, and what follows them. -/
def stream (body : List Char) : List (List Char × Bool) → List Char
  | [] => crlf ++ body
  | l :: ls => l.1 ++ (crlf ++ stream body ls)

/-- The places behind the `X-Forwarded-By` headers, where the lines start at `start`. -/
def forwardedEnds : ℕ → List (List Char × Bool) → List ℕ
  | _, [] => []
  | start, l :: ls =>
    if l.2 then (start + l.1.length + 2) :: forwardedEnds (start + l.1.length + 2) ls
    else forwardedEnds (start + l.1.length + 2) ls

/-- The lines of a request. -/
def linesOf (requestLine : List Char) (headers : List (List Char)) : List (List Char × Bool) :=
  (requestLine, false) :: headers.map fun h => (h, decide (kindOf h = .forwardedBy))

/-- A well-formed request that fits into `m_read_buf`. -/
structure Request where
  requestLine : List Char
  headers : List (List Char)
  body : List Char
  line : IsLine requestLine
  accepted : accepts requestLine = true
  lines : ∀ h ∈ headers, IsLine h ∧ h ≠ []
  declared : headers.foldl Http.declared 0 = body.length
  fits : (stream body (linesOf requestLine headers)).length ≤ readBufferSize

namespace Request

variable (s : Request)

/-- The bytes of a request. -/
def text : List Char := stream s.body (linesOf s.requestLine s.headers)

/-- Where the body begins. -/
def bodyStart : ℕ := s.text.length - s.body.length

/-- The places behind the `X-Forwarded-By` headers of a request. -/
def forwarded : List ℕ := forwardedEnds 0 (linesOf s.requestLine s.headers)

end Request

/-- A way to cut a text into pieces. -/
structure Cut (text : List Char) where
  pieces : List (List Char)
  nonempty : ∀ p ∈ pieces, p ≠ []
  flatten : pieces.flatten = text

/-- Every piece, given by where it begins and ends, is of this kind. -/
def EveryPiece (P : ℕ → ℕ → Prop) : ℕ → List (List Char) → Prop
  | _, [] => True
  | start, p :: ps => P start (start + p.length) ∧ EveryPiece P (start + p.length) ps

/-- What a call of `process_read` decides, if its behaviour is defined. -/
structure Reply where
  verdict : Option HttpCode
  method : Method
  url : Option (List Char)
  contentLength : ℤ
  body : Option (List Char)
  forwardedBy : Bool
  deriving DecidableEq, Repr

/-- What can be seen after a call of `process_read`. -/
def Reply.of : Option HttpCode × Bool × Reader → Reply
  | (ret, decideProxy, r) =>
    { verdict := ret
      method := r.method
      url := r.url.map (strAt r.readBuf)
      contentLength := r.contentLength
      body := r.string.map fun p => (r.readBuf.drop p).take r.contentLength.toNat
      forwardedBy := !decideProxy }

namespace Server

variable (server : Server) (proxy : ProxyType)

/-- The reply to what has been read so far. -/
def reply (r : Reader) : Reply := Reply.of (server.processRead proxy r)

/-- The replies after each of these pieces. -/
def replies : Reader → List (List Char) → List Reply
  | _, [] => []
  | r, p :: ps =>
    server.reply proxy (r.feed p) :: replies (server.processRead proxy (r.feed p)).2.2 ps

end Server

/-- More is asked for until the last reply, which is `whole`. -/
def Coherent (whole : Reply) (replies : List Reply) : Prop :=
  (∀ reply ∈ replies.dropLast, reply.verdict = some .noRequest) ∧ replies.getLast? = some whole

/-- The pieces of a request are read as if it had come at once. -/
def AsWhole (server : Server) (proxy : ProxyType) (c : Reader) (s : Request) (cut : Cut s.text) :
    Prop :=
  Coherent (server.reply proxy (c.init.feed s.text)) (server.replies proxy c.init cut.pieces)

/-- The cuts that `process_read` copes with. With nginx every piece has to end an
`X-Forwarded-By` header. Without a proxy there must be none before the last piece, and
a piece that ends within the body leaves it alone only if it ends before the body or
`parse_line` stays at its first byte. -/
def Request.Kept (s : Request) : ProxyType → List (List Char) → Prop
  | .nginx, pieces =>
    pieces.length = 1 ∨ EveryPiece (fun a b => ∃ e ∈ s.forwarded, a < e ∧ e ≤ b) 0 pieces
  | .noProxy, pieces =>
    EveryPiece (fun _ b => b < s.text.length →
      (∀ e ∈ s.forwarded, b < e) ∧ Reader.Stays (s.body.take (b - s.bodyStart))) 0 pieces

/-! ### Pieces and replies -/

section pieces

variable {P Q : ℕ → ℕ → Prop} {start : ℕ} {pieces : List (List Char)} {whole reply : Reply}
  {replies : List Reply}

theorem everyPiece_congr (same : ∀ a b, start ≤ a → (P a b ↔ Q a b)) :
    EveryPiece P start pieces ↔ EveryPiece Q start pieces := by
  induction pieces generalizing start with
  | nil => exact Iff.rfl
  | cons p ps ih =>
    have later : ∀ a b, start + p.length ≤ a → (P a b ↔ Q a b) := fun a b behind =>
      same a b (Nat.le_of_add_right_le behind)
    exact and_congr (same _ _ (Nat.le_refl start)) (ih later)

theorem coherent_single : Coherent whole [reply] ↔ reply = whole := by
  simp [Coherent]

theorem coherent_cons (more : replies ≠ []) :
    Coherent whole (reply :: replies) ↔
      reply.verdict = some .noRequest ∧ Coherent whole replies := by
  unfold Coherent
  rw [List.dropLast_cons_of_ne_nil more, List.forall_mem_cons, List.getLast?_cons, and_assoc]
  cases last : replies.getLast? with
  | none => exact absurd (List.getLast?_eq_none_iff.mp last) more
  | some x => rfl

theorem Coherent.mem (coherent : Coherent whole replies) : whole ∈ replies :=
  List.mem_of_getLast? coherent.2

theorem forwardedEnds_cons (start : ℕ) (l : List Char × Bool) (ls : List (List Char × Bool)) :
    forwardedEnds start (l :: ls) =
      if l.2 then (start + l.1.length + 2) :: forwardedEnds (start + l.1.length + 2) ls
      else forwardedEnds (start + l.1.length + 2) ls :=
  rfl

/-- Headers end behind the places where they start. -/
theorem lt_of_mem_forwardedEnds {ls : List (List Char × Bool)} {e : ℕ}
    (listed : e ∈ forwardedEnds start ls) : start < e := by
  induction ls generalizing start with
  | nil => cases listed
  | cons l ls ih =>
    unfold forwardedEnds at listed
    split_ifs at listed
    · rcases List.mem_cons.mp listed with rfl | listed
      · omega
      · have := ih listed
        omega
    · have := ih listed
      omega

/-- No header ends before the first line does. -/
theorem le_of_mem_forwardedEnds {l : List Char × Bool} {ls : List (List Char × Bool)} {e : ℕ}
    (listed : e ∈ forwardedEnds start (l :: ls)) : start + l.1.length + 2 ≤ e := by
  unfold forwardedEnds at listed
  split_ifs at listed
  · rcases List.mem_cons.mp listed with rfl | listed
    · exact Nat.le_refl _
    · exact Nat.le_of_lt (lt_of_mem_forwardedEnds listed)
  · exact Nat.le_of_lt (lt_of_mem_forwardedEnds listed)

end pieces

/-- Bytes of lines either end the first line, or do not end any. -/
theorem split_line {l u rest q : List Char} (line : IsLine l)
    (flow : u ++ rest = l ++ (crlf ++ q)) :
    ('\n' ∉ u ∧ u.length < l.length + 2) ∨ ∃ u', u = l ++ (crlf ++ u') ∧ u' ++ rest = q := by
  have quiet : '\n' ∉ l ++ ['\r'] := by
    intro lf
    rcases List.mem_append.mp lf with lf | lf
    · exact (line _ lf).2.1 rfl
    · simp at lf
  have front : u ++ rest = (l ++ ['\r']) ++ ('\n' :: q) := by
    rw [flow, List.append_assoc]
    rfl
  rcases List.append_eq_append_iff.mp front with ⟨x, short, -⟩ | ⟨x, long, tail⟩
  · refine Or.inl ⟨fun lf => quiet (short ▸ List.mem_append_left x lf), ?_⟩
    have lengths := congrArg List.length short
    rw [List.length_append, List.length_append, List.length_singleton] at lengths
    omega
  · cases x with
    | nil =>
      rw [List.append_nil] at long
      subst long
      refine Or.inl ⟨quiet, ?_⟩
      rw [List.length_append, List.length_singleton]
      omega
    | cons y x =>
      rw [List.cons_append] at tail
      injection tail with first rest'
      subst first
      refine Or.inr ⟨x, ?_, rest'.symm⟩
      rw [long, List.append_assoc]
      rfl

/-! ### Readers on track -/

open Reader

/-- An `X-Forwarded-By` header has ended by `b`. -/
def passed (es : List ℕ) (b : ℕ) : Bool := es.any (· ≤ b)

/-- What has been read of the body when `rest` is to come. -/
def bodyRead (body rest : List Char) : List Char := body.take (body.length - rest.length)

section track

variable (proxy : ProxyType) (body : List Char)

/-- A reader before these lines, each of which is consumed, or refused because it is an
`X-Forwarded-By` header and there is no proxy. -/
inductive Script : Reader → List (List Char × Bool) → Prop
  | blank {c : Reader} (here : AtLine c) (state : c.checkState = .header)
      (length : c.contentLength = body.length)
      (fits : c.readBuf.length + 2 + body.length ≤ readBufferSize) : Script c []
  | refused {c : Reader} {l : List Char × Bool} {ls : List (List Char × Bool)} (here : AtLine c)
      (state : c.checkState ≠ .content) (line : IsLine l.1) (forwarded : l.2 = true)
      (noProxy : proxy = .noProxy)
      (refuses : ∀ decideProxy q,
        (loop proxy .ok decideProxy (c.feed (l.1 ++ (crlf ++ q)))).1 = .bad) :
      Script c (l :: ls)
  | line {c c' : Reader} {l : List Char × Bool} {ls : List (List Char × Bool)} (here : AtLine c)
      (state : c.checkState ≠ .content) (line : IsLine l.1) (allowed : l.2 = true → proxy = .nginx)
      (takes : ∀ decideProxy q, loop proxy .ok decideProxy (c.feed (l.1 ++ (crlf ++ q))) =
        loop proxy .ok (decideProxy && !l.2) (c'.feed q))
      (length : c'.readBuf.length = c.readBuf.length + l.1.length + 2) (next : Script c' ls) :
      Script c (l :: ls)

/-- A reader that goes on as if it had read no piece yet: `rest` is to come, with
`X-Forwarded-By` headers that end at `es`. -/
inductive OnTrack : Reader → List Char → List ℕ → Prop
  | line {c : Reader} {ls : List (List Char × Bool)} {t rest : List Char}
      (script : Script proxy body c ls) (none : '\n' ∉ t) (flow : t ++ rest = stream body ls)
      (more : rest ≠ []) :
      OnTrack (c.partly t) rest (forwardedEnds c.readBuf.length ls)
  | body {c : Reader} {m u rest : List Char} (inBody : InBody c m u body.length) (stays : Stays u)
      (flow : u ++ rest = body) (more : rest ≠ []) : OnTrack c rest []

/-- What a call of `process_read` for the piece `p` can do when `rest` comes after it. -/
inductive Outcome (c : Reader) (p rest : List Char) (es : List ℕ) : Prop
  | refused (noProxy : proxy = .noProxy) (forwarded : passed es (c.readBuf.length + p.length))
      (bad : ∀ decideProxy, (loop proxy .ok decideProxy (c.feed p)).1 = .bad)
  | waits (c' : Reader) (more : rest ≠ [])
      (allowed : passed es (c.readBuf.length + p.length) → proxy = .nginx)
      (left : ∀ decideProxy, loop proxy .ok decideProxy (c.feed p) =
        (.left, decideProxy && !passed es (c.readBuf.length + p.length), c'))
      (length : c'.readBuf.length = c.readBuf.length + p.length)
      (onTrack : OnTrack proxy body c' rest (es.filter (c.readBuf.length + p.length < ·)))
      (stays : Stays (bodyRead body rest))
      (resumes : ∀ decideProxy, loop proxy .ok decideProxy (c.feed (p ++ rest)) =
        loop proxy .ok (decideProxy && !passed es (c.readBuf.length + p.length)) (c'.feed rest))
  | strays (c' : Reader) (more : rest ≠ [])
      (allowed : passed es (c.readBuf.length + p.length) → proxy = .nginx)
      (left : ∀ decideProxy, loop proxy .ok decideProxy (c.feed p) =
        (.left, decideProxy && !passed es (c.readBuf.length + p.length), c'))
      (length : c'.readBuf.length = c.readBuf.length + p.length)
      (lost : Lost (c.readBuf.length + p.length + rest.length) c')
      (behind : es.filter (c.readBuf.length + p.length < ·) = [])
      (strays : ¬Stays (bodyRead body rest))
  | done (c' : Reader) (last : rest = [])
      (allowed : passed es (c.readBuf.length + p.length) → proxy = .nginx)
      (request : ∀ decideProxy, loop proxy .ok decideProxy (c.feed p) =
        (.request, decideProxy && !passed es (c.readBuf.length + p.length), c'))

variable {proxy body} {c c₀ : Reader} {p u rest : List Char} {es es₀ : List ℕ}
  {ls : List (List Char × Bool)}

/-- A call does what a later part of the loop does. -/
theorem Outcome.transfer (outcome : Outcome proxy body c₀ u rest es₀) (forwarded : Bool)
    (allowed : forwarded = true → proxy = .nginx)
    (place : c.readBuf.length + p.length = c₀.readBuf.length + u.length)
    (ends : passed es (c.readBuf.length + p.length) =
      (forwarded || passed es₀ (c₀.readBuf.length + u.length)))
    (later : es.filter (c.readBuf.length + p.length < ·) =
      es₀.filter (c₀.readBuf.length + u.length < ·))
    (same : ∀ decideProxy q, loop proxy .ok decideProxy (c.feed (p ++ q)) =
      loop proxy .ok (decideProxy && !forwarded) (c₀.feed (u ++ q))) :
    Outcome proxy body c p rest es := by
  have same₀ : ∀ decideProxy, loop proxy .ok decideProxy (c.feed p) =
      loop proxy .ok (decideProxy && !forwarded) (c₀.feed u) := fun decideProxy => by
    simpa using same decideProxy []
  -- A header is seen before, or in what is read from here on.
  have flag (decideProxy : Bool) :
      (decideProxy && !forwarded && !passed es₀ (c₀.readBuf.length + u.length)) =
        (decideProxy && !passed es (c.readBuf.length + p.length)) := by
    rw [ends, Bool.not_or, Bool.and_assoc]
  have nginx (allowed₀ : passed es₀ (c₀.readBuf.length + u.length) → proxy = .nginx) :
      passed es (c.readBuf.length + p.length) → proxy = .nginx := by
    rw [ends, Bool.or_eq_true]
    exact fun either => either.elim allowed allowed₀
  cases outcome with
  | refused noProxy passed bad =>
    refine .refused noProxy ?_ fun decideProxy => ?_
    · rw [ends, passed, Bool.or_true]
    · rw [same₀, bad]
  | waits c' more allowed₀ left length onTrack stays resumes =>
    refine .waits c' more (nginx allowed₀) (fun decideProxy => ?_) (length.trans place.symm) ?_
      stays fun decideProxy => ?_
    · rw [same₀, left, flag]
    · rw [later]
      exact onTrack
    · rw [same, resumes, flag]
  | strays c' more allowed₀ left length lost behind strays =>
    refine .strays c' more (nginx allowed₀) (fun decideProxy => ?_) (length.trans place.symm) ?_
      (later.trans behind) strays
    · rw [same₀, left, flag]
    · rw [place]
      exact lost
  | done c' last allowed₀ request =>
    refine .done c' last (nginx allowed₀) fun decideProxy => ?_
    rw [same₀, request, flag]

theorem bodyRead_of_append (flow : u ++ rest = body) : bodyRead body rest = u := by
  have length : body.length - rest.length = u.length := by
    rw [← flow, List.length_append, Nat.add_sub_cancel]
  rw [bodyRead, length, ← flow, List.take_left]

/-- A piece that is read before the body, or within it. -/
theorem outcome_of_inBody {m : List Char} (inBody : InBody c m u body.length)
    (flow : u ++ (p ++ rest) = body) : Outcome proxy body c p rest [] := by
  have fed : InBody (c.feed p) m (u ++ p) body.length := inBody.feed p
  have length : (c.feed p).readBuf.length = c.readBuf.length + p.length := List.length_append
  have flow' : u ++ p ++ rest = body := by rw [List.append_assoc, flow]
  have total : (u ++ p).length + rest.length = body.length := by
    rw [← List.length_append, flow']
  by_cases last : rest = []
  · have whole : body.length ≤ (u ++ p).length := by
      rw [← total, last]
      exact Nat.le_refl _
    obtain ⟨c', request⟩ := loop_wholeBody proxy fed whole
    exact .done c' last nofun fun decideProxy => by simp [passed, request]
  · have part : (u ++ p).length < body.length := by
      have some := List.length_pos_of_ne_nil last
      omega
    by_cases stays : Stays (u ++ p)
    · refine .waits (c.feed p) last nofun (fun decideProxy => ?_) length
        (.body fed stays flow' last) (by rwa [bodyRead_of_append flow']) fun decideProxy => ?_
      · simp [passed, loop_stays fed part stays]
      · simp [passed, feed_feed]
    · obtain ⟨c', lost, same, left⟩ := loop_strays proxy fed part stays
      have place : m.length + 2 + body.length = c.readBuf.length + p.length + rest.length := by
        have front := inBody.length
        rw [List.length_append] at total
        omega
      refine .strays c' last nofun (fun decideProxy => by simp [passed, left])
        (same.trans length) (place ▸ lost) rfl (by rwa [bodyRead_of_append flow'])

/-- The first line starts here. -/
theorem Script.before (script : Script proxy body c ls) :
    AtLine c ∧ c.checkState ≠ .content := by
  cases script with
  | blank here state => exact ⟨here, by rw [state]; nofun⟩
  | refused here state => exact ⟨here, state⟩
  | line here state => exact ⟨here, state⟩

theorem length_stream : body.length < (stream body ls).length := by
  induction ls with
  | nil =>
    rw [stream, List.length_append]
    exact Nat.lt_add_of_pos_left Nat.two_pos
  | cons l ls ih =>
    rw [stream, List.length_append, List.length_append]
    omega

theorem length_partly (c : Reader) (u : List Char) :
    (c.partly u).readBuf.length = c.readBuf.length + u.length :=
  (parseLine_keeps (c.feed u)).1.trans List.length_append

theorem passed_eq_false {b : ℕ} (ahead : ∀ e ∈ es, b < e) :
    passed es b = false ∧ es.filter (b < ·) = es := by
  constructor
  · rw [passed, List.any_eq_false]
    intro e listed
    have := ahead e listed
    simp only [decide_eq_true_eq]
    omega
  · exact List.filter_eq_self.mpr fun e listed => decide_eq_true (ahead e listed)

theorem passed_mono {b b' : ℕ} (later : b ≤ b') (early : passed es b = true) :
    passed es b' = true := by
  obtain ⟨e, listed, before⟩ := List.any_eq_true.mp early
  exact List.any_eq_true.mpr
    ⟨e, listed, decide_eq_true (Nat.le_trans (of_decide_eq_true before) later)⟩

/-- The first line has ended by `b`. -/
theorem forwardedEnds_of_line {start b : ℕ} {l : List Char × Bool}
    (behind : start + l.1.length + 2 ≤ b) :
    passed (forwardedEnds start (l :: ls)) b =
        (l.2 || passed (forwardedEnds (start + l.1.length + 2) ls) b) ∧
      (forwardedEnds start (l :: ls)).filter (b < ·) =
        (forwardedEnds (start + l.1.length + 2) ls).filter (b < ·) := by
  rw [forwardedEnds_cons]
  unfold passed
  by_cases forwarded : l.2 = true
  · rw [if_pos forwarded, forwarded, List.any_cons, decide_eq_true behind, List.filter_cons,
      if_neg (by simpa using behind)]
    exact ⟨rfl, rfl⟩
  · rw [if_neg forwarded, Bool.eq_false_iff.mpr forwarded]
    exact ⟨rfl, rfl⟩

/-- A piece that does not end a line. -/
theorem Script.outcome_of_short (script : Script proxy body c ls) (none : '\n' ∉ u)
    (flow : u ++ rest = stream body ls) (more : body.length < rest.length)
    (ends : ∀ e ∈ forwardedEnds c.readBuf.length ls, c.readBuf.length + u.length < e) :
    Outcome proxy body c u rest (forwardedEnds c.readBuf.length ls) := by
  obtain ⟨here, state⟩ := script.before
  obtain ⟨left, again⟩ := loop_partly proxy here state none
  obtain ⟨unpassed, later⟩ := passed_eq_false ends
  have nonempty : rest ≠ [] := by
    rintro rfl
    exact absurd more (Nat.not_lt_zero _)
  have nothing : bodyRead body rest = [] := by
    rw [bodyRead, Nat.sub_eq_zero_of_le (Nat.le_of_lt more), List.take_zero]
  refine .waits (c.partly u) nonempty (fun early => ?_) (fun decideProxy => ?_)
    (length_partly c u) ?_ (Or.inl nothing) fun decideProxy => ?_
  · rw [unpassed] at early
    cases early
  · rw [left, unpassed, Bool.not_false, Bool.and_true]
  · rw [later]
    exact .line script none flow nonempty
  · rw [again, unpassed, Bool.not_false, Bool.and_true]

/-- A piece that ends within the first line. -/
theorem outcome_of_shortLine {l : List Char × Bool} (script : Script proxy body c (l :: ls))
    (none : '\n' ∉ u) (short : u.length < l.1.length + 2)
    (flow : u ++ rest = stream body (l :: ls)) :
    Outcome proxy body c u rest (forwardedEnds c.readBuf.length (l :: ls)) := by
  have lengths := congrArg List.length flow
  rw [List.length_append, stream, List.length_append, List.length_append] at lengths
  have two : crlf.length = 2 := rfl
  have room : body.length < (stream body ls).length := length_stream
  apply script.outcome_of_short none flow (by omega)
  intro e listed
  have behind := le_of_mem_forwardedEnds listed
  omega

theorem place (c : Reader) (l u : List Char) :
    c.readBuf.length + l.length + 2 ≤ c.readBuf.length + (l ++ (crlf ++ u)).length := by
  have two : crlf.length = 2 := rfl
  rw [List.length_append, List.length_append]
  omega

/-- A piece that begins where a line does. -/
theorem Script.outcome (script : Script proxy body c ls) (flow : u ++ rest = stream body ls) :
    Outcome proxy body c u rest (forwardedEnds c.readBuf.length ls) := by
  induction script generalizing u with
  | @blank c here state length fits =>
    have lengths := congrArg List.length flow
    rw [List.length_append, stream, List.length_append] at lengths
    rcases split_line (l := []) nofun flow with ⟨none, short⟩ | ⟨u', rfl, flow'⟩
    · have two : crlf.length = 2 := rfl
      rw [List.length_nil] at short
      exact Script.outcome_of_short (.blank here state length fits) none flow (by omega) nofun
    · by_cases empty : body = []
      · obtain ⟨rfl, last⟩ := List.append_eq_nil_iff.mp (flow'.trans empty)
        refine .done ((c.consumed []).feed []) last nofun fun decideProxy => ?_
        have none : ¬c.contentLength ≠ 0 := by
          rw [length, empty]
          exact fun some => some rfl
        have blank : loop proxy .ok decideProxy (c.feed (crlf ++ [])) = _ :=
          loop_blank here state []
        rw [if_neg none] at blank
        simpa [passed, forwardedEnds] using blank
      · have inBody :
            InBody { c.consumed [] with checkState := .content } c.readBuf [] body.length :=
          ⟨fits, rfl, rfl, rfl, rfl, length⟩
        have some : c.contentLength ≠ 0 := by
          rw [length]
          exact fun none => empty (List.length_eq_zero_iff.mp (by omega))
        -- The blank line has come, and the rest of the call is in the body.
        apply (outcome_of_inBody inBody flow').transfer false nofun
        · rw [inBody.length, List.nil_append, List.length_append]
          exact Nat.add_assoc _ _ _ |>.symm
        · rfl
        · rfl
        · intro decideProxy q
          have blank : loop proxy .ok decideProxy (c.feed (crlf ++ (u' ++ q))) = _ :=
            loop_blank here state (u' ++ q)
          rw [if_pos some] at blank
          simpa using blank
  | @refused c l ls here state line forwarded noProxy refuses =>
    rcases split_line line flow with ⟨none, short⟩ | ⟨u', rfl, flow'⟩
    · exact outcome_of_shortLine (.refused here state line forwarded noProxy refuses) none short
        flow
    · refine .refused noProxy ?_ fun decideProxy => refuses decideProxy u'
      rw [(forwardedEnds_of_line (place c l.1 u')).1, forwarded, Bool.true_or]
  | @line c c' l ls here state line allowed takes length next ih =>
    rcases split_line line flow with ⟨none, short⟩ | ⟨u', rfl, flow'⟩
    · exact outcome_of_shortLine (.line here state line allowed takes length next) none short flow
    -- The whole line has come: the call goes on with the lines behind it.
    · have sums : c.readBuf.length + (l.1.length + (crlf.length + u'.length)) =
          c'.readBuf.length + u'.length := by
        have two : crlf.length = 2 := rfl
        omega
      apply (ih flow').transfer l.2 allowed
      · rw [List.length_append, List.length_append, sums]
      · rw [(forwardedEnds_of_line (place c l.1 u')).1, ← length, List.length_append,
          List.length_append, sums]
      · rw [(forwardedEnds_of_line (place c l.1 u')).2, ← length, List.length_append,
          List.length_append, sums]
      · intro decideProxy q
        rw [← takes, List.append_assoc, List.append_assoc]

/-- One call of `process_read`. -/
theorem OnTrack.outcome (onTrack : OnTrack proxy body c (p ++ rest) es) :
    Outcome proxy body c p rest es := by
  cases onTrack with
  | @line c₀ ls t _ script none flow more =>
    obtain ⟨here, state⟩ := script.before
    obtain ⟨-, again⟩ := loop_partly proxy here state none
    rw [← List.append_assoc] at flow
    have length :
        (c₀.partly t).readBuf.length + p.length = c₀.readBuf.length + (t ++ p).length := by
      rw [length_partly, List.length_append, Nat.add_assoc]
    apply (script.outcome flow).transfer false nofun length
    · rw [length, Bool.false_or]
    · rw [length]
    · intro decideProxy q
      rw [again, List.append_assoc, Bool.not_false, Bool.and_true]
  | body inBody stays flow more => exact outcome_of_inBody inBody flow

/-- The headers to come end behind what has been read. -/
theorem OnTrack.lt (onTrack : OnTrack proxy body c rest es) : ∀ e ∈ es, c.readBuf.length < e := by
  intro e listed
  cases onTrack with
  | body => cases listed
  | @line c₀ ls t _ script none flow more =>
    rw [length_partly]
    cases ls with
    | nil => cases listed
    | cons l ls =>
      have behind := le_of_mem_forwardedEnds listed
      have line : IsLine l.1 := by
        cases script with
        | refused _ _ line => exact line
        | line _ _ line => exact line
      rcases split_line line flow with ⟨-, short⟩ | ⟨u', rfl, -⟩
      · omega
      · exact absurd (List.mem_append_right _ (List.mem_append_left _ (by decide))) none

/-- The headers of a request are consumed or refused one after the other. -/
theorem script_headers {headers : List (List Char)} (here : AtLine c)
    (state : c.checkState = .header) (shape : ∀ h ∈ headers, IsLine h ∧ h ≠ [])
    (length : headers.foldl declared c.contentLength = body.length)
    (fits : c.readBuf.length + (stream body (headers.map fun h =>
      (h, decide (kindOf h = .forwardedBy)))).length ≤ readBufferSize) :
    Script proxy body c (headers.map fun h => (h, decide (kindOf h = .forwardedBy))) := by
  induction headers generalizing c with
  | nil =>
    rw [List.map_nil, stream, List.length_append, ← Nat.add_assoc] at fits
    exact .blank here state length fits
  | cons h headers ih =>
    obtain ⟨line, visible⟩ := shape h List.mem_cons_self
    have notBody : c.checkState ≠ .content := by
      rw [state]
      nofun
    by_cases refused : kindOf h = .forwardedBy ∧ proxy = .noProxy
    · refine .refused here notBody line (decide_eq_true refused.1) refused.2 fun decideProxy q => ?_
      rw [loop_header here state line visible, if_pos refused]
    · have same := samePlace_readHeader (c.consumed h) c.startLine h
      refine .line here notBody line (fun forwarded => ?_) (fun decideProxy q => ?_) ?_
        (ih ((atLine_consumed c h).of_samePlace same) ?_ ?_ ?_ ?_)
      · cases proxy with
        | nginx => rfl
        | noProxy => exact absurd ⟨of_decide_eq_true forwarded, rfl⟩ refused
      · rw [loop_header here state line visible, if_neg refused]
        rfl
      · rw [same.readIdx, ← (atLine_consumed c h).checked]
        rfl
      · exact (checkState_readHeader _ _ _).trans state
      · exact fun h' later => shape h' (List.mem_cons_of_mem h later)
      · rw [contentLength_readHeader]
        exact length
      · rw [List.map_cons, stream, List.length_append, List.length_append] at fits
        rw [same.readIdx, ← (atLine_consumed c h).checked]
        have two : crlf.length = 2 := rfl
        have read : (c.consumed h).checkedIdx = c.readBuf.length + h.length + 2 := rfl
        dsimp only at fits
        omega

end track

namespace Request

variable (proxy : ProxyType) (s : Request) (c : Reader)

theorem script : Script proxy s.body c.init (linesOf s.requestLine s.headers) := by
  obtain ⟨here, state, length, read⟩ := afterRequestLine_header (c := c) s.accepted
  refine .line ⟨rfl, rfl⟩ nofun s.line nofun (fun decideProxy q => ?_) ?_
    (script_headers here state s.lines ?_ ?_)
  · rw [loop_requestLine s.line.lf s.accepted, Bool.not_false, Bool.and_true]
  · rw [read]
    exact (Nat.zero_add _).symm
  · rw [length]
    exact s.declared
  · have fits := s.fits
    unfold linesOf at fits
    rw [stream, List.length_append, List.length_append] at fits
    have two : crlf.length = 2 := rfl
    dsimp only at fits
    rw [read]
    omega

theorem text_ne_nil : s.text ≠ [] := by
  intro empty
  have longer : s.body.length < s.text.length := length_stream
  rw [empty] at longer
  exact absurd longer (Nat.not_lt_zero _)

/-- A reader that has just been initialised. -/
theorem onTrack : OnTrack proxy s.body c.init s.text s.forwarded :=
  .line (t := []) (s.script proxy c) nofun rfl s.text_ne_nil

end Request

/-! ### All pieces of a request -/

section calls

variable (server : Server) {proxy : ProxyType} {body : List Char} {c c' : Reader}
  {p rest : List Char} {ps : List (List Char)} {es : List ℕ} {total : ℕ} {decideProxy : Bool}

theorem reply_eq (c : Reader) : server.reply proxy c =
    Reply.of (server.conclude proxy (loop proxy .ok true c)) := rfl

/-- A call that asks for more. -/
theorem replies_of_left (left : loop proxy .ok true (c.feed p) = (.left, decideProxy, c')) :
    server.replies proxy c (p :: ps) =
      Reply.of (some (if mismatch proxy decideProxy then .badRequest else .noRequest),
        decideProxy, c') ::
        server.replies proxy c' ps := by
  have called : server.processRead proxy (c.feed p) =
      (some (if mismatch proxy decideProxy then .badRequest else .noRequest), decideProxy, c') := by
    rw [Server.processRead, left, Server.conclude]
  rw [Server.replies, Server.reply, called]

theorem replies_ne_nil (more : ps ≠ []) : server.replies proxy c ps ≠ [] := by
  cases ps with
  | nil => exact absurd rfl more
  | cons p ps => exact List.cons_ne_nil _ _

/-- A reader that is lost asks for more, whatever comes, and has seen no header. -/
theorem replies_of_lost (lost : Lost total c)
    (fits : c.readBuf.length + ps.flatten.length ≤ total) :
    ∀ reply ∈ server.replies proxy c ps,
      (proxy = .noProxy → reply.verdict = some .noRequest) ∧ reply.forwardedBy = false := by
  induction ps generalizing c with
  | nil => nofun
  | cons p ps ih =>
    rw [List.flatten_cons, List.length_append] at fits
    have fed : (c.feed p).readBuf.length = c.readBuf.length + p.length := List.length_append
    have checked : c.checkedIdx ≤ (c.feed p).readBuf.length := by
      rw [fed]
      exact Nat.le_add_right_of_le lost.checked
    have lost' : Lost total (c.feed p) :=
      ⟨lost.small, lost.checkState, checked, by omega, lost.beyond⟩
    obtain ⟨c', lost'', same, left⟩ := loop_lost proxy lost'
    rw [replies_of_left server (left true)]
    rintro reply (⟨⟩ | ⟨_, later⟩)
    · refine ⟨?_, rfl⟩
      rintro rfl
      rfl
    · exact ih lost'' (by omega) reply later

theorem verdict_of_bad (bad : (loop proxy .ok true c).1 = .bad) :
    (server.reply proxy c).verdict ≠ some .noRequest := by
  obtain ⟨decideProxy, r, exit⟩ : ∃ decideProxy r,
      loop proxy .ok true c = (.bad, decideProxy, r) := ⟨_, _, Prod.ext bad rfl⟩
  rw [reply_eq, exit]
  exact nofun

/-- Without a proxy a request is decided upon. -/
theorem verdict_noProxy (onTrack : OnTrack .noProxy body c rest es) :
    (server.reply .noProxy (c.feed rest)).verdict ≠ some .noRequest := by
  rw [← List.append_nil rest] at onTrack
  cases onTrack.outcome with
  | refused _ _ bad => exact verdict_of_bad server (bad true)
  | waits c' more => exact absurd rfl more
  | strays c' more => exact absurd rfl more
  | done c' last allowed request =>
    have unpassed : passed es (c.readBuf.length + rest.length) = false :=
      Bool.eq_false_iff.mpr fun early => absurd (allowed early) nofun
    rw [reply_eq, request, unpassed]
    exact fun more => server.answers c' (Option.some_inj.mp more)

/-- With nginx, a call that completes the request has seen the headers that came with
its piece. -/
theorem forwardedBy_nginx (onTrack : OnTrack .nginx body c rest es) (decideProxy : Bool) :
    (Reply.of (server.conclude .nginx (loop .nginx .ok decideProxy (c.feed rest)))).forwardedBy =
      (!decideProxy || passed es (c.readBuf.length + rest.length)) := by
  rw [← List.append_nil rest] at onTrack
  cases onTrack.outcome with
  | refused noProxy => cases noProxy
  | waits c' more => exact absurd rfl more
  | strays c' more => exact absurd rfl more
  | done c' last allowed request =>
    have decided (d : Bool) :
        (Reply.of (server.conclude .nginx (.request, d, c'))).forwardedBy = !d := rfl
    rw [request, decided, Bool.not_and, Bool.not_not]

theorem OnTrack.ne_nil (onTrack : OnTrack proxy body c rest es) : rest ≠ [] := by
  cases onTrack with
  | line _ _ _ more => exact more
  | body _ _ _ more => exact more

theorem OnTrack.passed_iff (onTrack : OnTrack proxy body c rest es) (b : ℕ) :
    passed es b = true ↔ ∃ e ∈ es, c.readBuf.length < e ∧ e ≤ b := by
  rw [passed, List.any_eq_true]
  refine exists_congr fun e => and_congr_right fun listed => ?_
  rw [decide_eq_true_iff]
  exact (and_iff_right (onTrack.lt e listed)).symm

theorem flatten_ne_nil (nonempty : ∀ p ∈ ps, p ≠ []) (some : ps ≠ []) : ps.flatten ≠ [] := by
  intro empty
  cases ps with
  | nil => exact some rfl
  | cons p ps =>
    exact nonempty p List.mem_cons_self (List.append_eq_nil_iff.mp empty).1

/-- The pieces that end before the request does, without a proxy. -/
theorem coherent_noProxy (onTrack : OnTrack .noProxy body c rest es) (flat : ps.flatten = rest)
    (nonempty : ∀ p ∈ ps, p ≠ []) (whole : c.readBuf.length + rest.length = total) :
    Coherent (server.reply .noProxy (c.feed rest)) (server.replies .noProxy c ps) ↔
      EveryPiece (fun _ b => b < total →
        (∀ e ∈ es, b < e) ∧ Stays (body.take (b + body.length - total))) c.readBuf.length ps := by
  induction ps generalizing c rest es with
  | nil => exact absurd flat.symm onTrack.ne_nil
  | cons p ps ih =>
    subst flat
    have decided := verdict_noProxy server onTrack
    rw [List.flatten_cons] at onTrack whole decided ⊢
    rw [List.length_append] at whole
    by_cases last : ps = []
    · -- the last piece ends where the request does
      subst last
      rw [List.flatten_nil, List.append_nil]
      refine iff_of_true (coherent_single.mpr rfl) ⟨fun early => ?_, trivial⟩
      rw [List.flatten_nil, List.length_nil] at whole
      omega
    -- How much of the body has been read is counted from the end of the request.
    have read : c.readBuf.length + p.length + body.length - total =
        body.length - ps.flatten.length := by
      omega
    have first : EveryPiece (fun _ b => b < total → (∀ e ∈ es, b < e) ∧
        Stays (body.take (b + body.length - total))) c.readBuf.length (p :: ps) →
        (∀ e ∈ es, c.readBuf.length + p.length < e) ∧ Stays (bodyRead body ps.flatten) := by
      rintro ⟨kept, -⟩
      have early : c.readBuf.length + p.length < total := by
        have some := List.length_pos_of_ne_nil (flatten_ne_nil (fun p' later =>
          nonempty p' (List.mem_cons_of_mem p later)) last)
        omega
      rw [read] at kept
      exact kept early
    cases onTrack.outcome with
    | refused _ early bad =>
      refine iff_of_false (fun coherent => ?_) fun kept => ?_
      · rw [Server.replies, coherent_cons (replies_ne_nil server last)] at coherent
        exact absurd coherent.1 (verdict_of_bad server (bad true))
      · rw [(passed_eq_false (first kept).1).1] at early
        cases early
    | waits c' more allowed left length onTrack' stays resumes =>
      have unpassed : passed es (c.readBuf.length + p.length) = false :=
        Bool.eq_false_iff.mpr fun early => absurd (allowed early) nofun
      rw [unpassed] at left resumes
      have ahead : ∀ e ∈ es, c.readBuf.length + p.length < e := fun e listed =>
        Nat.lt_of_not_le fun early =>
          List.any_eq_false.mp unpassed e listed (decide_eq_true early)
      rw [(passed_eq_false ahead).2] at onTrack'
      have later := ih onTrack' rfl (fun p' later => nonempty p' (List.mem_cons_of_mem p later))
        (by omega)
      have same : server.reply .noProxy (c.feed (p ++ ps.flatten)) =
          server.reply .noProxy (c'.feed ps.flatten) := by
        rw [reply_eq, reply_eq, resumes]
        rfl
      rw [same, replies_of_left server (left true), coherent_cons (replies_ne_nil server last),
        later, length]
      constructor
      · rintro ⟨-, kept⟩
        refine ⟨fun _ => ⟨ahead, ?_⟩, kept⟩
        rw [read]
        exact stays
      · rintro ⟨-, kept⟩
        exact ⟨rfl, kept⟩
    | strays c' more allowed left length lost behind strays =>
      refine iff_of_false (fun coherent => ?_) fun kept => strays (first kept).2
      rw [replies_of_left server (left true),
        coherent_cons (replies_ne_nil server last)] at coherent
      -- What has gone astray in the body is never decided upon.
      have quiet := replies_of_lost server lost (by omega) _ coherent.2.mem
      exact decided (quiet.1 rfl)
    | done c' none =>
      exact absurd none (flatten_ne_nil (fun p' later =>
        nonempty p' (List.mem_cons_of_mem p later)) last)

/-- A piece that is not the last one, with nginx. -/
theorem coherent_nginx_cons (onTrack : OnTrack .nginx body c (p ++ ps.flatten) es)
    (more : ps ≠ []) (nonempty : ∀ p ∈ ps, p ≠ []) (decideProxy : Bool)
    (later : ∀ {c' es'}, OnTrack .nginx body c' ps.flatten es' →
      (Coherent (Reply.of (server.conclude .nginx (loop .nginx .ok false (c'.feed ps.flatten))))
        (server.replies .nginx c' ps) ↔
          EveryPiece (fun a b => ∃ e ∈ es', a < e ∧ e ≤ b) c'.readBuf.length ps)) :
    Coherent (Reply.of (server.conclude .nginx
        (loop .nginx .ok decideProxy (c.feed (p ++ ps.flatten)))))
      (server.replies .nginx c (p :: ps)) ↔
        EveryPiece (fun a b => ∃ e ∈ es, a < e ∧ e ≤ b) c.readBuf.length (p :: ps) := by
  have seen := onTrack.passed_iff (c.readBuf.length + p.length)
  have whole := forwardedBy_nginx server onTrack decideProxy
  rw [EveryPiece, ← seen]
  cases onTrack.outcome with
  | refused noProxy => cases noProxy
  | waits c' _ _ left length onTrack' _ resumes =>
    rw [replies_of_left server (left true), coherent_cons (replies_ne_nil server more)]
    cases early : passed es (c.readBuf.length + p.length) with
    | false => simp [mismatch, Reply.of]
    | true =>
      rw [resumes, early, Bool.not_true, Bool.and_false, Bool.and_false, later onTrack', length]
      have same : ∀ a b, c.readBuf.length + p.length ≤ a →
          ((∃ e ∈ es.filter (c.readBuf.length + p.length < ·), a < e ∧ e ≤ b) ↔
            ∃ e ∈ es, a < e ∧ e ≤ b) := by
        intro a b behind
        constructor
        · rintro ⟨e, listed, inside⟩
          exact ⟨e, (List.mem_filter.mp listed).1, inside⟩
        · rintro ⟨e, listed, inside⟩
          have ahead : c.readBuf.length + p.length < e := Nat.lt_of_le_of_lt behind inside.1
          exact ⟨e, List.mem_filter.mpr ⟨listed, decide_eq_true ahead⟩, inside⟩
      rw [everyPiece_congr same]
      exact and_congr_left' (iff_of_true rfl rfl)
  | strays c' _ _ left length lost behind _ =>
    refine iff_of_false (fun coherent => ?_) ?_
    · rw [replies_of_left server (left true),
        coherent_cons (replies_ne_nil server more)] at coherent
      have total : c.readBuf.length + p.length ≤ c.readBuf.length + (p ++ ps.flatten).length := by
        rw [List.length_append]
        omega
      -- Nor does it ever see the header that the whole request has.
      have quiet := (replies_of_lost server lost (by omega) _ coherent.2.mem).2
      cases early : passed es (c.readBuf.length + p.length) with
      | false =>
        rw [early] at coherent
        cases coherent.1
      | true =>
        rw [passed_mono total early, Bool.or_true] at whole
        cases quiet.symm.trans whole
    · rintro ⟨-, kept⟩
      obtain ⟨p', ps', rfl⟩ := List.exists_cons_of_ne_nil more
      obtain ⟨⟨e, listed, ahead, -⟩, -⟩ := kept
      have later : e ∈ es.filter (c.readBuf.length + p.length < ·) :=
        List.mem_filter.mpr ⟨listed, decide_eq_true ahead⟩
      rw [behind] at later
      cases later
  | done c' none => exact absurd none (flatten_ne_nil nonempty more)

/-- The pieces that end before the request does, with nginx, once a header has been
seen. -/
theorem coherent_nginx (onTrack : OnTrack .nginx body c rest es) (flat : ps.flatten = rest)
    (nonempty : ∀ p ∈ ps, p ≠ []) :
    Coherent (Reply.of (server.conclude .nginx (loop .nginx .ok false (c.feed rest))))
      (server.replies .nginx c ps) ↔
        EveryPiece (fun a b => ∃ e ∈ es, a < e ∧ e ≤ b) c.readBuf.length ps := by
  induction ps generalizing c rest es with
  | nil => exact absurd flat.symm onTrack.ne_nil
  | cons p ps ih =>
    subst flat
    have nonempty' : ∀ p ∈ ps, p ≠ [] := fun p' later =>
      nonempty p' (List.mem_cons_of_mem p later)
    by_cases last : ps = []
    · subst last
      rw [List.flatten_singleton] at onTrack ⊢
      have seen := onTrack.passed_iff (c.readBuf.length + p.length)
      have once : Coherent (Reply.of (server.conclude .nginx (loop .nginx .ok false (c.feed p))))
          (server.replies .nginx c [p]) ↔ server.reply .nginx (c.feed p) =
            Reply.of (server.conclude .nginx (loop .nginx .ok false (c.feed p))) := coherent_single
      rw [once, EveryPiece, ← seen]
      constructor
      · intro same
        have here : (server.reply .nginx (c.feed p)).forwardedBy = _ :=
          forwardedBy_nginx server onTrack true
        rw [same, forwardedBy_nginx server onTrack false] at here
        exact ⟨here.symm, trivial⟩
      · rintro ⟨early, -⟩
        rw [← List.append_nil p] at onTrack
        cases onTrack.outcome with
        | refused noProxy => cases noProxy
        | waits c' more => exact absurd rfl more
        | strays c' more => exact absurd rfl more
        | done c' _ _ request =>
          rw [reply_eq, request true, request false, early]
          rfl
    · exact coherent_nginx_cons server onTrack last nonempty' false fun onTrack' =>
        ih onTrack' rfl nonempty'

end calls

section request

variable (server : Server) (c : Reader) (s : Request) (cut : Cut s.text)

theorem kept_noProxy : AsWhole server .noProxy c s cut ↔ s.Kept .noProxy cut.pieces := by
  have onTrack := s.onTrack .noProxy c
  have longer : s.body.length < s.text.length := length_stream
  have whole : c.init.readBuf.length + s.text.length = s.text.length := Nat.zero_add _
  have start : ∀ b, b + s.body.length - s.text.length = b - s.bodyStart := by
    intro b
    unfold Request.bodyStart
    omega
  unfold AsWhole Request.Kept
  rw [coherent_noProxy server onTrack cut.flatten cut.nonempty whole]
  simp only [start]
  rfl

theorem kept_nginx : AsWhole server .nginx c s cut ↔ s.Kept .nginx cut.pieces := by
  have onTrack := s.onTrack .nginx c
  obtain ⟨pieces, nonempty, flat⟩ := cut
  unfold AsWhole Request.Kept
  dsimp only
  cases pieces with
  | nil => exact absurd flat.symm s.text_ne_nil
  | cons p ps =>
    by_cases last : ps = []
    · subst last
      rw [List.flatten_singleton] at flat
      subst flat
      exact iff_of_true (coherent_single.mpr rfl) (Or.inl rfl)
    · have nonempty' : ∀ p ∈ ps, p ≠ [] := fun p' later =>
        nonempty p' (List.mem_cons_of_mem p later)
      have more : ¬(p :: ps).length = 1 := by
        rw [List.length_cons]
        have some := List.length_pos_of_ne_nil last
        omega
      rw [or_iff_right more]
      rw [List.flatten_cons] at flat
      rw [← flat] at onTrack ⊢
      exact coherent_nginx_cons server onTrack last nonempty' true fun onTrack' =>
        coherent_nginx server onTrack' rfl nonempty'

end request

/-- A request is read as if it had come at once exactly when it is cut in one of these
ways. -/
theorem asWhole_iff (server : Server) (proxy : ProxyType) (c : Reader) (s : Request)
    (cut : Cut s.text) : AsWhole server proxy c s cut ↔ s.Kept proxy cut.pieces :=
  match proxy with
  | .noProxy => kept_noProxy server c s cut
  | .nginx => kept_nginx server c s cut

/-- A form of two bytes. -/
def form : Request where
  requestLine := "POST / HTTP/1.1".toList
  headers := ["Content-length: 2".toList]
  body := ['a', 'b']
  line := by decide +kernel
  accepted := by decide +kernel
  lines := by decide +kernel
  declared := by decide +kernel
  fits := by decide +kernel

/-- The form, cut between its two bytes. -/
def formCut : Cut form.text where
  pieces := [form.text.dropLast, ['b']]
  nonempty := by decide +kernel
  flatten := by decide +kernel

/-- A server that has every file. -/
def anyFile : Server := ⟨fun _ => .fileRequest, id, nofun⟩

/-- A reader that has not been used. -/
def unused : Reader := ⟨[], 0, 0, .requestLine, .get, none, none, none, 0, false, none⟩

/-- The form is never read. -/
theorem not_asWhole : ¬AsWhole anyFile .noProxy unused form formCut := by
  rw [kept_noProxy]
  intro kept
  have early : 0 + form.text.dropLast.length < form.text.length := by decide +kernel
  have strays : ¬Reader.Stays
      (form.body.take (0 + form.text.dropLast.length - form.bodyStart)) := by decide +kernel
  exact strays (kept.1 early).2

end CoroutineService.Http
