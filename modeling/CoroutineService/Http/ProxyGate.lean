import CoroutineService.Http.Buffers
import CoroutineService.Http.Connection
import CoroutineService.Http.Pieces

/-!
# The proxy gate

`process_read` tells `do_request` whether a request has come through nginx. `decide_proxy`
is a local variable that is set by one kind of header line, wherever it stands among the
others, and `do_request` compares it with the way in which the server has been started.

## Main definitions

* `Delivered`: a request that has been delivered in one read, whatever follows it
* `Forwarded`: a header line that nginx adds
* `Backend.serve`: `do_request` behind the gate
* `PassesGate`, `Refused`: what `process_read` does with what has been read

## Main results

* `kindOf_eq_forwardedBy`: such a header is not taken for another one
* `loop_noProxy`, `loop_nginx`: `decide_proxy` when the headers have been parsed
* `gate_iff`: which requests pass the gate
-/

set_option autoImplicit false

namespace CoroutineService.Http

open CString Reader

/-! ### Header lines -/

/-- A line that begins with `X-Forwarded-By:`. -/
def Forwarded (h : List Char) : Prop := startsWith h "X-Forwarded-By:" = true

instance (h : List Char) : Decidable (Forwarded h) := inferInstanceAs (Decidable (_ = _))

section names

variable {s l : List Char} {name : String}

/-- A name is found in the C string if it is found on the line. -/
theorem startsWith_textOf (letters : '\x00' ∉ name.toList.map Char.toLower) :
    startsWith (textOf l) name = true ↔ startsWith l name = true := by
  constructor
  · intro starts
    obtain ⟨rest, whole⟩ : textOf l <+: l := List.takeWhile_prefix _
    have taken : l.take name.toList.length = (textOf l).take name.toList.length := by
      nth_rewrite 1 [← whole]
      exact List.take_append_of_le_length (length_of_startsWith starts)
    rw [startsWith, taken]
    exact starts
  · intro starts
    -- no letter of the name is a NUL
    have visible : ∀ c ∈ l.take name.toList.length, decide (c ≠ '\x00') = true := by
      intro c mem
      apply decide_eq_true
      rintro rfl
      refine letters ?_
      rw [← beq_iff_eq.mp starts]
      exact List.mem_map_of_mem (f := Char.toLower) mem
    have taken : (textOf l).take name.toList.length = l.take name.toList.length := by
      have length := length_of_sameText starts
      rw [textOf, ← List.take_append_drop name.toList.length l,
        List.takeWhile_append_of_pos visible, List.take_left' length, List.take_left' length]
    rw [startsWith, taken]
    exact starts

/-- A name begins with its first letter. -/
theorem head?_of_startsWith {a : Char} (starts : startsWith s name = true)
    (first : name.toList.head? = some a) : s.head?.map Char.toLower = some a.toLower := by
  obtain ⟨letters, spelled⟩ := List.head?_eq_some_iff.mp first
  have same := congrArg List.head? (beq_iff_eq.mp starts)
  rw [List.head?_map, List.head?_map, first, spelled, List.length_cons] at same
  cases s with
  | nil => cases same
  | cons c s => exact same

/-- A header that nginx adds is not taken for another one. -/
theorem kindOf_eq_forwardedBy :
    kindOf s = .forwardedBy ↔ startsWith s "X-Forwarded-By:" = true := by
  constructor
  · intro kind
    unfold kindOf at kind
    split_ifs at kind with _ _ _ forwarded
    exact forwarded
  · intro forwarded
    have first := head?_of_startsWith forwarded rfl
    have other {name : String} {a : Char} (begins : name.toList.head? = some a)
        (differs : a.toLower ≠ 'x') : ¬startsWith s name = true := by
      intro starts
      have same := (head?_of_startsWith starts begins).symm.trans first
      exact differs (Option.some_inj.mp same)
    rw [kindOf, if_neg (other rfl (by decide)), if_neg (other rfl (by decide)),
      if_neg (other rfl (by decide)), if_pos forwarded]

theorem kindOf_textOf : kindOf (textOf l) = .forwardedBy ↔ Forwarded l := by
  rw [kindOf_eq_forwardedBy, startsWith_textOf (by decide), Forwarded]

end names

/-! ### Headers, in the loop -/

/-- Header lines, the blank line and what follows. -/
def headerStream (headers : List (List Char)) (rest : List Char) : List Char :=
  stream rest (headers.map fun h => (h, decide (kindOf h = .forwardedBy)))

/-- `m_content_length` behind these headers. -/
def lengthAfter (n : ℤ) (headers : List (List Char)) : ℤ :=
  headers.foldl (fun n h => declared n (textOf h)) n

/-- A header line that is not blank. -/
def HeaderLine (h : List Char) : Prop := '\n' ∉ h ∧ textOf h ≠ []

section loop

variable {c : Reader} {h rest : List Char} {headers : List (List Char)} {decideProxy : Bool}
  {proxy : ProxyType}

/-- The reader behind a header line. -/
def Reader.behind (c : Reader) (h : List Char) : Reader :=
  (c.consumed h).readHeader c.startLine (textOf h)

theorem atLine_behind (c : Reader) (h : List Char) : AtLine (c.behind h) :=
  (atLine_consumed c h).of_samePlace (samePlace_readHeader _ _ _)

theorem checkState_behind (c : Reader) (h : List Char) : (c.behind h).checkState = c.checkState :=
  checkState_readHeader _ _ _

theorem contentLength_behind (c : Reader) (h : List Char) :
    (c.behind h).contentLength = declared c.contentLength (textOf h) :=
  contentLength_readHeader _ _ _

theorem length_behind (c : Reader) (h q : List Char) :
    (c.behind h).readBuf.length + q.length = c.readBuf.length + (h ++ (crlf ++ q)).length := by
  have same := (samePlace_readHeader (c.consumed h) c.startLine (textOf h)).readIdx
  unfold behind
  rw [same]
  simp only [consumed, ended, nuls, crlf, List.length_append, List.length_cons, List.length_nil]
  omega

/-- Behind the headers, with the body there, the loop comes to `do_request`. -/
theorem loop_rest (here : AtLine c) (state : c.checkState = .header)
    (positive : 0 ≤ c.contentLength) (complete : c.contentLength ≤ rest.length)
    (fits : c.readBuf.length + (crlf ++ rest).length ≤ readBufferSize) :
    ∃ r, (c.feed (crlf ++ rest)).loop proxy .ok decideProxy = (.request, decideProxy, r) := by
  rw [loop_blank here state rest]
  by_cases body : c.contentLength ≠ 0
  · rw [if_pos body]
    have checked : (c.consumed []).checkedIdx = c.readBuf.length + 2 := rfl
    have read : ((c.consumed []).feed rest).readIdx = c.readBuf.length + 2 + rest.length := by
      unfold readIdx Reader.feed
      rw [List.length_append, ← (atLine_consumed c []).checked, checked]
    have small : c.contentLength + (c.consumed []).checkedIdx < 2 ^ 63 := by
      have two : (crlf ++ rest).length = 2 + rest.length := List.length_append
      unfold readBufferSize at fits
      omega
    have whole : c.contentLength + (c.consumed []).checkedIdx ≤
        ((c.consumed []).feed rest).readIdx := by omega
    obtain ⟨r, ends⟩ := loop_complete proxy
      (r := { c.consumed [] with checkState := .content }.feed rest) rfl positive small whole
    exact ⟨r, ends decideProxy⟩
  · rw [if_neg body]
    exact ⟨_, rfl⟩

/-- Without a proxy a header that nginx adds is refused. -/
theorem loop_refused (here : AtLine c) (state : c.checkState = .header) (header : HeaderLine h)
    (forwarded : Forwarded h) (q : List Char) :
    ∃ r, (c.feed (h ++ (crlf ++ q))).loop .noProxy .ok decideProxy = (.bad, decideProxy, r) := by
  rw [loop_textOf here state header.1 header.2, if_pos ⟨kindOf_textOf.mpr forwarded, rfl⟩]
  exact ⟨_, rfl⟩

/-- Another header is passed, and so is every header with nginx. -/
theorem loop_passed (here : AtLine c) (state : c.checkState = .header) (header : HeaderLine h)
    (taken : ¬(Forwarded h ∧ proxy = .noProxy)) (q : List Char) :
    (c.feed (h ++ (crlf ++ q))).loop proxy .ok decideProxy =
      ((c.behind h).feed q).loop proxy .ok (decideProxy && decide (¬Forwarded h)) := by
  have flag : (kindOf (textOf h) != .forwardedBy) = decide (¬Forwarded h) := by
    rw [Bool.eq_iff_iff, bne_iff_ne, decide_eq_true_iff, ne_eq, kindOf_textOf]
  rw [loop_textOf here state header.1 header.2, flag, if_neg fun both => taken ?_]
  · rfl
  · exact ⟨kindOf_textOf.mp both.1, both.2⟩

/-- Without a proxy the headers are refused if nginx has added one, and `decide_proxy` is
never changed. -/
theorem loop_noProxy (here : AtLine c) (state : c.checkState = .header)
    (lines : ∀ h ∈ headers, HeaderLine h) (positive : 0 ≤ lengthAfter c.contentLength headers)
    (complete : lengthAfter c.contentLength headers ≤ rest.length)
    (fits : c.readBuf.length + (headerStream headers rest).length ≤ readBufferSize) :
    ∃ r, (c.feed (headerStream headers rest)).loop .noProxy .ok decideProxy =
      (if ∃ h ∈ headers, Forwarded h then .bad else .request, decideProxy, r) := by
  induction headers generalizing c with
  | nil =>
    rw [if_neg fun ⟨h, mem, _⟩ => List.not_mem_nil mem]
    exact loop_rest here state positive complete fits
  | cons h headers ih =>
    obtain ⟨header, lines⟩ := List.forall_mem_cons.mp lines
    simp only [List.exists_mem_cons_iff]
    by_cases forwarded : Forwarded h
    · rw [if_pos (.inl forwarded)]
      exact loop_refused here state header forwarded _
    · have passed : (c.feed (headerStream (h :: headers) rest)).loop .noProxy .ok decideProxy =
          ((c.behind h).feed (headerStream headers rest)).loop .noProxy .ok
            (decideProxy && decide (¬Forwarded h)) :=
        loop_passed here state header (fun both => forwarded both.1) _
      rw [passed, decide_eq_true forwarded, Bool.and_true]
      simp only [forwarded, false_or]
      refine ih (atLine_behind c h) ((checkState_behind c h).trans state) lines ?_ ?_ ?_
      · rwa [contentLength_behind]
      · rwa [contentLength_behind]
      · rwa [length_behind]

/-- With nginx `decide_proxy` tells whether no header is one of those. -/
theorem loop_nginx (here : AtLine c) (state : c.checkState = .header)
    (lines : ∀ h ∈ headers, HeaderLine h) (positive : 0 ≤ lengthAfter c.contentLength headers)
    (complete : lengthAfter c.contentLength headers ≤ rest.length)
    (fits : c.readBuf.length + (headerStream headers rest).length ≤ readBufferSize) :
    ∃ r, (c.feed (headerStream headers rest)).loop .nginx .ok decideProxy =
      (.request, decideProxy && decide (∀ h ∈ headers, ¬Forwarded h), r) := by
  induction headers generalizing c decideProxy with
  | nil =>
    rw [decide_eq_true (List.forall_mem_nil _), Bool.and_true]
    exact loop_rest here state positive complete fits
  | cons h headers ih =>
    obtain ⟨header, lines⟩ := List.forall_mem_cons.mp lines
    have passed : (c.feed (headerStream (h :: headers) rest)).loop .nginx .ok decideProxy =
        ((c.behind h).feed (headerStream headers rest)).loop .nginx .ok
          (decideProxy && decide (¬Forwarded h)) :=
      loop_passed here state header (fun both => by cases both.2) _
    rw [passed]
    simp only [List.forall_mem_cons, Bool.decide_and, ← Bool.and_assoc]
    refine ih (atLine_behind c h) ((checkState_behind c h).trans state) lines ?_ ?_ ?_
    · rwa [contentLength_behind]
    · rwa [contentLength_behind]
    · rwa [length_behind]

end loop

/-! ### The gate -/

/-- `do_request` behind the gate. -/
def Backend.serve (b : Backend) (users : Users) (r : Reader) : Except Fault Answer := do
  let s ← b.prepare users r
  let ret ← b.finish s
  let path := strAt s.realFile 0
  return ⟨ret, some path, b.fileSize path, s.users, r.rewritten s⟩

/-- `process_read` goes on behind the gate of `do_request`. -/
def PassesGate (proxy : ProxyType) (c : Reader) : Prop :=
  ∃ r, ∀ (b : Backend) (users : Users), b.processRead proxy users c = b.serve users r

/-- `process_read` returns `BAD_REQUEST`, whatever files and users there are. No path has been
passed to `stat`, and the users are left alone. -/
def Refused (proxy : ProxyType) (c : Reader) : Prop :=
  ∃ r, ∀ (b : Backend) (users : Users),
    b.processRead proxy users c = .ok ⟨.badRequest, none, 0, users, r⟩

/-- A request that has been delivered in one read. The request line is accepted, and the body
is there, so that its length is not negative. Other bytes may follow. -/
structure Delivered where
  requestLine : List Char
  headers : List (List Char)
  rest : List Char
  line : '\n' ∉ requestLine
  accepted : accepts requestLine = true
  lines : ∀ h ∈ headers, HeaderLine h
  positive : 0 ≤ lengthAfter 0 headers
  complete : lengthAfter 0 headers ≤ rest.length
  fits : (requestLine ++ (crlf ++ headerStream headers rest)).length ≤ readBufferSize

/-- The bytes that have been delivered. -/
def Delivered.text (s : Delivered) : List Char :=
  s.requestLine ++ (crlf ++ headerStream s.headers s.rest)

section gate

variable {proxy : ProxyType} {c r : Reader} {decideProxy : Bool}

/-- What comes to `do_request` passes the gate unless there is a mismatch. -/
theorem passesGate_of_loop (ends : c.loop proxy .ok true = (.request, decideProxy, r))
    (match_ : mismatch proxy decideProxy = false) : PassesGate proxy c := by
  refine ⟨r, fun b users => ?_⟩
  show b.conclude proxy users (c.loop proxy .ok true) = _
  rw [ends]
  show b.answer proxy decideProxy users r = _
  rw [Backend.answer, match_, if_neg Bool.false_ne_true]
  rfl

theorem refused_of_loop (ends : c.loop proxy .ok true = (.request, decideProxy, r))
    (differs : mismatch proxy decideProxy = true) : Refused proxy c := by
  refine ⟨r, fun b users => ?_⟩
  show b.conclude proxy users (c.loop proxy .ok true) = _
  rw [ends]
  show b.answer proxy decideProxy users r = _
  rw [Backend.answer, if_pos differs]

theorem refused_of_bad (ends : c.loop proxy .ok true = (.bad, decideProxy, r)) :
    Refused proxy c := by
  refine ⟨r, fun b users => ?_⟩
  show b.conclude proxy users (c.loop proxy .ok true) = _
  rw [ends]
  rfl

/-- What is refused has not passed the gate: behind it a path is passed to `stat`. -/
theorem Refused.not_passesGate (refused : Refused proxy c) : ¬PassesGate proxy c := by
  rintro ⟨r, passes⟩
  obtain ⟨r', bad⟩ := refused
  have ends := (passes emptyServer (.fresh none)).symm.trans (bad emptyServer (.fresh none))
  obtain ⟨s, -, ends⟩ := exists_of_bind ends
  obtain ⟨ret, -, ends⟩ := exists_of_bind ends
  cases ends

/-- What follows the request line is in `m_read_buf` too. -/
theorem Delivered.length_line (s : Delivered) :
    s.requestLine.length + 2 + (headerStream s.headers s.rest).length ≤ readBufferSize := by
  have fits := s.fits
  rwa [List.length_append, List.length_append, ← Nat.add_assoc] at fits

/-- The loop for a request that has been delivered. -/
theorem Delivered.loop_noProxy (s : Delivered) (c : Reader) : ∃ r,
    (c.init.feed s.text).loop .noProxy .ok true =
      (if ∃ h ∈ s.headers, Forwarded h then .bad else .request, true, r) := by
  obtain ⟨here, state, none, length⟩ := afterRequestLine_header (c := c) s.accepted
  rw [text, loop_requestLine s.line s.accepted]
  apply Http.loop_noProxy here state s.lines (none ▸ s.positive) (none ▸ s.complete)
  rw [length]
  exact s.length_line

theorem Delivered.loop_nginx (s : Delivered) (c : Reader) : ∃ r,
    (c.init.feed s.text).loop .nginx .ok true =
      (.request, decide (∀ h ∈ s.headers, ¬Forwarded h), r) := by
  obtain ⟨here, state, none, length⟩ := afterRequestLine_header (c := c) s.accepted
  rw [text, loop_requestLine s.line s.accepted]
  apply Http.loop_nginx here state s.lines (none ▸ s.positive) (none ▸ s.complete)
  rw [length]
  exact s.length_line

/-- A request that comes through nginx to a server that is behind it, or not to one that is
not. -/
def ComesAsItShould (proxy : ProxyType) (headers : List (List Char)) : Prop :=
  proxy = .nginx ∧ (∃ h ∈ headers, Forwarded h) ∨ proxy = .noProxy ∧ ¬∃ h ∈ headers, Forwarded h

theorem Delivered.passes (s : Delivered) (c : Reader) (comes : ComesAsItShould proxy s.headers) :
    PassesGate proxy (c.init.feed s.text) := by
  rcases comes with ⟨rfl, some⟩ | ⟨rfl, none⟩
  · obtain ⟨r, ends⟩ := s.loop_nginx c
    refine passesGate_of_loop ends (decide_eq_false fun none => ?_)
    obtain ⟨h, mem, forwarded⟩ := some
    exact none h mem forwarded
  · obtain ⟨r, ends⟩ := s.loop_noProxy c
    rw [if_neg none] at ends
    exact passesGate_of_loop ends rfl

theorem Delivered.refused (s : Delivered) (c : Reader) (comes : ¬ComesAsItShould proxy s.headers) :
    Refused proxy (c.init.feed s.text) := by
  cases proxy with
  | nginx =>
    obtain ⟨r, ends⟩ := s.loop_nginx c
    refine refused_of_loop ends (decide_eq_true fun h mem forwarded => comes ?_)
    exact .inl ⟨rfl, h, mem, forwarded⟩
  | noProxy =>
    have some : ∃ h ∈ s.headers, Forwarded h := by
      by_contra none
      exact comes (.inr ⟨rfl, none⟩)
    obtain ⟨r, ends⟩ := s.loop_noProxy c
    rw [if_pos some] at ends
    exact refused_of_bad ends

end gate

/-- A request passes the gate if the server is behind nginx and one of its headers has been
added there, or if neither is so. Otherwise it is refused. -/
theorem gate_iff (s : Delivered) (proxy : ProxyType) (c : Reader) :
    (PassesGate proxy (c.init.feed s.text) ↔
      proxy = .nginx ∧ (∃ h ∈ s.headers, Forwarded h) ∨
        proxy = .noProxy ∧ ¬∃ h ∈ s.headers, Forwarded h) ∧
      (¬PassesGate proxy (c.init.feed s.text) → Refused proxy (c.init.feed s.text)) := by
  refine ⟨⟨fun passes => ?_, s.passes c⟩, fun fails => s.refused c fun comes => ?_⟩
  · by_contra comes
    exact (s.refused c comes).not_passesGate passes
  · exact fails (s.passes c comes)

theorem Request.lengthAfter_headers (s : Request) :
    lengthAfter 0 s.headers = s.headers.foldl Http.declared 0 :=
  List.foldl_ext _ _ _ fun n h mem => by rw [(s.lines h mem).1.textOf]

/-- A well-formed request that is delivered as a whole. -/
def Request.delivered (s : Request) : Delivered where
  requestLine := s.requestLine
  headers := s.headers
  rest := s.body
  line := s.line.lf
  accepted := s.accepted
  lines h mem := by
    obtain ⟨line, visible⟩ := s.lines h mem
    exact ⟨line.lf, line.textOf.symm ▸ visible⟩
  positive := by
    rw [lengthAfter_headers, s.declared]
    exact Int.natCast_nonneg _
  complete := by rw [lengthAfter_headers, s.declared]
  fits := s.fits

end CoroutineService.Http
