import CoroutineService.Http.Indices
import CoroutineService.Http.Pieces

/-!
# The NUL behind a body

`parse_content` takes the length that the client has declared as it is. It adds it to
`m_checked_idx`, compares the sum with `m_read_idx`, and stores a NUL that many bytes behind
the beginning of the line.

## Main definitions

* `StoresInside`: the sum exists, and the place is in the body and in `m_read_buf`
* `Situation`, `Handled`: a connection between calls of `process_read` and within them
* `BodyFrom`: what is known of the place where the body begins

## Main results

* `bodyFrom_of_handled`: a body with a negative length is never left for the next call
* `storesInside_iff`: when a call of `parse_content` does what it should
-/

set_option autoImplicit false

namespace CoroutineService.Http

open CString Reader

/-! ### `parse_content` -/

/-- `parse_content` does not compute a sum that overflows, and stores its NUL in `m_read_buf`,
between the beginning of the body and the end of the bytes read. -/
def StoresInside (r : Reader) (text begins : ℕ) : Prop :=
  ∃ ret r' stores, r.parseContent text = some (ret, r', stores) ∧
    ∀ place ∈ stores, (0 ≤ place ∧ place < readBufferSize) ∧ (begins : ℤ) ≤ place ∧
      place ≤ r.readIdx

section content

variable {r : Reader} {text begins : ℕ}

/-- Where the NUL is stored, if one is stored. -/
theorem storesInside_iff_place : StoresInside r text begins ↔
    IsLong (r.contentLength + r.checkedIdx) ∧
      (r.contentLength + r.checkedIdx ≤ r.readIdx →
        (0 ≤ text + r.contentLength ∧ text + r.contentLength < readBufferSize) ∧
          (begins : ℤ) ≤ text + r.contentLength ∧ text + r.contentLength ≤ r.readIdx) := by
  unfold StoresInside parseContent
  by_cases sum : IsLong (r.contentLength + r.checkedIdx)
  · rw [addLong_eq sum, and_iff_right sum]
    simp only [bind, Option.bind]
    by_cases whole : (r.readIdx : ℤ) ≥ r.contentLength + r.checkedIdx
    · rw [if_pos whole]
      constructor
      · rintro ⟨ret, r', stores, parsed, inside⟩ -
        cases parsed
        exact inside _ rfl
      · intro inside
        refine ⟨_, _, _, rfl, fun place mem => ?_⟩
        cases mem
        exact inside whole
    · rw [if_neg whole]
      exact iff_of_true ⟨_, _, _, rfl, nofun⟩ fun complete => absurd complete whole
  · have overflow : addLong r.contentLength r.checkedIdx = none := if_neg sum
    rw [overflow]
    refine iff_of_false ?_ fun both => sum both.1
    rintro ⟨ret, r', stores, parsed, -⟩
    cases parsed

end content

/-! ### Runs -/

/-- A connection that waits for bytes, or is in the loop of `process_read`. -/
inductive Situation
  | waiting (r : Reader)
  | looping (p : Point)

/-- The line that begins where the headers have ended is the body. -/
def bodyBegins (p p' : Point) (begins : ℕ) : ℕ :=
  if p.reader.checkState ≠ .content ∧ p'.reader.checkState = .content then p'.reader.checkedIdx
  else begins

/-- What happens to a connection from `init()` on, with the place where its body begins. -/
inductive Handled (proxy : ProxyType) : Situation → ℕ → Prop
  | init (c : Reader) : Handled proxy (.waiting c.init) 0
  | read {r : Reader} {begins : ℕ} {bytes : List Char} (handled : Handled proxy (.waiting r) begins)
      (room : (r.feed bytes).readIdx ≤ readBufferSize) :
      Handled proxy (.waiting (r.feed bytes)) begins
  | call {r : Reader} {begins : ℕ} (handled : Handled proxy (.waiting r) begins) :
      Handled proxy (.looping (.first r)) begins
  | iterate {p p' : Point} {begins : ℕ} (handled : Handled proxy (.looping p) begins)
      (next : p.iterate proxy = .inl p') :
      Handled proxy (.looping p') (bodyBegins p p' begins)
  | left {p : Point} {begins : ℕ} {decideProxy : Bool} {r : Reader}
      (handled : Handled proxy (.looping p) begins)
      (ended : p.iterate proxy = .inr (.left, decideProxy, r)) : Handled proxy (.waiting r) begins

/-- In the body, `m_start_line` is where it begins or behind. With a negative length it has
begun just now. -/
structure BodyFrom (begins : ℕ) (status : LineStatus) (r : Reader) : Prop where
  order : r.InOrder
  behind : r.checkState = .content → begins ≤ r.startLine
  fresh : r.checkState = .content → r.contentLength < 0 → status = .ok ∧ r.startLine = begins

/-- What is known of the body in a situation. -/
def Situation.BodyFrom (begins : ℕ) : Situation → Prop
  | .waiting r => Http.BodyFrom begins .open r
  | .looping p => Http.BodyFrom begins p.status p.reader

section runs

variable {proxy : ProxyType} {r r' : Reader} {p p' : Point} {begins : ℕ} {decideProxy : Bool}
  {status : LineStatus}

/-- A pass that is not for the body goes on with `LINE_OK`. -/
theorem ok_of_goesOn {decideProxy' : Bool} (line : r.checkState ≠ .content)
    (turned : r.turn proxy decideProxy = .goesOn status decideProxy' r') : status = .ok := by
  rcases r.checkState.eq_or with state | state | state
  · cases parsed : { r with startLine := r.checkedIdx }.parseRequestLine r.startLine with
    | error fault =>
      rw [turn_requestLine_error state parsed] at turned
      cases turned
    | ok x =>
      obtain ⟨ret, r'', stores⟩ := x
      rw [turn_requestLine state parsed] at turned
      split_ifs at turned
      cases turned
      rfl
  · rcases parsed : { r with startLine := r.checkedIdx }.parseHeaders proxy r.startLine decideProxy
      with ⟨ret, decideProxy'', r''⟩
    rw [turn_header state parsed] at turned
    split_ifs at turned
    cases turned
    rfl
  · exact absurd state line

/-- Where the condition of the loop looks for a line, no body has begun just now. -/
theorem BodyFrom.condition (body : BodyFrom begins p.status p.reader) :
    BodyFrom begins (if p.condition.1 then .ok else .open) p.condition.2 := by
  have order := body.order.condition
  unfold Point.condition at order ⊢
  by_cases inBody : p.reader.checkState = .content ∧ p.status = .ok
  · rw [if_pos inBody] at order ⊢
    refine ⟨order, body.behind, fun state negative => ⟨rfl, (body.fresh state negative).2⟩⟩
  · rw [if_neg inBody] at order ⊢
    refine ⟨order, body.behind, fun state negative => ?_⟩
    exact absurd ⟨state, (body.fresh state negative).1⟩ inBody

/-- A pass leaves the body where it is. If the headers end, it begins there. -/
theorem BodyFrom.turn (body : BodyFrom begins .ok r) {decideProxy' : Bool}
    (turned : r.turn proxy decideProxy = .goesOn status decideProxy' r') :
    BodyFrom (if r.checkState ≠ .content ∧ r'.checkState = .content then r'.checkedIdx else begins)
      status r' := by
  have order := @InOrder.turn proxy r decideProxy body.order
  have place := @samePlace_turn proxy r decideProxy
  rw [turned] at order place
  have moved : r'.startLine = r'.checkedIdx := place.startLine.trans place.checkedIdx.symm
  by_cases state : r.checkState = .content
  · -- part of the body is missing, so its length is positive
    rw [if_neg fun both => both.1 state]
    rw [turn_content state] at turned
    split_ifs at turned with sum whole
    cases turned
    refine ⟨order, fun _ => (body.behind state).trans body.order.start, fun _ negative => ?_⟩
    have within := body.order.checked
    dsimp only at negative
    omega
  · by_cases state' : r'.checkState = .content
    · rw [if_pos ⟨state, state'⟩]
      exact ⟨order, fun _ => moved.ge, fun _ _ => ⟨ok_of_goesOn state turned, moved⟩⟩
    · exact ⟨order, fun body => absurd body state', fun body => absurd body state'⟩

/-- A body with a negative length is never left for the next call. -/
theorem bodyFrom_of_handled {s : Situation} (handled : Handled proxy s begins) :
    s.BodyFrom begins := by
  induction handled with
  | init c =>
    refine ⟨⟨le_rfl, le_rfl, Nat.zero_le _⟩, fun _ => le_rfl, fun state => ?_⟩
    cases state
  | read _ room ih =>
    have body : Http.BodyFrom _ _ _ := ih
    exact ⟨body.order.feed room, body.behind, body.fresh⟩
  | call _ ih =>
    have body : Http.BodyFrom _ _ _ := ih
    refine ⟨body.order, body.behind, fun state negative => ?_⟩
    cases (body.fresh state negative).1
  | @iterate p p' begins _ next ih =>
    obtain ⟨holds, turned⟩ := Point.of_iterate_inl next
    have body := BodyFrom.condition ih
    rw [holds, if_pos rfl] at body
    have turned' := body.turn turned
    rwa [Point.checkState_condition] at turned'
  | left _ ended ih =>
    obtain ⟨fails, rfl⟩ := Prod.ext_iff.mp (Point.of_iterate_left ended)
    have body := BodyFrom.condition ih
    rwa [fails, if_neg Bool.false_ne_true] at body

theorem Handled.iterations {k : ℕ} (handled : Handled proxy (.looping p) begins)
    (reaches : p.iterations proxy k = .inl p') :
    ∃ begins', Handled proxy (.looping p') begins' := by
  induction k generalizing p begins with
  | zero =>
    cases reaches
    exact ⟨begins, handled⟩
  | succ k ih =>
    unfold Point.iterations at reaches
    cases next : p.iterate proxy with
    | inl p'' =>
      rw [next] at reaches
      exact ih (handled.iterate next) reaches
    | inr result =>
      rw [next] at reaches
      cases reaches

end runs

/-- A call of `parse_content` in the loop, in a body that begins here. -/
def ParsesContent (proxy : ProxyType) (r : Reader) (begins : ℕ) : Prop :=
  ∃ p, Handled proxy (.looping p) begins ∧ p.condition = (true, r) ∧ r.checkState = .content

/-- A call of `parse_content` does what it should unless the declared length is negative, or
the sum overflows, or the body ends with `m_read_buf`. -/
theorem storesInside_iff {proxy : ProxyType} {r : Reader} {begins : ℕ}
    (called : ParsesContent proxy r begins) :
    StoresInside r r.startLine begins ↔
      0 ≤ r.contentLength ∧ r.contentLength + r.checkedIdx < 2 ^ 63 ∧
        ¬(r.readIdx = readBufferSize ∧ r.startLine = r.checkedIdx ∧
          r.checkedIdx + r.contentLength = readBufferSize) := by
  obtain ⟨p, handled, holds, state⟩ := called
  have body : BodyFrom begins .ok r := by
    have entered := BodyFrom.condition (bodyFrom_of_handled handled)
    rwa [holds, if_pos rfl] at entered
  have behind := body.behind state
  have ⟨start, checked, read⟩ := body.order
  rw [storesInside_iff_place]
  constructor
  · rintro ⟨⟨-, fits⟩, inside⟩
    refine ⟨?_, fits, ?_⟩
    · -- a negative length leads to a place before the body
      by_contra negative
      have here := (body.fresh state (Int.not_le.mp negative)).2
      have place := (inside (by omega)).2.1
      omega
    · rintro ⟨full, here, ends⟩
      have place := (inside (by omega)).1.2
      omega
  · rintro ⟨positive, fits, notFull⟩
    refine ⟨⟨by omega, fits⟩, fun whole => ⟨⟨by omega, ?_⟩, by omega, by omega⟩⟩
    -- the last byte of the buffer is reached from `m_checked_idx` only
    by_contra beyond
    exact notFull ⟨by omega, by omega, by omega⟩

/-- A form with two bytes, and another length perhaps. -/
def formOf (length : String) : Reader :=
  unused.init.feed
    ("POST /0 HTTP/1.1\r\nContent-length: " ++ length ++ "\r\n\r\nab").toList

/-- The loop when it has come to the body. -/
def atBody (length : String) (n : ℤ) : Point where
  status := .ok
  decideProxy := true
  reader := {
    readBuf := ("POST\x00/0\x00HTTP/1.1\x00\x00Content-length: " ++ length ++
      "\x00\x00\x00\x00ab").toList
    checkedIdx := 38 + length.length
    startLine := 38 + length.length
    checkState := .content
    method := .post
    url := some 5
    version := some 8
    host := none
    contentLength := n
    cgi := true
    string := none }

theorem parsesContent_atBody {length : String} {n : ℤ}
    (room : (formOf length).readIdx ≤ readBufferSize)
    (comes : (Point.first (formOf length)).iterations .noProxy 3 = .inl (atBody length n)) :
    ∃ begins, ParsesContent .noProxy (atBody length n).reader begins := by
  have read : Handled .noProxy (.waiting (formOf length)) 0 := .read (.init unused) room
  obtain ⟨begins, handled⟩ := read.call.iterations comes
  exact ⟨begins, atBody length n, handled, rfl, rfl⟩

theorem storesInside_two :
    ∃ begins, StoresInside (atBody "2" 2).reader (atBody "2" 2).reader.startLine begins := by
  obtain ⟨begins, called⟩ := @parsesContent_atBody "2" 2 (by decide +kernel) (by decide +kernel)
  exact ⟨begins, (storesInside_iff called).mpr (by decide +kernel)⟩

/-- With a negative length the NUL is stored before `m_read_buf`. -/
theorem not_storesInside : ¬∀ (proxy : ProxyType) (r : Reader) (begins : ℕ),
    ParsesContent proxy r begins → StoresInside r r.startLine begins := by
  intro all
  obtain ⟨begins, called⟩ :=
    @parsesContent_atBody "-100" (-100) (by decide +kernel) (by decide +kernel)
  obtain ⟨-, inside⟩ := storesInside_iff_place.mp (all _ _ _ called)
  have place := (inside (by decide +kernel)).1.1
  exact absurd place (by decide +kernel)

end CoroutineService.Http
