import CoroutineService.Http.Connection
import CoroutineService.Http.Lines

/-!
# The pointer to the body

`m_string` points to the body of a request. `init()` leaves it alone; `parse_content` sets it when
the body has come, and `do_request` reads it for a form. Nothing else depends on it: had it been
something else before, the same would happen up to the place where it is read.

## Main definitions

* `Reader.setsString`: `parse_content` has set `m_string`
* `Reader.withString`: the reader, had `m_string` been something else
* `entersForm`: `do_request` reads `m_string`

## Main results

* `Reader.body_of_loop`: the body is parsed where a length was declared
* `Reader.loop_withString`: the loop of `process_read` does not depend on `m_string`
* `Backend.answer_withString`, `Backend.answer_unset`: nor does `do_request`, except for a form
-/

set_option autoImplicit false

namespace CoroutineService.Http

open CString

/-! ### Where `m_string` is set -/

namespace Reader

variable {proxy : ProxyType} {status : LineStatus} {decideProxy : Bool} {r r' : Reader} {text : ℕ}

/-- `parse_content` has set `m_string` in this call of `process_read`. -/
def setsString : Exit × Bool × Reader → Bool
  | (exit, _, r) => exit = .request && r.checkState = .content

/-- The reader, had `m_string` been something else. -/
def withString (r : Reader) (string : Option ℕ) : Reader := { r with string := string }

/-- The same for what the loop leaves. A pointer that has been set does not depend on it. -/
def withStringAfter (string : Option ℕ) (x : Exit × Bool × Reader) : Exit × Bool × Reader :=
  (x.1, x.2.1, if setsString x then x.2.2 else x.2.2.withString string)

variable {string : Option ℕ}

variable (string) in
theorem parseRequestLine_withString (r : Reader) (text : ℕ) :
    (r.withString string).parseRequestLine text =
      mapReader (·.withString string) <$> r.parseRequestLine text := by
  have same : r.withString string = r.apart r.checkedIdx r.startLine string := rfl
  rw [same, parseRequestLine_apart]
  cases parsed : r.parseRequestLine text with
  | error fault => rfl
  | ok x =>
    obtain ⟨code, r', stores⟩ := x
    obtain ⟨-, checked, start⟩ := (lineParsed_parseRequestLine parsed).place
    have kept : r'.apart r.checkedIdx r.startLine string = r'.withString string := by
      rw [← checked, ← start]
      rfl
    show Except.ok (code, r'.apart r.checkedIdx r.startLine string, stores) = _
    rw [kept]
    rfl

variable (proxy decideProxy string) in
theorem parseHeaders_withString (r : Reader) (text : ℕ) :
    (r.withString string).parseHeaders proxy text decideProxy =
      ((r.parseHeaders proxy text decideProxy).1, (r.parseHeaders proxy text decideProxy).2.1,
        (r.parseHeaders proxy text decideProxy).2.2.withString string) := by
  have value : ∀ n, (r.withString string).valueAt text n = r.valueAt text n := fun _ => rfl
  have buf : (r.withString string).readBuf = r.readBuf := rfl
  have length : (r.withString string).contentLength = r.contentLength := rfl
  unfold parseHeaders
  rw [value, value, buf, length]
  split_ifs
  · rfl
  · rfl
  · rfl
  · rfl
  · rfl
  · cases proxy <;> rfl
  · rfl

/-- The body is read only if a length has been declared. -/
def Declared (r : Reader) : Prop := r.checkState = .content → r.contentLength ≠ 0

/-- A header, the blank line or a header that is refused. -/
theorem parseHeaders_cases (state : r.checkState = .header) :
    ((r.parseHeaders proxy text decideProxy).1 = .getRequest →
        (r.parseHeaders proxy text decideProxy).2.2.contentLength = 0) ∧
      Declared (r.parseHeaders proxy text decideProxy).2.2 := by
  have header : r.checkState ≠ .content := by
    rw [state]
    decide
  unfold parseHeaders
  split
  · split
    · next some => exact ⟨nofun, fun _ => some⟩
    · next none => exact ⟨fun _ => not_not.mp none, fun body => absurd body header⟩
  · split
    · exact ⟨nofun, fun body => absurd body header⟩
    · split
      · exact ⟨nofun, fun body => absurd body header⟩
      · split
        · exact ⟨nofun, fun body => absurd body header⟩
        · split
          · cases proxy with
            | noProxy => exact ⟨nofun, fun body => absurd body header⟩
            | nginx => exact ⟨nofun, fun body => absurd body header⟩
          · exact ⟨nofun, fun body => absurd body header⟩

variable (proxy decideProxy string) in
/-- The body of the loop asks for `m_string` nowhere. -/
theorem turn_withString (r : Reader) : (r.withString string).turn proxy decideProxy =
    match r.turn proxy decideProxy with
      | .goesOn status decideProxy r' => .goesOn status decideProxy (r'.withString string)
      | .ends exit decideProxy r' =>
        .ends exit decideProxy (withStringAfter string (exit, decideProxy, r')).2.2 := by
  cases state : r.checkState with
  | requestLine =>
    have other := parseRequestLine_withString string { r with startLine := r.checkedIdx }
      r.startLine
    cases parsed : { r with startLine := r.checkedIdx }.parseRequestLine r.startLine with
    | error fault =>
      rw [parsed] at other
      rw [turn_requestLine_error state parsed,
        turn_requestLine_error (r := r.withString string) state other]
      rfl
    | ok x =>
      obtain ⟨ret, r', stores⟩ := x
      rw [parsed] at other
      rw [turn_requestLine state parsed, turn_requestLine (r := r.withString string) state other]
      split_ifs <;> rfl
  | header =>
    obtain ⟨ret, decideProxy', r', parsed⟩ : ∃ ret decideProxy' r',
        { r with startLine := r.checkedIdx }.parseHeaders proxy r.startLine decideProxy =
          (ret, decideProxy', r') := ⟨_, _, _, rfl⟩
    have other := parseHeaders_withString proxy decideProxy string
      { r with startLine := r.checkedIdx } r.startLine
    rw [parsed] at other
    rw [turn_header state parsed, turn_header (r := r.withString string) state other]
    split_ifs with bad whole
    · rfl
    · obtain ⟨complete, declared⟩ := @parseHeaders_cases proxy decideProxy
        { r with startLine := r.checkedIdx } r.startLine state
      rw [parsed] at complete declared
      have unset : setsString (.request, decideProxy', r') = false := by
        unfold setsString
        exact decide_eq_false fun body => declared body (complete whole)
      dsimp only [withStringAfter]
      rw [unset, if_neg Bool.false_ne_true]
    · rfl
  | content =>
    rw [turn_content state, turn_content (r := r.withString string) state]
    have buf : (r.withString string).readIdx = r.readIdx := rfl
    have length : (r.withString string).contentLength = r.contentLength := rfl
    have checked : (r.withString string).checkedIdx = r.checkedIdx := rfl
    have start : (r.withString string).startLine = r.startLine := rfl
    rw [buf, length, checked, start]
    split_ifs
    · have set : setsString (.request, decideProxy, { r with
          startLine := r.checkedIdx
          readBuf := storeNul r.readBuf (r.startLine + r.contentLength)
          string := some r.startLine }) = true := by
        unfold setsString
        exact decide_eq_true state
      dsimp only [withStringAfter]
      rw [if_pos set]
      rfl
    · rfl
    · rfl
    · rfl

variable (proxy status decideProxy string) in
/-- The loop of `process_read` asks for `m_string` nowhere. -/
theorem loop_withString (r : Reader) : loop proxy status decideProxy (r.withString string) =
    withStringAfter string (loop proxy status decideProxy r) := by
  have line (r : Reader) : (r.withString string).parseLine =
      (r.parseLine.1, r.parseLine.2.withString string) := rfl
  have after (r : Reader) (decideProxy : Bool)
      (onward : ∀ status' decideProxy' r', r.turn proxy decideProxy =
        .goesOn status' decideProxy' r' →
          loop proxy status' decideProxy' (r'.withString string) =
            withStringAfter string (loop proxy status' decideProxy' r')) :
      afterTurn proxy ((r.withString string).turn proxy decideProxy) =
        withStringAfter string (afterTurn proxy (r.turn proxy decideProxy)) := by
    rw [turn_withString proxy decideProxy string r]
    cases turned : r.turn proxy decideProxy with
    | ends exit decideProxy' r' => rfl
    | goesOn status' decideProxy' r' => exact onward status' decideProxy' r' turned
  induction status, decideProxy, r using loop_induction proxy with
  | body decideProxy r state ih =>
    rw [loop_body state, loop_body (r := r.withString string) state]
    exact after r decideProxy ih
  | line status decideProxy r r' notBody found ih =>
    have found' := line r
    rw [found] at found'
    rw [loop_of_ok notBody found, loop_of_ok (r := r.withString string) notBody found']
    exact after r' decideProxy ih
  | stuck status decideProxy r status' r' notBody stuck found =>
    have found' := line r
    rw [found] at found'
    rw [loop_of_stuck notBody stuck found,
      loop_of_stuck (r := r.withString string) notBody stuck found']
    rfl

/-- What is known of a body when the loop ends: its length was declared, and a request that is
complete without `parse_content` has none. A call that begins in the body ends there. -/
structure Ended (inBody : Prop) (exit : Exit) (r : Reader) : Prop where
  declared : Declared r
  stays : inBody → r.checkState = .content
  parsed : exit = .request → r.contentLength ≠ 0 → r.checkState = .content
  stored : exit = .request → r.checkState = .content → r.string.isSome = true

/-- One pass through the body of the loop. -/
theorem turn_ended {inBody : Prop} (declared : Declared r)
    (stays : inBody → r.checkState = .content) :
    match r.turn proxy decideProxy with
      | .goesOn _ _ r' => Declared r' ∧ (inBody → r'.checkState = .content)
      | .ends exit _ r' => Ended inBody exit r' := by
  cases state : r.checkState with
  | requestLine =>
    -- A call that begins in the body does not come back to the request line.
    have outside : ¬ inBody := fun body => nomatch (stays body).symm.trans state
    have ended (exit : Exit) (r' : Reader) (other : exit ≠ .request)
        (notBody : r'.checkState ≠ .content) : Ended inBody exit r' :=
      ⟨fun body => absurd body notBody, fun body => absurd body outside,
        fun request => absurd request other, fun request => absurd request other⟩
    cases parsed : { r with startLine := r.checkedIdx }.parseRequestLine r.startLine with
    | error fault =>
      rw [turn_requestLine_error state parsed]
      exact ended _ _ nofun (by rw [state]; decide)
    | ok x =>
      obtain ⟨ret, r', stores⟩ := x
      rw [turn_requestLine state parsed]
      rcases (lineParsed_parseRequestLine parsed).result with ⟨rfl, same⟩ | ⟨rfl, header, -⟩
      · rw [if_pos rfl]
        exact ended _ _ nofun (by rw [same]; show r.checkState ≠ .content; rw [state]; decide)
      · rw [if_neg nofun]
        have notBody : r'.checkState ≠ .content := by
          rw [header]
          decide
        exact ⟨fun body => absurd body notBody, fun body => absurd body outside⟩
  | header =>
    have outside : ¬ inBody := fun body => nomatch (stays body).symm.trans state
    obtain ⟨complete, declared'⟩ := @parseHeaders_cases proxy decideProxy
      { r with startLine := r.checkedIdx } r.startLine state
    obtain ⟨ret, decideProxy', r', parsed⟩ : ∃ ret decideProxy' r',
        { r with startLine := r.checkedIdx }.parseHeaders proxy r.startLine decideProxy =
          (ret, decideProxy', r') := ⟨_, _, _, rfl⟩
    rw [turn_header state parsed]
    rw [parsed] at complete declared'
    by_cases bad : ret = .badRequest
    · rw [if_pos bad]
      exact ⟨declared', fun body => absurd body outside, nofun, nofun⟩
    · rw [if_neg bad]
      by_cases whole : ret = .getRequest
      · rw [if_pos whole]
        exact ⟨declared', fun body => absurd body outside,
          fun _ some => absurd (complete whole) some,
          fun _ body => absurd (complete whole) (declared' body)⟩
      · rw [if_neg whole]
        exact ⟨declared', fun body => absurd body outside⟩
  | content =>
    have some : r.contentLength ≠ 0 := declared state
    rw [turn_content state]
    split_ifs
    · exact ⟨fun _ => some, fun _ => state, fun _ _ => state, fun _ _ => rfl⟩
    · exact ⟨fun _ => some, fun _ => state, nofun, nofun⟩
    · exact ⟨fun _ => some, fun _ => state⟩
    · exact ⟨fun _ => some, fun _ => state, nofun, nofun⟩

/-- The body of a request is parsed where its length was declared. -/
theorem body_of_loop (declared : Declared r) :
    Ended (r.checkState = .content) (loop proxy status decideProxy r).1
      (loop proxy status decideProxy r).2.2 :=
  loop_rule (I := fun r' => Declared r' ∧ (r.checkState = .content → r'.checkState = .content))
    (Q := Ended (r.checkState = .content)) (fun _ kept => kept)
    (fun _ kept => ⟨kept.1, kept.2, nofun, nofun⟩) (fun _ _ kept => turn_ended kept.1 kept.2)
    ⟨declared, id⟩

/-- `m_string` stays as it is if `parse_content` does not set it. -/
theorem string_of_loop (unset : setsString (loop proxy status decideProxy r) = false) :
    (loop proxy status decideProxy r).2.2.string = r.string := by
  have same : r.withString r.string = r := rfl
  have itself := loop_withString proxy status decideProxy r.string r
  rw [same, withStringAfter, unset, if_neg Bool.false_ne_true] at itself
  rw [itself]
  rfl

end Reader

/-! ### Where it is read -/

/-- `do_request` reads `m_string`: it is not turned away, and the URL is that of a form. -/
def entersForm (proxy : ProxyType) (decideProxy : Bool) (r : Reader) : Bool :=
  !mismatch proxy decideProxy &&
    match r.url with
    | none => false
    | some p =>
      match Reader.lastSlash (strAt r.readBuf p) with
      | none => false
      | some k => isForm r.cgi ((strAt r.readBuf p).getD (k + 1) '\x00')

namespace Backend

variable {b : Backend} {proxy : ProxyType} {decideProxy : Bool} {users : Users} {r : Reader}
  {string : Option ℕ}

/-- Without a form, the path is composed of the URL alone. -/
theorem prepare_congr {r' : Reader} (passes : mismatch proxy decideProxy = false)
    (noForm : entersForm proxy decideProxy r = false) (url : r'.url = r.url)
    (buf : r'.readBuf = r.readBuf) (cgi : r'.cgi = r.cgi) :
    b.prepare users r' = b.prepare users r := by
  unfold entersForm at noForm
  rw [passes, Bool.not_false, Bool.true_and] at noForm
  unfold prepare
  rw [url, buf, cgi]
  congr 1
  ext file
  cases pointer : r.url with
  | none => rfl
  | some p =>
    rw [pointer] at noForm
    dsimp only at noForm ⊢
    cases slash : Reader.lastSlash (strAt r.readBuf p) with
    | none => rfl
    | some k =>
      rw [slash] at noForm
      dsimp only at noForm ⊢
      rw [noForm, if_neg Bool.false_ne_true, if_neg Bool.false_ne_true]

/-- Without a form, `do_request` does not depend on `m_string`. -/
theorem answer_withString (noForm : entersForm proxy decideProxy r = false) :
    b.answer proxy decideProxy users (r.withString string) =
      (b.answer proxy decideProxy users r).map fun a =>
        { a with reader := a.reader.withString string } := by
  have rewritten (s : Prepared) :
      (r.withString string).rewritten s = (r.rewritten s).withString string := by
    have url : (r.withString string).url = r.url := rfl
    unfold Reader.rewritten
    rw [url]
    split <;> rfl
  unfold answer
  cases passes : mismatch proxy decideProxy with
  | true => rfl
  | false =>
    have same : b.prepare users (r.withString string) = b.prepare users r :=
      prepare_congr passes noForm rfl rfl rfl
    rw [if_neg Bool.false_ne_true, if_neg Bool.false_ne_true, same]
    cases b.prepare users r with
    | error fault => rfl
    | ok s =>
      dsimp only [bind, Except.bind]
      rw [rewritten]
      cases b.finish s with
      | error fault => rfl
      | ok ret => rfl

/-- A form cannot be read through a pointer that was never set. -/
theorem answer_unset (form : entersForm proxy decideProxy r = true) (unset : r.string = none)
    (a : Answer) : b.answer proxy decideProxy users r ≠ .ok a := by
  have unread (f : Fields) : r.fields ≠ .ok f := by
    have body (i : ℕ) : r.body i = .error .overrun := by
      unfold Reader.body
      rw [unset]
    unfold Reader.fields copyUntil
    rw [body]
    intro read
    cases read
  intro answered
  unfold entersForm at form
  obtain ⟨passes, form⟩ := Bool.and_eq_true_iff.mp form
  unfold answer at answered
  rw [Bool.not_eq_eq_eq_not, Bool.not_true] at passes
  rw [passes, if_neg Bool.false_ne_true] at answered
  obtain ⟨s, prepared, -⟩ := exists_of_bind answered
  unfold prepare at prepared
  obtain ⟨file, -, prepared⟩ := exists_of_bind prepared
  cases pointer : r.url with
  | none =>
    rw [pointer] at form
    cases form
  | some p =>
    rw [pointer] at form prepared
    dsimp only at form prepared
    cases slash : Reader.lastSlash (strAt r.readBuf p) with
    | none =>
      rw [slash] at form
      cases form
    | some k =>
      rw [slash] at form prepared
      dsimp only at form prepared
      rw [if_pos form] at prepared
      obtain ⟨s', served, -⟩ := exists_of_bind prepared
      unfold prepareForm at served
      obtain ⟨real, -, served⟩ := exists_of_bind served
      obtain ⟨real', -, served⟩ := exists_of_bind served
      obtain ⟨file', -, served⟩ := exists_of_bind served
      -- The fields are read before anything is answered.
      obtain ⟨f, read, -⟩ := exists_of_bind served
      exact unread f read

end Backend

end CoroutineService.Http
