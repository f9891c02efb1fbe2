import CoroutineService.Http.Parser
import Mathlib.Data.List.Infix

/-!
# Lines

What `parse_line` and the functions it feeds do with one line, and what they leave for
the bytes that come later.

## Main definitions

* `IsLine`: a text that can stand on a line
* `HeaderKind`, `kindOf`: the headers `parse_headers` tells apart
* `Reader.AtLine`: a reader before a line
* `Reader.InBody`, `Reader.Lost`: a reader before the body, and one that has gone past
  its beginning

## Main results

* `Reader.loop_partly`: bytes without the end of a line are kept for the next call
* `Reader.loop_header`, `Reader.loop_blank`, `Reader.loop_requestLine`: complete lines
* `Reader.loop_inBody`, `Reader.loop_lost`: the body
-/

set_option autoImplicit false

namespace CoroutineService.Http

open CString

/-- A text that can stand on a line. -/
def IsLine (l : List Char) : Prop := ∀ c ∈ l, c ≠ '\r' ∧ c ≠ '\n' ∧ c ≠ '\x00'

instance (l : List Char) : Decidable (IsLine l) := List.decidableBAll _ l

theorem IsLine.lf {l : List Char} (line : IsLine l) : '\n' ∉ l := fun lf => (line _ lf).2.1 rfl

/-- The C string that a line is read as. -/
def textOf (l : List Char) : List Char := l.takeWhile (· ≠ '\x00')

theorem IsLine.textOf {l : List Char} (line : IsLine l) : Http.textOf l = l :=
  List.takeWhile_eq_self_iff.mpr fun c mem => decide_eq_true (line c mem).2.2

/-- The end of a line. -/
def crlf : List Char := ['\r', '\n']

/-- What `parse_line` writes over it. -/
def nuls : List Char := ['\x00', '\x00']

namespace Reader

/-! ### Looking for the end of a line -/

section scan

variable {buf : List Char} {remaining i : ℕ}

theorem le_scan (buf : List Char) (remaining i : ℕ) : i ≤ (scan buf remaining i).2.2 := by
  induction remaining generalizing i with
  | zero => exact Nat.le_refl i
  | succ remaining ih =>
    have later : i ≤ (scan buf remaining (i + 1)).2.2 := Nat.le_of_succ_le (ih (i + 1))
    unfold scan
    split_ifs
    · exact Nat.le_refl i
    · exact Nat.le_add_right i 2
    · exact later
    · exact Nat.le_succ i
    · exact Nat.le_refl i
    · exact later

/-- A search ends within the bytes read. -/
theorem scan_le (here : i + remaining = buf.length) : (scan buf remaining i).2.2 ≤ buf.length := by
  induction remaining generalizing i with
  | zero => exact Nat.le_of_eq here
  | succ remaining ih =>
    have onward : i + 1 + remaining = buf.length := by omega
    unfold scan
    split_ifs
    · show i ≤ buf.length
      omega
    · show i + 2 ≤ buf.length
      omega
    · exact ih onward
    · show i + 1 ≤ buf.length
      omega
    · show i ≤ buf.length
      omega
    · exact ih onward

/-- The byte at `i` cannot end a line, and is not the last one of the buffer if it may
begin the end of one. -/
def Passes (buf : List Char) (i : ℕ) : Prop :=
  charAt buf i ≠ '\n' ∧
    (charAt buf i = '\r' → i + 1 ≠ buf.length ∧ charAt buf (i + 1) ≠ '\n')

theorem scan_passes (passes : Passes buf i) :
    scan buf (remaining + 1) i = scan buf remaining (i + 1) := by
  obtain ⟨lf, next⟩ := passes
  rw [scan, if_neg lf]
  by_cases cr : charAt buf i = '\r'
  · rw [if_pos cr, if_neg (next cr).1, if_neg (next cr).2]
  · rw [if_neg cr]

theorem scan_last (cr : charAt buf i = '\r') (last : i + 1 = buf.length) :
    scan buf (remaining + 1) i = (.open, buf, i) := by
  rw [scan, if_pos cr, if_pos last]

theorem scan_lf (lf : charAt buf i = '\n') (before : charAt buf (i - 1) ≠ '\r') :
    scan buf (remaining + 1) i = (.bad, buf, i) := by
  rw [scan, if_neg (by rw [lf]; decide), if_pos lf, if_neg fun both => before both.2]

theorem lt_scan (lf : charAt buf i ≠ '\n') (more : charAt buf i = '\r' → i + 1 ≠ buf.length) :
    i < (scan buf (remaining + 1) i).2.2 := by
  by_cases end_ : charAt buf i = '\r' ∧ charAt buf (i + 1) = '\n'
  · rw [scan, if_pos end_.1, if_neg (more end_.1), if_pos end_.2]
    exact Nat.lt_add_of_pos_right Nat.two_pos
  · have passes : Passes buf i := ⟨lf, fun cr => ⟨more cr, fun lf => end_ ⟨cr, lf⟩⟩⟩
    rw [scan_passes passes]
    exact le_scan buf remaining (i + 1)

/-- What a search that finds no line begins with. -/
theorem passes_of_stuck (stuck : (scan buf (remaining + 1) i).1 ≠ .ok) :
    scan buf (remaining + 1) i = (.open, buf, i) ∨ scan buf (remaining + 1) i = (.bad, buf, i) ∨
      Passes buf i := by
  unfold scan at stuck ⊢
  split_ifs at stuck ⊢ with cr last lf lf
  · exact .inl rfl
  · exact absurd rfl stuck
  · exact .inr (.inr ⟨fun lf => absurd (cr.symm.trans lf) (by decide), fun _ => ⟨last, lf⟩⟩)
  · exact absurd rfl stuck
  · exact .inr (.inl rfl)
  · exact .inr (.inr ⟨lf, fun cr' => absurd cr' cr⟩)

theorem passes_append (passes : Passes buf i) (inside : i < buf.length) (q : List Char) :
    Passes (buf ++ q) i := by
  rw [Passes, charAt_append inside]
  refine ⟨passes.1, fun cr => ?_⟩
  obtain ⟨more, lf⟩ := passes.2 cr
  rw [charAt_append (by omega), List.length_append]
  exact ⟨by omega, lf⟩

/-- A search without result goes on, with more bytes, where it stopped. -/
theorem scan_append (here : i + remaining = buf.length) (stuck : (scan buf remaining i).1 ≠ .ok)
    (q : List Char) :
    (scan buf remaining i).2.1 = buf ∧
      scan (buf ++ q) (remaining + q.length) i =
        scan (buf ++ q) ((buf ++ q).length - (scan buf remaining i).2.2)
          (scan buf remaining i).2.2 := by
  induction remaining generalizing i with
  | zero =>
    refine ⟨rfl, ?_⟩
    rw [scan, List.length_append, ← here, Nat.zero_add, Nat.add_zero, Nat.add_sub_cancel_left]
  | succ remaining ih =>
    have onward : i + 1 + remaining = buf.length := by omega
    have inside : i < buf.length := by omega
    -- where the search stops, it starts again with all that is left
    have rest : (buf ++ q).length - i = remaining + 1 + q.length := by
      rw [List.length_append]
      omega
    rcases passes_of_stuck stuck with stops | stops | passes
    · rw [stops, rest]
      exact ⟨rfl, rfl⟩
    · rw [stops, rest]
      exact ⟨rfl, rfl⟩
    · rw [scan_passes passes] at stuck ⊢
      rw [Nat.add_right_comm, scan_passes (passes_append passes inside q)]
      exact ih onward stuck

/-- Without a line feed there is no end of a line. -/
theorem scan_open (here : i + remaining = buf.length) (none : ∀ k, i ≤ k → charAt buf k ≠ '\n') :
    (scan buf remaining i).1 = .open := by
  induction remaining generalizing i with
  | zero => rfl
  | succ remaining ih =>
    by_cases last : charAt buf i = '\r' ∧ i + 1 = buf.length
    · rw [scan_last last.1 last.2]
    · have passes : Passes buf i :=
        ⟨none i (Nat.le_refl i), fun cr =>
          ⟨fun end_ => last ⟨cr, end_⟩, none (i + 1) (Nat.le_succ i)⟩⟩
      rw [scan_passes passes]
      exact ih (by omega) fun k behind => none k (Nat.le_of_succ_le behind)

/-- The end of a line is found, and overwritten. -/
theorem scan_line {l : List Char} (line : '\n' ∉ l) (m q : List Char) :
    scan (m ++ (l ++ (crlf ++ q))) (l.length + 2 + q.length) m.length =
      (.ok, m ++ (l ++ (nuls ++ q)), m.length + l.length + 2) := by
  induction l generalizing m with
  | nil =>
    have first : charAt (m ++ ([] ++ (crlf ++ q))) m.length = '\r' :=
      charAt_append_length m _ 0
    have second : charAt (m ++ ([] ++ (crlf ++ q))) (m.length + 1) = '\n' :=
      charAt_append_length m _ 1
    have longer : ¬m.length + 1 = (m ++ ([] ++ (crlf ++ q))).length := by
      simp [crlf]
    rw [List.length_nil, Nat.zero_add, Nat.add_comm, scan, if_pos first, if_neg longer,
      if_pos second]
    simp [List.set_append_right, crlf, nuls]
  | cons c l ih =>
    rw [List.mem_cons, not_or] at line
    obtain ⟨lf, line⟩ := line
    have here : charAt (m ++ (c :: l ++ (crlf ++ q))) m.length = c := charAt_append_length m _ 0
    -- behind a carriage return there is more of the line, or the one that ends it
    have next : charAt (m ++ (c :: l ++ (crlf ++ q))) (m.length + 1) ≠ '\n' := by
      rw [charAt_append_length]
      cases l with
      | nil =>
        show '\r' ≠ '\n'
        decide
      | cons d l => exact fun lf' => line (List.mem_cons.mpr (.inl (Eq.symm lf')))
    have passes : Passes (m ++ (c :: l ++ (crlf ++ q))) m.length := by
      rw [Passes, here]
      refine ⟨Ne.symm lf, fun _ => ⟨?_, next⟩⟩
      simp [crlf]
    have count : (c :: l).length + 2 + q.length = l.length + 2 + q.length + 1 := by
      rw [List.length_cons]
      omega
    have tail := ih line (m ++ [c])
    rw [List.length_append, List.length_singleton, List.append_assoc, List.append_assoc] at tail
    rw [count, scan_passes passes, List.length_cons]
    simpa [Nat.add_assoc, Nat.add_comm 1] using tail

end scan

/-! ### A line and a part of one -/

/-- A reader before a line. -/
structure AtLine (c : Reader) : Prop where
  checked : c.checkedIdx = c.readBuf.length
  started : c.startLine = c.readBuf.length

/-- The reader once `parse_line` has found the end of the line. -/
def ended (c : Reader) (l : List Char) : Reader :=
  { c with
    readBuf := c.readBuf ++ (l ++ nuls)
    checkedIdx := c.readBuf.length + l.length + 2 }

/-- The reader once `parse_line` has looked at bytes that do not end a line. -/
def partly (c : Reader) (t : List Char) : Reader := (c.feed t).parseLine.2

section line

variable {proxy : ProxyType} {status : LineStatus} {decideProxy : Bool} {c r r' : Reader}
  {l t : List Char}

theorem feed_feed (c : Reader) (t q : List Char) : (c.feed t).feed q = c.feed (t ++ q) := by
  unfold feed
  rw [List.append_assoc]

theorem parseLine_line (here : AtLine c) (line : '\n' ∉ l) (q : List Char) :
    (c.feed (l ++ (crlf ++ q))).parseLine = (.ok, (c.ended l).feed q) := by
  have count : (c.readBuf ++ (l ++ (crlf ++ q))).length - c.readBuf.length =
      l.length + 2 + q.length := by
    simp [crlf]
    omega
  unfold parseLine feed readIdx ended
  dsimp only
  rw [here.checked, count, scan_line line]
  simp only [List.append_assoc]

/-- Bytes without a line feed leave the line open, and are not looked at twice to effect. -/
theorem parseLine_partly (here : AtLine c) (none : '\n' ∉ t) :
    (c.feed t).parseLine = (.open, c.partly t) ∧
      ∀ q, ((c.partly t).feed q).parseLine = (c.feed (t ++ q)).parseLine := by
  have remaining : c.readBuf.length + t.length = (c.readBuf ++ t).length :=
    List.length_append.symm
  have stuck : (scan (c.readBuf ++ t) t.length c.readBuf.length).1 = .open := by
    apply scan_open remaining
    intro k behind lf
    obtain ⟨j, rfl⟩ := Nat.exists_eq_add_of_le behind
    rw [charAt_append_length] at lf
    exact none (mem_of_charAt lf (by decide))
  have count : (c.feed t).readIdx - (c.feed t).checkedIdx = t.length := by
    unfold readIdx feed
    dsimp only
    rw [here.checked, ← remaining, Nat.add_sub_cancel_left]
  have search : (c.feed t).parseLine = ((scan (c.readBuf ++ t) t.length c.readBuf.length).1,
      { c with
        readBuf := (scan (c.readBuf ++ t) t.length c.readBuf.length).2.1
        checkedIdx := (scan (c.readBuf ++ t) t.length c.readBuf.length).2.2 }) := by
    unfold parseLine
    rw [count]
    unfold feed
    dsimp only
    rw [here.checked]
  refine ⟨Prod.ext (by rw [search, stuck]) rfl, fun q => ?_⟩
  obtain ⟨buf, again⟩ := scan_append remaining (by rw [stuck]; decide) q
  have longer : (c.feed (t ++ q)).readIdx - (c.feed (t ++ q)).checkedIdx = t.length + q.length := by
    unfold readIdx feed
    dsimp only
    rw [here.checked, List.length_append, List.length_append, Nat.add_sub_cancel_left]
  unfold partly
  rw [search]
  unfold parseLine
  rw [longer]
  unfold readIdx feed
  dsimp only
  rw [buf, here.checked, ← List.append_assoc, again]

/-- Where there is no body to look at, the loop depends on the next line only. -/
theorem loop_congr (line : r.checkState ≠ .content) (line' : r'.checkState ≠ .content)
    (same : r.parseLine = r'.parseLine) :
    loop proxy status decideProxy r = loop proxy status decideProxy r' := by
  cases found : r'.parseLine with
  | mk status' next =>
    by_cases ok : status' = .ok
    · subst ok
      rw [loop_of_ok (fun body => line body.1) (same.trans found),
        loop_of_ok (fun body => line' body.1) found]
    · rw [loop_of_stuck (fun body => line body.1) ok (same.trans found),
        loop_of_stuck (fun body => line' body.1) ok found]

variable (proxy) in
/-- Bytes that do not end a line are kept for the next call. -/
theorem loop_partly (here : AtLine c) (line : c.checkState ≠ .content) (none : '\n' ∉ t) :
    (∀ decideProxy, loop proxy .ok decideProxy (c.feed t) = (.left, decideProxy, c.partly t)) ∧
      ∀ decideProxy q, loop proxy .ok decideProxy ((c.partly t).feed q) =
        loop proxy .ok decideProxy (c.feed (t ++ q)) := by
  obtain ⟨stuck, again⟩ := parseLine_partly here none
  have unfinished : LineStatus.open ≠ .ok := nofun
  exact ⟨fun _ => loop_of_stuck (fun body => line body.1) unfinished stuck,
    fun _ q => loop_congr line line (again q)⟩

/-- A complete line is handed to the body of the loop. -/
theorem loop_line (here : AtLine c) (state : c.checkState ≠ .content) (line : '\n' ∉ l)
    (q : List Char) :
    loop proxy status decideProxy (c.feed (l ++ (crlf ++ q))) =
      afterTurn proxy (((c.ended l).feed q).turn proxy decideProxy) :=
  loop_of_ok (fun body => state body.1) (parseLine_line here line q)

end line

end Reader

/-! ### Headers -/

/-- The headers that `parse_headers` tells apart. -/
inductive HeaderKind
  | connection | contentLength | host | forwardedBy | other
  deriving DecidableEq, Repr

/-- The kind of a header line, by its name. -/
def kindOf (l : List Char) : HeaderKind :=
  if startsWith l "Connection:" then .connection
  else if startsWith l "Content-length:" then .contentLength
  else if startsWith l "Host:" then .host
  else if startsWith l "X-Forwarded-By:" then .forwardedBy
  else .other

/-- The `Content-length` after a header line. -/
def declared (n : ℤ) (l : List Char) : ℤ :=
  if kindOf l = .contentLength then number ((l.drop 15).dropWhile (· ∈ [' ', '\t'])) else n

/-- What a header line changes. -/
def Reader.readHeader (r : Reader) (text : ℕ) (l : List Char) : Reader :=
  match kindOf l with
  | .contentLength => { r with contentLength := declared r.contentLength l }
  | .host =>
    { r with host := some (text + 5 + ((l.drop 5).takeWhile (· ∈ [' ', '\t'])).length) }
  | .connection | .forwardedBy | .other => r

namespace Reader

section headers

variable {proxy : ProxyType} {decideProxy : Bool} {c r : Reader} {l q : List Char} {text : ℕ}

/-- `parse_headers` goes by the text of the line. -/
theorem parseHeaders_of_strAt (str : strAt r.readBuf text = l)
    (visible : charAt r.readBuf text ≠ '\x00') :
    r.parseHeaders proxy text decideProxy =
      if kindOf l = .forwardedBy ∧ proxy = .noProxy then (.badRequest, decideProxy, r)
      else (.noRequest, decideProxy && kindOf l != .forwardedBy, r.readHeader text l) := by
  -- What follows the name of a header is the rest of its line.
  have tail {k : ℕ} (within : k ≤ l.length) : strAt r.readBuf (text + k) = l.drop k := by
    rw [strAt_add (by rw [strlen, str]; exact within), str]
  unfold parseHeaders strncasecmp
  rw [if_neg visible, str]
  -- The names are tried in the order of the source, each of them once those before have failed.
  by_cases connection : startsWith l "Connection:" = true
  · have kind : kindOf l = .connection := if_pos connection
    rw [if_pos connection, if_neg (by rw [kind]; simp), readHeader, kind]
    simp
  rw [if_neg connection]
  by_cases length : startsWith l "Content-length:" = true
  · have kind : kindOf l = .contentLength := by
      rw [kindOf, if_neg connection, if_pos length]
    have value : atol r.readBuf (r.valueAt text 15) = declared r.contentLength l := by
      have within : 15 ≤ l.length := length_of_startsWith length
      rw [atol, valueAt, strAt_strspn, tail within, declared, if_pos kind]
    rw [if_pos length, if_neg (by rw [kind]; simp), readHeader, kind, value]
    simp
  rw [if_neg length]
  by_cases host : startsWith l "Host:" = true
  · have kind : kindOf l = .host := by
      rw [kindOf, if_neg connection, if_neg length, if_pos host]
    have value : r.valueAt text 5 = text + 5 + ((l.drop 5).takeWhile (· ∈ [' ', '\t'])).length := by
      have within : 5 ≤ l.length := length_of_startsWith host
      rw [valueAt, strspn, tail within]
    rw [if_pos host, if_neg (by rw [kind]; simp), readHeader, kind, value]
    simp
  rw [if_neg host]
  by_cases forwarded : startsWith l "X-Forwarded-By:" = true
  · have kind : kindOf l = .forwardedBy := by
      rw [kindOf, if_neg connection, if_neg length, if_neg host, if_pos forwarded]
    rw [if_pos forwarded, kind]
    cases proxy with
    | noProxy => simp
    | nginx => simp [readHeader, kind]
  · have kind : kindOf l = .other := by
      rw [kindOf, if_neg connection, if_neg length, if_neg host, if_neg forwarded]
    rw [if_neg forwarded, if_neg (by rw [kind]; simp), readHeader, kind]
    simp

theorem readHeader_feed (r : Reader) (text : ℕ) (l q : List Char) :
    (r.feed q).readHeader text l = (r.readHeader text l).feed q := by
  unfold readHeader
  split <;> rfl

theorem checkState_readHeader (r : Reader) (text : ℕ) (l : List Char) :
    (r.readHeader text l).checkState = r.checkState := by
  unfold readHeader
  split <;> rfl

theorem contentLength_readHeader (r : Reader) (text : ℕ) (l : List Char) :
    (r.readHeader text l).contentLength = declared r.contentLength l := by
  unfold readHeader
  split
  · rfl
  all_goals
    next kind =>
      rw [declared, kind]
      exact (if_neg nofun).symm

theorem samePlace_readHeader (r : Reader) (text : ℕ) (l : List Char) :
    SamePlace r (r.readHeader text l) := by
  unfold readHeader
  split <;> exact ⟨rfl, rfl, rfl⟩

/-- The reader once a line has been parsed, before anything is recorded. -/
def consumed (c : Reader) (l : List Char) : Reader :=
  { c.ended l with startLine := (c.ended l).checkedIdx }

theorem atLine_consumed (c : Reader) (l : List Char) : AtLine (c.consumed l) := by
  have length : (c.consumed l).readBuf.length = c.readBuf.length + l.length + 2 := by
    simp [consumed, ended, nuls, Nat.add_assoc]
  exact ⟨length.symm, length.symm⟩

theorem AtLine.of_samePlace {r r' : Reader} (here : AtLine r) (same : SamePlace r r') :
    AtLine r' := by
  constructor
  · rw [same.checkedIdx, same.readIdx, here.checked]
  · rw [same.startLine, same.readIdx, here.started]

/-- A header line, which is read up to the first NUL in it. -/
theorem loop_textOf (here : AtLine c) (state : c.checkState = .header) (line : '\n' ∉ l)
    (visible : textOf l ≠ []) (q : List Char) :
    loop proxy .ok decideProxy (c.feed (l ++ (crlf ++ q))) =
      if kindOf (textOf l) = .forwardedBy ∧ proxy = .noProxy then
        (.bad, decideProxy, (c.consumed l).feed q)
      else
        loop proxy .ok (decideProxy && kindOf (textOf l) != .forwardedBy)
          (((c.consumed l).readHeader c.startLine (textOf l)).feed q) := by
  have text : strAt ((c.consumed l).feed q).readBuf c.startLine = textOf l := by
    have shape : ((c.consumed l).feed q).readBuf =
        c.readBuf ++ (l ++ '\x00' :: '\x00' :: q) := by
      simp [consumed, ended, feed, nuls]
    rw [here.started, shape]
    exact strAt_line _ _ _
  have begins : charAt ((c.consumed l).feed q).readBuf c.startLine ≠ '\x00' := fun nul =>
    visible (text.symm.trans (strAt_eq_nil nul))
  have headers : c.checkState ≠ .content := by
    rw [state]
    decide
  have parsed : ((c.consumed l).feed q).parseHeaders proxy c.startLine decideProxy = _ :=
    parseHeaders_of_strAt text begins
  rw [loop_line here headers line q]
  by_cases refused : kindOf (textOf l) = .forwardedBy ∧ proxy = .noProxy
  · rw [if_pos refused] at parsed ⊢
    rw [turn_header (r := (c.ended l).feed q) state parsed, if_pos rfl, afterTurn]
  · rw [if_neg refused] at parsed ⊢
    rw [turn_header (r := (c.ended l).feed q) state parsed, if_neg (by decide),
      if_neg (by decide), afterTurn, readHeader_feed]

/-- A header line. -/
theorem loop_header (here : AtLine c) (state : c.checkState = .header) (line : IsLine l)
    (nonempty : l ≠ []) (q : List Char) :
    loop proxy .ok decideProxy (c.feed (l ++ (crlf ++ q))) =
      if kindOf l = .forwardedBy ∧ proxy = .noProxy then
        (.bad, decideProxy, (c.consumed l).feed q)
      else
        loop proxy .ok (decideProxy && kindOf l != .forwardedBy)
          (((c.consumed l).readHeader c.startLine l).feed q) := by
  have visible : textOf l ≠ [] := by
    rw [line.textOf]
    exact nonempty
  rw [loop_textOf here state line.lf visible, line.textOf]

/-- The blank line. -/
theorem loop_blank (here : AtLine c) (state : c.checkState = .header) (q : List Char) :
    loop proxy .ok decideProxy (c.feed (crlf ++ q)) =
      if c.contentLength ≠ 0 then
        loop proxy .ok decideProxy ({ c.consumed [] with checkState := .content }.feed q)
      else (.request, decideProxy, (c.consumed []).feed q) := by
  have headers : c.checkState ≠ .content := by
    rw [state]
    decide
  have nul : charAt ((c.consumed []).feed q).readBuf c.startLine = '\x00' := by
    have shape : ((c.consumed []).feed q).readBuf = c.readBuf ++ (nuls ++ q) := by
      simp [consumed, ended, feed, nuls]
    rw [here.started, shape]
    exact charAt_append_length _ _ 0
  have parsed : ((c.consumed []).feed q).parseHeaders proxy c.startLine decideProxy =
      if c.contentLength ≠ 0 then
        (.noRequest, decideProxy, { (c.consumed []).feed q with checkState := .content })
      else (.getRequest, decideProxy, (c.consumed []).feed q) := by
    unfold parseHeaders
    exact if_pos nul
  have found : loop proxy .ok decideProxy (c.feed (crlf ++ q)) =
      afterTurn proxy (((c.ended []).feed q).turn proxy decideProxy) :=
    loop_line here headers (l := []) List.not_mem_nil q
  rw [found]
  by_cases body : c.contentLength ≠ 0
  · rw [if_pos body] at parsed ⊢
    rw [turn_header (r := (c.ended []).feed q) state parsed, if_neg (by decide),
      if_neg (by decide), afterTurn]
    rfl
  · rw [if_neg body] at parsed ⊢
    rw [turn_header (r := (c.ended []).feed q) state parsed, if_neg (by decide), if_pos rfl,
      afterTurn]

end headers

/-! ### The request line -/

/-- What a parser of the request line returns, with something else done to the reader. -/
def mapReader (f : Reader → Reader) (x : HttpCode × Reader × List ℕ) :
    HttpCode × Reader × List ℕ :=
  (x.1, f x.2.1, x.2.2)

/-- The reader with other values of the members that `parse_request_line` does not look at. -/
def apart (r : Reader) (checked start : ℕ) (string : Option ℕ) : Reader :=
  { r with checkedIdx := checked, startLine := start, string := string }

section requestLine

variable {proxy : ProxyType} {decideProxy : Bool} {c r : Reader} {l : List Char} {n url text : ℕ}

theorem skipScheme_feed {scheme : String} (str : IsCStr r.readBuf url) (q : List Char) :
    (r.feed q).skipScheme scheme (some url) = r.skipScheme scheme (some url) := by
  unfold skipScheme feed
  dsimp only [bind, Except.bind]
  rw [strArg_ok str, strArg_ok (str.append q)]
  dsimp only
  rw [strncasecmp_append str]
  by_cases starts : strncasecmp r.readBuf url scheme = true
  · have behind := str.add (length_of_startsWith starts)
    rw [if_pos starts, if_pos starts, strArg_ok behind, strArg_ok (behind.append q)]
    dsimp only
    rw [strchr_append behind]
  · rw [if_neg starts, if_neg starts]

/-- The pointer stays within the text it pointed to. -/
theorem skipScheme_le {scheme : String} {url' : ℕ} (reach : url ≤ n)
    (nul : r.readBuf[n]? = some '\x00')
    (skipped : r.skipScheme scheme (some url) = .ok (some url')) : url' ≤ n := by
  unfold skipScheme at skipped
  obtain ⟨url, arg, skipped⟩ := exists_of_bind skipped
  obtain ⟨-, rfl⟩ := strArg_eq_ok_iff.mp arg
  split at skipped
  · next starts =>
    obtain ⟨rest, arg, skipped⟩ := exists_of_bind skipped
    obtain ⟨-, rfl⟩ := strArg_eq_ok_iff.mp arg
    have within := add_strlen_le reach nul
    have behind : url + scheme.toList.length ≤ n :=
      Nat.le_trans (Nat.add_le_add_left (length_of_startsWith starts) url) within
    have found := (strpbrk_within (Except.ok.inj skipped)).2
    have stops := add_strlen_le behind nul
    omega
  · cases skipped
    exact reach

theorem parseUrl_feed {stores : List ℕ} (reach : url ≤ n) (nul : r.readBuf[n]? = some '\x00')
    (room : n + 10 < r.readBuf.length) (q : List Char) :
    (r.feed q).parseUrl url stores = mapReader (·.feed q) <$> r.parseUrl url stores := by
  unfold parseUrl
  rw [skipScheme_feed ⟨n, reach, nul⟩]
  cases first : r.skipScheme "http://" (some url) with
  | error fault => rfl
  | ok behindHttp =>
    cases behindHttp with
    | none => rfl
    | some url' =>
      have reach' : url' ≤ n := skipScheme_le reach nul first
      dsimp only [bind, Except.bind]
      rw [skipScheme_feed ⟨n, reach', nul⟩]
      cases second : r.skipScheme "https://" (some url') with
      | error fault => rfl
      | ok behindHttps =>
        cases behindHttps with
        | none => rfl
        | some page =>
          have here : page ≤ n := skipScheme_le reach' nul second
          have str : IsCStr r.readBuf page := ⟨n, here, nul⟩
          have within := add_strlen_le here nul
          have strFed : IsCStr (r.feed q).readBuf page := str.append q
          have first : charAt (r.feed q).readBuf page = charAt r.readBuf page :=
            charAt_append (by omega) q
          have length : strlen (r.feed q).readBuf page = strlen r.readBuf page :=
            strlen_append str q
          dsimp only
          by_cases slash : charAt r.readBuf page ≠ '/'
          · rw [if_pos slash, if_pos (by rwa [first])]
            rfl
          rw [if_neg slash, if_neg (by rwa [first]), strArg_ok str, strArg_ok strFed]
          by_cases root : strlen r.readBuf page = 1
          · have fits :
                page + strlen r.readBuf page + "judge.html".toList.length < r.readBuf.length := by
              have ten : "judge.html".toList.length = 10 := rfl
              omega
            have appended : strcat (r.feed q).readBuf page "judge.html" =
                strcat r.readBuf page "judge.html" ++ q := strcat_append str q _ fits
            have stored : strcatStores (r.feed q).readBuf page "judge.html" =
                strcatStores r.readBuf page "judge.html" := by
              unfold strcatStores
              rw [length]
            dsimp only
            rw [if_pos root, if_pos (length.trans root), appended, stored]
            rfl
          · dsimp only
            rw [if_neg root, if_neg (by rwa [length])]
            rfl

theorem parseTarget_feed {stores : List ℕ} (reach : url ≤ n)
    (nul : r.readBuf[n]? = some '\x00') (room : n + 1 < r.readBuf.length) (q : List Char) :
    (r.feed q).parseTarget url stores = mapReader (·.feed q) <$> r.parseTarget url stores := by
  have str : IsCStr r.readBuf url := ⟨n, reach, nul⟩
  have blanks : url + strspn r.readBuf url [' ', '\t'] ≤ n :=
    Nat.le_trans (Nat.add_le_add_left (strspn_le _ _ _) url) (add_strlen_le reach nul)
  have str' : IsCStr r.readBuf (url + strspn r.readBuf url [' ', '\t']) := ⟨n, blanks, nul⟩
  unfold parseTarget
  dsimp only [feed, bind, Except.bind]
  rw [strArg_ok str, strArg_ok (str.append q)]
  dsimp only
  rw [strspn_append str, strArg_ok str', strArg_ok (str'.append q)]
  dsimp only
  rw [strpbrk_append str']
  cases found : strpbrk r.readBuf (url + strspn r.readBuf url [' ', '\t']) [' ', '\t'] with
  | none => rfl
  | some space =>
    obtain ⟨behind, before⟩ := strpbrk_within found
    have stops := add_strlen_le blanks nul
    dsimp only
    rw [List.set_append_left _ _ (by omega)]
    have nul' : (r.readBuf.set space '\x00')[n]? = some '\x00' := getElem?_set_nul nul space
    have here : (r.readBuf.set space '\x00')[space]? = some '\x00' :=
      List.getElem?_set_self (by omega)
    have next : space + 1 ≤ n := by omega
    have strNext : IsCStr (r.readBuf.set space '\x00') (space + 1) := ⟨n, next, nul'⟩
    rw [strArg_ok strNext, strArg_ok (strNext.append q)]
    dsimp only
    have version : space + 1 + strspn (r.readBuf.set space '\x00') (space + 1) [' ', '\t'] ≤ n :=
      Nat.le_trans (Nat.add_le_add_left (strspn_le _ _ _) _) (add_strlen_le next nul')
    have strVersion : IsCStr (r.readBuf.set space '\x00')
        (space + 1 + strspn (r.readBuf.set space '\x00') (space + 1) [' ', '\t']) :=
      ⟨n, version, nul'⟩
    rw [strspn_append strNext, strArg_ok strVersion, strArg_ok (strVersion.append q)]
    dsimp only
    rw [strcasecmp_append strVersion]
    split_ifs with same
    · have eight := length_of_sameText same
      have ends := add_strlen_le version nul'
      have room' : space + 10 < (r.readBuf.set space '\x00').length := by
        have eight' : "HTTP/1.1".toList.length = 8 := rfl
        rw [List.length_set]
        unfold strlen at ends
        omega
      exact parseUrl_feed (r := { r with
        readBuf := r.readBuf.set space '\x00', url := _, version := _ }) behind here room' q
    · rfl

/-- What follows a line has no part in the request line. -/
theorem parseRequestLine_feed (reach : text ≤ n) (nul : r.readBuf[n]? = some '\x00')
    (room : n + 1 < r.readBuf.length) (q : List Char) :
    (r.feed q).parseRequestLine text = mapReader (·.feed q) <$> r.parseRequestLine text := by
  have str : IsCStr r.readBuf text := ⟨n, reach, nul⟩
  unfold parseRequestLine
  dsimp only [feed, bind, Except.bind]
  rw [strArg_ok str, strArg_ok (str.append q)]
  dsimp only
  rw [strpbrk_append str]
  cases found : strpbrk r.readBuf text [' ', '\t'] with
  | none => rfl
  | some space =>
    have before := (strpbrk_within found).2
    have stops := add_strlen_le reach nul
    dsimp only
    rw [List.set_append_left _ _ (by omega)]
    have nul' : (r.readBuf.set space '\x00')[n]? = some '\x00' := getElem?_set_nul nul space
    have room' : n + 1 < (r.readBuf.set space '\x00').length := by
      rw [List.length_set]
      exact room
    have next : space + 1 ≤ n := by omega
    have strMethod : IsCStr (r.readBuf.set space '\x00') text := ⟨n, reach, nul'⟩
    rw [strArg_ok strMethod, strArg_ok (strMethod.append q)]
    dsimp only
    rw [strcasecmp_append strMethod, strcasecmp_append strMethod]
    split_ifs
    · exact parseTarget_feed (r := { r with
        readBuf := r.readBuf.set space '\x00', url := _, method := _ }) next nul' room' q
    · exact parseTarget_feed (r := { r with
        readBuf := r.readBuf.set space '\x00', url := _, method := _, cgi := _ }) next nul' room' q
    · rfl

theorem parseUrl_apart {stores : List ℕ} (r : Reader) (url checked start : ℕ)
    (string : Option ℕ) : (r.apart checked start string).parseUrl url stores =
      mapReader (·.apart checked start string) <$> r.parseUrl url stores := by
  have skip : ∀ scheme pointer, (r.apart checked start string).skipScheme scheme pointer =
      r.skipScheme scheme pointer := fun _ _ => rfl
  unfold parseUrl
  simp only [skip, map_bind]
  refine bind_congr fun behindHttp => bind_congr fun behindHttps => ?_
  cases behindHttps with
  | none => rfl
  | some page =>
    dsimp only
    by_cases slash : charAt r.readBuf page ≠ '/'
    · rw [if_pos slash]
      exact if_pos slash
    · rw [if_neg slash, map_bind]
      refine (if_neg slash).trans (bind_congr fun page => ?_)
      by_cases root : strlen r.readBuf page = 1
      · rw [if_pos root]
        exact if_pos root
      · rw [if_neg root]
        exact if_neg root

theorem parseTarget_apart {stores : List ℕ} (r : Reader) (url checked start : ℕ)
    (string : Option ℕ) : (r.apart checked start string).parseTarget url stores =
      mapReader (·.apart checked start string) <$> r.parseTarget url stores := by
  unfold parseTarget
  dsimp only [apart]
  simp only [map_bind]
  refine bind_congr fun url => bind_congr fun url => ?_
  split
  · rfl
  · next space _ =>
    rw [map_bind]
    refine bind_congr fun behind => ?_
    rw [map_bind]
    refine bind_congr fun version => ?_
    split_ifs
    · exact parseUrl_apart { r with
        readBuf := r.readBuf.set space '\x00', url := _, version := _ } url checked start string
    · rfl

/-- What `parse_request_line` does not look at is left as it is. -/
theorem parseRequestLine_apart (r : Reader) (text checked start : ℕ) (string : Option ℕ) :
    (r.apart checked start string).parseRequestLine text =
      mapReader (·.apart checked start string) <$> r.parseRequestLine text := by
  unfold parseRequestLine
  dsimp only [apart]
  rw [map_bind]
  refine bind_congr fun text => ?_
  split
  · rfl
  · next space _ =>
    rw [map_bind]
    refine bind_congr fun method => ?_
    split_ifs
    · exact parseTarget_apart { r with
        readBuf := r.readBuf.set space '\x00', url := _, method := _ } _ checked start string
    · exact parseTarget_apart { r with
        readBuf := r.readBuf.set space '\x00', url := _, method := _, cgi := _ } _ checked start
        string
    · rfl

end requestLine

end Reader

/-- A reader whose line is this one. -/
def lineReader (l : List Char) : Reader :=
  ⟨l ++ nuls, 0, 0, .requestLine, .get, none, none, none, 0, false, none⟩

/-- `parse_request_line` accepts a line. -/
def accepts (l : List Char) : Bool :=
  ((lineReader l).parseRequestLine 0).map Prod.fst = .ok .noRequest

namespace Reader

/-- The reader once the request line has been parsed. -/
def afterRequestLine (c : Reader) (l : List Char) : Reader :=
  match (c.init.consumed l).parseRequestLine 0 with
  | .ok (_, r, _) => r
  | .error _ => c.init.consumed l

section requestLine

variable {proxy : ProxyType} {decideProxy : Bool} {c : Reader} {l : List Char}

/-- Whether a line is accepted depends on its text only. -/
theorem parsed_of_accepts (accepted : accepts l = true) :
    ∃ stores, (c.init.consumed l).parseRequestLine 0 =
      .ok (.noRequest, c.afterRequestLine l, stores) := by
  have same : c.init.consumed l = (lineReader l).apart (c.init.consumed l).checkedIdx
      (c.init.consumed l).startLine c.string := rfl
  have parsed := parseRequestLine_apart (lineReader l) 0 (c.init.consumed l).checkedIdx
    (c.init.consumed l).startLine c.string
  rw [← same] at parsed
  have code := of_decide_eq_true accepted
  cases result : (lineReader l).parseRequestLine 0 with
  | error fault =>
    rw [result] at code
    cases code
  | ok x =>
    obtain ⟨ret, r, stores⟩ := x
    rw [result] at code parsed
    obtain rfl : ret = .noRequest := Except.ok.inj code
    have whole : (c.init.consumed l).parseRequestLine 0 = .ok (.noRequest,
      r.apart (c.init.consumed l).checkedIdx (c.init.consumed l).startLine c.string, stores) :=
      parsed
    refine ⟨stores, ?_⟩
    rw [afterRequestLine, whole]

theorem consumed_init (c : Reader) (l : List Char) :
    (c.init.consumed l).checkedIdx = l.length + 2 := by
  show 0 + l.length + 2 = l.length + 2
  rw [Nat.zero_add]

theorem afterRequestLine_header (accepted : accepts l = true) :
    AtLine (c.afterRequestLine l) ∧ (c.afterRequestLine l).checkState = .header ∧
      (c.afterRequestLine l).contentLength = 0 ∧
      (c.afterRequestLine l).readBuf.length = l.length + 2 := by
  obtain ⟨stores, parsed⟩ := parsed_of_accepts (c := c) accepted
  obtain ⟨same, length, result⟩ := lineParsed_parseRequestLine parsed
  have state : (c.afterRequestLine l).checkState = .header := by
    rcases result with ⟨refused, -⟩ | ⟨-, state, -⟩
    · cases refused
    · exact state
  refine ⟨(atLine_consumed c.init l).of_samePlace same, state, length, ?_⟩
  rw [same.readIdx, ← (atLine_consumed c.init l).checked, consumed_init]

/-- The request line. -/
theorem loop_requestLine (line : '\n' ∉ l) (accepted : accepts l = true) (q : List Char) :
    loop proxy .ok decideProxy (c.init.feed (l ++ (crlf ++ q))) =
      loop proxy .ok decideProxy ((c.afterRequestLine l).feed q) := by
  have here : AtLine c.init := ⟨rfl, rfl⟩
  have text : (c.init.consumed l).readBuf = l ++ nuls := rfl
  have terminated : (c.init.consumed l).readBuf[l.length]? = some '\x00' := by
    rw [text, List.getElem?_append_right (Nat.le_refl _), Nat.sub_self]
    rfl
  have room : l.length + 1 < (c.init.consumed l).readBuf.length := by
    rw [← (atLine_consumed c.init l).checked, consumed_init]
    exact Nat.lt_succ_self _
  obtain ⟨stores, parsed⟩ := parsed_of_accepts (c := c) accepted
  have fed := parseRequestLine_feed (Nat.zero_le _) terminated room q
  rw [parsed] at fed
  have passed : ((c.init.consumed l).feed q).parseRequestLine 0 =
      .ok (.noRequest, (c.afterRequestLine l).feed q, stores) := fed
  rw [loop_line here nofun line q, turn_requestLine (r := (c.init.ended l).feed q) rfl passed,
    if_neg nofun, afterTurn]

end requestLine

/-! ### The body -/

/-- A reader before a body of `n` bytes, of which `u` have been read. -/
structure InBody (c : Reader) (m u : List Char) (n : ℕ) : Prop where
  fits : m.length + 2 + n ≤ readBufferSize
  readBuf : c.readBuf = m ++ (nuls ++ u)
  checkedIdx : c.checkedIdx = m.length + 2
  startLine : c.startLine = m.length + 2
  checkState : c.checkState = .content
  contentLength : c.contentLength = n

/-- A reader that has gone past the beginning of a body that ends at `total`. -/
structure Lost (total : ℕ) (r : Reader) : Prop where
  small : r.contentLength + total < 2 ^ 63
  checkState : r.checkState = .content
  checked : r.checkedIdx ≤ r.readBuf.length
  inside : r.readBuf.length ≤ total
  beyond : (total : ℤ) < r.contentLength + r.checkedIdx

/-- `parse_line` stays before these bytes of a body. -/
def Stays (u : List Char) : Prop := u = [] ∨ u = ['\r'] ∨ u.head? = some '\n'

instance (u : List Char) : Decidable (Stays u) := inferInstanceAs (Decidable (_ ∨ _ ∨ _))

section body

variable {proxy : ProxyType} {status : LineStatus} {decideProxy : Bool} {c r : Reader}
  {m u q : List Char} {n total : ℕ}

theorem InBody.feed (inBody : InBody c m u n) (q : List Char) : InBody (c.feed q) m (u ++ q) n := by
  obtain ⟨fits, text, checked, start, state, length⟩ := inBody
  refine ⟨fits, ?_, checked, start, state, length⟩
  unfold Reader.feed
  dsimp only
  rw [text, List.append_assoc, List.append_assoc]

theorem InBody.length (inBody : InBody c m u n) :
    c.readBuf.length = m.length + 2 + u.length := by
  rw [inBody.readBuf, List.length_append, List.length_append, Nat.add_assoc]
  rfl

/-- The sum that `parse_content` computes exists. -/
theorem InBody.sum_lt (inBody : InBody c m u n) : c.contentLength + c.checkedIdx < 2 ^ 63 := by
  have fits := inBody.fits
  unfold readBufferSize at fits
  rw [inBody.contentLength, inBody.checkedIdx]
  omega

theorem not_body_of_open : ¬(r.checkState = .content ∧ LineStatus.open = .ok) := fun body =>
  nomatch body.2

/-- The body is there, and its length is not negative. -/
theorem turn_whole (state : r.checkState = .content) (positive : 0 ≤ r.contentLength)
    (small : r.contentLength + r.checkedIdx < 2 ^ 63)
    (complete : r.contentLength + r.checkedIdx ≤ r.readIdx) :
    r.turn proxy decideProxy = .ends .request decideProxy { r with
      startLine := r.checkedIdx
      readBuf := storeNul r.readBuf (r.startLine + r.contentLength)
      string := some r.startLine } := by
  have long : IsLong (r.contentLength + r.checkedIdx) := ⟨by omega, small⟩
  have behind : 0 ≤ (r.startLine : ℤ) + r.contentLength := by omega
  rw [turn_content state, if_pos long, if_pos complete, if_pos behind]

/-- Part of the body is missing. -/
theorem turn_part (state : r.checkState = .content)
    (small : r.contentLength + r.checkedIdx < 2 ^ 63)
    (part : (r.readIdx : ℤ) < r.contentLength + r.checkedIdx) :
    r.turn proxy decideProxy = .goesOn .open decideProxy { r with startLine := r.checkedIdx } := by
  have long : IsLong (r.contentLength + r.checkedIdx) := ⟨by omega, small⟩
  rw [turn_content state, if_pos long, if_neg (not_le.mpr part)]

variable (proxy) in
/-- `do_request` is called once the body is there. -/
theorem loop_complete (state : r.checkState = .content) (positive : 0 ≤ r.contentLength)
    (small : r.contentLength + r.checkedIdx < 2 ^ 63)
    (complete : r.contentLength + r.checkedIdx ≤ r.readIdx) :
    ∃ c', ∀ decideProxy, loop proxy .ok decideProxy r = (.request, decideProxy, c') := by
  refine ⟨{ r with
    startLine := r.checkedIdx
    readBuf := storeNul r.readBuf (r.startLine + r.contentLength)
    string := some r.startLine }, fun decideProxy => ?_⟩
  rw [loop_body state, turn_whole state positive small complete, afterTurn]

variable (proxy) in
/-- A body that has been read completely. -/
theorem loop_wholeBody (inBody : InBody c m u n) (whole : n ≤ u.length) :
    ∃ c', ∀ decideProxy, loop proxy .ok decideProxy c = (.request, decideProxy, c') := by
  refine loop_complete proxy inBody.checkState ?_ inBody.sum_lt ?_
  · rw [inBody.contentLength]
    exact Int.natCast_nonneg n
  · rw [inBody.contentLength, inBody.checkedIdx, readIdx, inBody.length]
    omega

/-- The rest of a body is looked for between the lines. -/
theorem loop_partOfBody (inBody : InBody c m u n) (part : u.length < n) :
    loop proxy .ok decideProxy c = loop proxy .open decideProxy c := by
  have incomplete : (c.readIdx : ℤ) < c.contentLength + c.checkedIdx := by
    rw [inBody.contentLength, inBody.checkedIdx, readIdx, inBody.length]
    omega
  have same : { c with startLine := c.checkedIdx } = c :=
    congrArg (fun start => { c with startLine := start })
      (inBody.checkedIdx.trans inBody.startLine.symm)
  rw [loop_body inBody.checkState, turn_part inBody.checkState inBody.sum_lt incomplete,
    afterTurn, same]

/-- The first byte of the body, where `parse_line` starts. -/
theorem InBody.charAt (inBody : InBody c m u n) (k : ℕ) :
    CString.charAt c.readBuf (c.checkedIdx + k) = CString.charAt u k := by
  have front : (m ++ nuls).length = m.length + 2 := List.length_append
  rw [inBody.readBuf, inBody.checkedIdx, ← List.append_assoc, ← front, charAt_append_length]

/-- Where `parse_line` stays before the body, the next call finds it there. -/
theorem loop_stays (inBody : InBody c m u n) (part : u.length < n) (stays : Stays u) :
    loop proxy .ok decideProxy c = (.left, decideProxy, c) := by
  have remaining : c.readIdx - c.checkedIdx = u.length := by
    rw [readIdx, inBody.length, inBody.checkedIdx, Nat.add_sub_cancel_left]
  have stuck : ∃ status, status ≠ .ok ∧ c.parseLine = (status, c) := by
    unfold parseLine
    rw [remaining]
    rcases stays with rfl | rfl | lf
    · exact ⟨.open, nofun, rfl⟩
    · refine ⟨.open, nofun, ?_⟩
      have cr : CString.charAt c.readBuf c.checkedIdx = '\r' := inBody.charAt 0
      have last : c.checkedIdx + 1 = c.readBuf.length := by
        rw [inBody.checkedIdx, inBody.length]
        rfl
      rw [List.length_singleton, scan_last cr last]
    · refine ⟨.bad, nofun, ?_⟩
      obtain ⟨rest, rfl⟩ : ∃ rest, u = '\n' :: rest := List.head?_eq_some_iff.mp lf
      have here : CString.charAt c.readBuf c.checkedIdx = '\n' := inBody.charAt 0
      have before : CString.charAt c.readBuf (c.checkedIdx - 1) = '\x00' := by
        have place : c.checkedIdx - 1 = m.length + 1 := by
          rw [inBody.checkedIdx]
          rfl
        rw [inBody.readBuf, place, charAt_append_length]
        rfl
      rw [List.length_cons, scan_lf here (by rw [before]; decide)]
  obtain ⟨status, notOk, found⟩ := stuck
  rw [loop_partOfBody inBody part]
  exact loop_of_stuck not_body_of_open notOk found

/-- Looking for a line moves on. -/
theorem parseLine_keeps (r : Reader) :
    r.parseLine.2.readBuf.length = r.readBuf.length ∧
      r.parseLine.2.checkState = r.checkState ∧
      r.parseLine.2.contentLength = r.contentLength ∧
      r.checkedIdx ≤ r.parseLine.2.checkedIdx :=
  ⟨length_scan _ _ _, rfl, rfl, le_scan _ _ _⟩

/-- Nor beyond the bytes read. -/
theorem parseLine_inside (inside : r.checkedIdx ≤ r.readBuf.length) :
    r.parseLine.2.checkedIdx ≤ r.parseLine.2.readBuf.length := by
  have ends :
      (scan r.readBuf (r.readBuf.length - r.checkedIdx) r.checkedIdx).2.2 ≤ r.readBuf.length :=
    scan_le (Nat.add_sub_cancel' inside)
  exact ends.trans_eq (parseLine_keeps r).1.symm

/-- To a reader that is lost, part of the body is missing. -/
theorem Lost.turn (lost : Lost total r) :
    r.turn proxy decideProxy = .goesOn .open decideProxy { r with startLine := r.checkedIdx } := by
  have small := lost.small
  have checked := lost.checked
  have inside := lost.inside
  have beyond := lost.beyond
  apply turn_part lost.checkState
  · omega
  · unfold readIdx
    omega

/-- The next line begins where the last one has ended. -/
theorem Lost.moved (lost : Lost total r) : Lost total { r with startLine := r.checkedIdx } :=
  ⟨lost.small, lost.checkState, lost.checked, lost.inside, lost.beyond⟩

/-- A reader whose `parse_line` gets lost. -/
theorem loop_lost_of_parseLine {next : Reader} (found : r.parseLine = (status, next))
    (lost : Lost total next)
    (later : status = .ok → ∃ r', Lost total r' ∧ r'.readBuf.length = next.readBuf.length ∧
      ∀ decideProxy, loop proxy .open decideProxy { next with startLine := next.checkedIdx } =
        (.left, decideProxy, r')) :
    ∃ r', Lost total r' ∧ r'.readBuf.length = next.readBuf.length ∧
      ∀ decideProxy, loop proxy .open decideProxy r = (.left, decideProxy, r') := by
  by_cases ok : status = .ok
  · obtain ⟨r', lost', same, left⟩ := later ok
    refine ⟨r', lost', same, fun decideProxy => ?_⟩
    rw [loop_of_ok not_body_of_open (ok ▸ found), lost.turn, afterTurn, left]
  · exact ⟨next, lost, rfl, fun decideProxy => loop_of_stuck not_body_of_open ok found⟩

/-- A reader that is lost stays so. -/
theorem loop_lost_open (lost : Lost total r) :
    ∃ r', Lost total r' ∧ r'.readBuf.length = r.readBuf.length ∧
      ∀ decideProxy, loop proxy .open decideProxy r = (.left, decideProxy, r') := by
  induction k : r.readBuf.length - r.checkedIdx using Nat.strong_induction_on generalizing r with
  | _ k ih =>
    subst k
    obtain ⟨length, state, declares, moves⟩ := parseLine_keeps r
    have lost' : Lost total r.parseLine.2 := by
      refine ⟨?_, state.trans lost.checkState, parseLine_inside lost.checked,
        length ▸ lost.inside, ?_⟩
      · rw [declares]
        exact lost.small
      · have beyond := lost.beyond
        rw [declares]
        omega
    have search : r.parseLine = (r.parseLine.1, r.parseLine.2) := rfl
    rw [← length]
    apply loop_lost_of_parseLine search lost'
    intro ok
    have found : r.parseLine = (.ok, r.parseLine.2) := Prod.ext ok rfl
    obtain ⟨-, -, further, inside⟩ := parseLine_ok found
    have closer : r.parseLine.2.readBuf.length - r.parseLine.2.checkedIdx <
        r.readBuf.length - r.checkedIdx := by
      omega
    exact ih _ closer lost'.moved rfl

variable (proxy) in
/-- Calls of `process_read` on a reader that is lost. -/
theorem loop_lost (lost : Lost total r) :
    ∃ r', Lost total r' ∧ r'.readBuf.length = r.readBuf.length ∧
      ∀ decideProxy, loop proxy .ok decideProxy r = (.left, decideProxy, r') := by
  obtain ⟨r', lost', same, left⟩ := loop_lost_open lost.moved
  refine ⟨r', lost', same, fun decideProxy => ?_⟩
  rw [loop_body lost.checkState, lost.turn, afterTurn, left]

variable (proxy) in
/-- A reader that has moved into the body is lost. -/
theorem loop_strays (inBody : InBody c m u n) (part : u.length < n) (strays : ¬Stays u) :
    ∃ c', Lost (m.length + 2 + n) c' ∧ c'.readBuf.length = c.readBuf.length ∧
      ∀ decideProxy, loop proxy .ok decideProxy c = (.left, decideProxy, c') := by
  obtain ⟨length, state, declares, -⟩ := parseLine_keeps c
  have moved : c.checkedIdx < c.parseLine.2.checkedIdx := by
    cases u with
    | nil => exact absurd (Or.inl rfl) strays
    | cons x u =>
      have remaining : c.readIdx - c.checkedIdx = u.length + 1 := by
        rw [readIdx, inBody.length, inBody.checkedIdx, Nat.add_sub_cancel_left, List.length_cons]
      have here : CString.charAt c.readBuf c.checkedIdx = x := inBody.charAt 0
      unfold parseLine
      rw [remaining]
      apply lt_scan
      · rw [here]
        rintro rfl
        exact strays (Or.inr (Or.inr rfl))
      · rw [here, inBody.checkedIdx, inBody.length]
        rintro rfl last
        have single : u = [] := List.length_eq_zero_iff.mp (by
          rw [List.length_cons] at last
          omega)
        exact strays (Or.inr (Or.inl (by rw [single])))
  have lost : Lost (m.length + 2 + n) c.parseLine.2 := by
    have fits := inBody.fits
    have start := inBody.checkedIdx
    have read := inBody.length
    unfold readBufferSize at fits
    refine ⟨?_, state.trans inBody.checkState, parseLine_inside (by omega), by omega, ?_⟩
    · rw [declares, inBody.contentLength]
      omega
    · rw [declares, inBody.contentLength]
      omega
  have search : c.parseLine = (c.parseLine.1, c.parseLine.2) := rfl
  obtain ⟨c', lost', same, left⟩ :=
    loop_lost_of_parseLine search lost fun _ => loop_lost_open lost.moved
  refine ⟨c', lost', same.trans length, fun decideProxy => ?_⟩
  rw [loop_partOfBody inBody part, left]

end body

end Reader

end CoroutineService.Http
