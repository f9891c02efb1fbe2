import CoroutineService.Http.Lines

/-!
# Splitting the input into lines

`parse_line` is called until it finds no line, and again when more bytes have come. It
leaves `m_checked_idx` where the next call is to go on: behind a line, at a carriage
return that is the last byte, or at a line feed that ends no line. So it does not matter
how the bytes were cut into pieces.

## Main definitions

* `Reader.splitLines`: the calls of `parse_line` until one of them finds no line
* `Reader.splitPieces`: the same after each of several pieces
* `lineEnds`, `firstBad`: where the calls found lines, and a line feed that ends none
* `Separates`: the lines of a text, each with its one line feed at its end
* `overwritten`: the text with NULs over the ends of its lines

## Main results

* `scan_found`: what `parse_line` has found
* `Reader.splitLines_feed`: calls before the last bytes came do no harm
* `splitPieces_eq`: pieces are split as the whole is
-/

set_option autoImplicit false

namespace CoroutineService.Http

open CString

namespace Reader

/-! ### What a search finds -/

section scan

variable {buf : List Char} {remaining i : ℕ}

/-- A search that finds a line has met its first line feed, and a carriage return before it. -/
theorem scan_found (here : i + remaining = buf.length) (found : (scan buf remaining i).1 = .ok) :
    ∃ k, i ≤ k + 1 ∧ k + 1 < buf.length ∧
      scan buf remaining i = (.ok, (buf.set k '\x00').set (k + 1) '\x00', k + 2) ∧
      charAt buf k = '\r' ∧ charAt buf (k + 1) = '\n' ∧
      ∀ j, i ≤ j → j ≤ k → charAt buf j ≠ '\n' := by
  induction remaining generalizing i with
  | zero => cases found
  | succ remaining ih =>
    have onward : i + 1 + remaining = buf.length := by omega
    -- the byte at `i` is passed, and the line is found behind it
    have later (lf : charAt buf i ≠ '\n') (found : (scan buf remaining (i + 1)).1 = .ok) :
        ∃ k, i ≤ k + 1 ∧ k + 1 < buf.length ∧
          scan buf remaining (i + 1) = (.ok, (buf.set k '\x00').set (k + 1) '\x00', k + 2) ∧
          charAt buf k = '\r' ∧ charAt buf (k + 1) = '\n' ∧
          ∀ j, i ≤ j → j ≤ k → charAt buf j ≠ '\n' := by
      obtain ⟨k, reach, inside, result, cr, lf', none⟩ := ih onward found
      refine ⟨k, Nat.le_of_succ_le reach, inside, result, cr, lf', fun j low high => ?_⟩
      rcases Nat.eq_or_lt_of_le low with rfl | behind
      · exact lf
      · exact none j behind high
    unfold scan at found ⊢
    split_ifs at found ⊢ with cr last lf lf before
    · have lf' : charAt buf i ≠ '\n' := by rw [cr]; decide
      refine ⟨i, i.le_succ, by omega, rfl, cr, lf, fun j low high => ?_⟩
      rwa [Nat.le_antisymm high low]
    · exact later (by rw [cr]; decide) found
    · obtain ⟨some, cr'⟩ := before
      have split : i - 1 + 1 = i := by omega
      refine ⟨i - 1, by omega, by omega, ?_, cr', by rwa [split], fun j low high => by omega⟩
      rw [split]
      have two : i - 1 + 2 = i + 1 := by omega
      rw [two]
    · exact later lf found

/-- A carriage return and a line feed are found if no line feed comes before them. -/
theorem scan_reaches {k : ℕ} (reach : i ≤ k) (inside : k + 1 < buf.length)
    (enough : k < i + remaining) (cr : charAt buf k = '\r') (lf : charAt buf (k + 1) = '\n')
    (none : ∀ j, i ≤ j → j ≤ k → charAt buf j ≠ '\n') :
    scan buf remaining i = (.ok, (buf.set k '\x00').set (k + 1) '\x00', k + 2) := by
  obtain ⟨n, rfl⟩ := Nat.exists_eq_add_of_le reach
  induction n generalizing i remaining with
  | zero =>
    cases remaining with
    | zero => omega
    | succ remaining =>
      simp only [Nat.add_zero] at cr lf inside ⊢
      rw [scan, if_pos cr, if_neg (by omega), if_pos lf]
  | succ n ih =>
    cases remaining with
    | zero => omega
    | succ remaining =>
      have passes : Passes buf i := by
        refine ⟨none i le_rfl reach, fun _ => ⟨by omega, ?_⟩⟩
        exact none (i + 1) i.le_succ (by omega)
      have split : i + (n + 1) = i + 1 + n := by omega
      rw [split] at inside enough cr lf none ⊢
      rw [scan_passes passes]
      refine ih (by omega) inside (by omega) cr lf fun j low high => ?_
      exact none j (Nat.le_of_succ_le low) high

/-- Bytes behind a line have no part in it. -/
theorem scan_append_ok (here : i + remaining = buf.length)
    (found : (scan buf remaining i).1 = .ok) (q : List Char) :
    scan (buf ++ q) (remaining + q.length) i =
      (.ok, (scan buf remaining i).2.1 ++ q, (scan buf remaining i).2.2) := by
  obtain ⟨k, reach, inside, result, cr, lf, none⟩ := scan_found here found
  have longer : k + 1 < (buf ++ q).length := by
    rw [List.length_append]
    omega
  have nuls : ((buf ++ q).set k '\x00').set (k + 1) '\x00' =
      (buf.set k '\x00').set (k + 1) '\x00' ++ q := by
    rw [List.set_append_left _ _ (by omega), List.set_append_left _ _ (by simpa using inside)]
  rw [← charAt_append (by omega) q] at cr lf
  by_cases before : i ≤ k
  · rw [result, ← nuls]
    refine scan_reaches before longer (by omega) cr lf fun j low high => ?_
    rw [charAt_append (by omega)]
    exact none j low high
  · -- the carriage return is the byte before the place where the search begins
    obtain rfl : i = k + 1 := by omega
    cases remaining with
    | zero => cases found
    | succ remaining =>
      have lf' : charAt buf (k + 1) = '\n' := by rwa [charAt_append inside] at lf
      have some : k + 1 > 1 := by
        by_contra first
        rw [scan, if_neg (by rw [lf']; decide), if_pos lf', if_neg fun both => first both.1]
          at found
        cases found
      rw [result, ← nuls, Nat.add_right_comm, scan, if_neg (by rw [lf]; decide), if_pos lf,
        if_pos ⟨some, cr⟩]
      rfl

/-- Where a search goes wrong there is a line feed. -/
theorem lf_of_bad (stops : scan buf (remaining + 1) i = (.bad, buf, i)) :
    charAt buf i = '\n' ∧ ¬(i > 1 ∧ charAt buf (i - 1) = '\r') := by
  have onward : scan buf remaining (i + 1) ≠ (.bad, buf, i) := by
    intro same
    have further := le_scan buf remaining (i + 1)
    rw [same] at further
    exact Nat.not_succ_le_self i further
  unfold scan at stops
  split_ifs at stops
  · cases stops
  · cases stops
  · exact absurd stops onward
  · cases stops
  · next lf before => exact ⟨lf, before⟩
  · exact absurd stops onward

/-- A line feed that ends no line is still there when more bytes have come. -/
theorem scan_append_bad (here : i + remaining = buf.length)
    (found : (scan buf remaining i).1 = .bad) (q : List Char) :
    scan (buf ++ q) (remaining + q.length) i = (.bad, buf ++ q, (scan buf remaining i).2.2) := by
  induction remaining generalizing i with
  | zero => cases found
  | succ remaining ih =>
    have onward : i + 1 + remaining = buf.length := by omega
    have inside : i < buf.length := by omega
    rw [Nat.add_right_comm]
    rcases passes_of_stuck (by rw [found]; decide) with stops | stops | passes
    · rw [stops] at found
      cases found
    · obtain ⟨lf, before⟩ := lf_of_bad stops
      rw [stops, scan]
      rw [charAt_append inside, charAt_append (p := i - 1) (by omega),
        if_neg (by rw [lf]; decide), if_pos lf, if_neg before]
    · rw [scan_passes passes] at found ⊢
      rw [scan_passes (passes_append passes inside q)]
      exact ih onward found

end scan

/-! ### Calls of `parse_line` -/

section calls

variable {r r' : Reader} {status : LineStatus}

theorem feed_nil (r : Reader) : r.feed [] = r := by
  unfold feed
  rw [List.append_nil]

theorem parseLine_of_scan {buf : List Char} {i : ℕ}
    (found : scan r.readBuf (r.readBuf.length - r.checkedIdx) r.checkedIdx = (status, buf, i)) :
    r.parseLine = (status, { r with readBuf := buf, checkedIdx := i }) := by
  unfold parseLine readIdx
  rw [found]

/-- A call is a search in the bytes from `m_checked_idx` on. -/
theorem exists_scan (found : r.parseLine = (status, r')) :
    ∃ buf i, scan r.readBuf (r.readBuf.length - r.checkedIdx) r.checkedIdx = (status, buf, i) ∧
      r' = { r with readBuf := buf, checkedIdx := i } := by
  rcases search : scan r.readBuf (r.readBuf.length - r.checkedIdx) r.checkedIdx
    with ⟨status', buf, i⟩
  obtain ⟨rfl, rfl⟩ := Prod.mk.inj ((parseLine_of_scan search).symm.trans found)
  exact ⟨buf, i, rfl, rfl⟩

/-- With more bytes there is so much more to be searched. -/
theorem remaining_feed (inside : r.checkedIdx ≤ r.readBuf.length) (q : List Char) :
    (r.feed q).readBuf.length - (r.feed q).checkedIdx =
      r.readBuf.length - r.checkedIdx + q.length := by
  unfold feed
  dsimp only
  rw [List.length_append]
  omega

/-- A line is found in the same way when more bytes are there. -/
theorem parseLine_feed_ok (inside : r.checkedIdx ≤ r.readBuf.length)
    (found : r.parseLine = (.ok, r')) (q : List Char) :
    (r.feed q).parseLine = (.ok, r'.feed q) := by
  have status : (scan r.readBuf (r.readBuf.length - r.checkedIdx) r.checkedIdx).1 = .ok :=
    congrArg Prod.fst found
  obtain rfl : r.parseLine.2 = r' := congrArg Prod.snd found
  refine parseLine_of_scan ?_
  rw [remaining_feed inside]
  exact scan_append_ok (Nat.add_sub_cancel' inside) status q

/-- A call that finds no line may be left out when more bytes come. -/
theorem parseLine_stuck (inside : r.checkedIdx ≤ r.readBuf.length) (stuck : status ≠ .ok)
    (found : r.parseLine = (status, r')) (q : List Char) :
    (r.feed q).parseLine = (r'.feed q).parseLine := by
  obtain ⟨buf, i, search, rfl⟩ := exists_scan found
  obtain ⟨same, again⟩ := scan_append (Nat.add_sub_cancel' inside) (by rwa [search]) q
  rw [search] at same again
  obtain rfl : buf = r.readBuf := same
  unfold parseLine readIdx
  rw [remaining_feed inside]
  unfold feed
  dsimp only at again ⊢
  rw [again]

/-- A line feed that ends no line stops every later call. -/
theorem parseLine_feed_bad (inside : r.checkedIdx ≤ r.readBuf.length)
    (found : r.parseLine = (.bad, r')) (q : List Char) :
    (r.feed q).parseLine = (.bad, r'.feed q) := by
  obtain ⟨buf, i, search, rfl⟩ := exists_scan found
  have here : r.checkedIdx + (r.readBuf.length - r.checkedIdx) = r.readBuf.length :=
    Nat.add_sub_cancel' inside
  have same := (scan_append here (by rw [search]; exact nofun) q).1
  have longer := scan_append_bad here (by rw [search]) q
  rw [search] at same longer
  obtain rfl : buf = r.readBuf := same
  refine parseLine_of_scan ?_
  rw [remaining_feed inside]
  exact longer

end calls

/-! ### Splitting -/

/-- `parse_line` is called until it returns something else than `LINE_OK`: what the calls
return, with `m_checked_idx` behind each of them. -/
def splitLines (r : Reader) : List (LineStatus × ℕ) × Reader :=
  match _line : r.parseLine with
  | (.ok, r') => ((.ok, r'.checkedIdx) :: (splitLines r').1, (splitLines r').2)
  | (.bad, r') => ([(.bad, r'.checkedIdx)], r')
  | (.open, r') => ([(.open, r'.checkedIdx)], r')
termination_by r.readBuf.length - r.checkedIdx
decreasing_by
  all_goals
    obtain ⟨same, -, further, inside⟩ := parseLine_ok _line
    omega

/-- The same after each of the pieces in which bytes come. -/
def splitPieces (r : Reader) : List (List Char) → List (LineStatus × ℕ) × Reader
  | [] => ([], r)
  | p :: ps =>
    let (calls, r) := (r.feed p).splitLines
    let (calls', r) := r.splitPieces ps
    (calls ++ calls', r)

end Reader

/-- Where the calls found the ends of lines. -/
def lineEnds (calls : List (LineStatus × ℕ)) : List ℕ :=
  (calls.filter fun call => call.1 = .ok).map Prod.snd

/-- The first place at which a call returned `LINE_BAD`. -/
def firstBad (calls : List (LineStatus × ℕ)) : Option ℕ :=
  (calls.find? fun call => call.1 = .bad).map Prod.snd

/-- From `start` on, the text has lines that end at these places: each has one line feed,
which is its last byte, and a carriage return before it. -/
def Separates (text : List Char) : ℕ → List ℕ → Prop
  | _, [] => True
  | start, e :: es =>
    (∃ l rest, '\n' ∉ l ∧ text.drop start = l ++ (crlf ++ rest) ∧ e = start + l.length + 2) ∧
      Separates text e es

/-- The text with NULs over the last two bytes of its lines. -/
def overwritten (text : List Char) (ends : List ℕ) : List Char :=
  ends.foldl (fun buf e => (buf.set (e - 2) '\x00').set (e - 1) '\x00') text

namespace Reader

section splitting

variable {r r' : Reader} {status : LineStatus} {q : List Char} {ps : List (List Char)}

theorem splitLines_ok (found : r.parseLine = (.ok, r')) :
    r.splitLines = ((.ok, r'.checkedIdx) :: r'.splitLines.1, r'.splitLines.2) := by
  rw [splitLines]
  split
  · next found' =>
    cases found.symm.trans found'
    rfl
  · next found' => cases found.symm.trans found'
  · next found' => cases found.symm.trans found'

theorem splitLines_stuck (stuck : status ≠ .ok) (found : r.parseLine = (status, r')) :
    r.splitLines = ([(status, r'.checkedIdx)], r') := by
  rw [splitLines]
  split
  · next found' =>
    cases found.symm.trans found'
    exact absurd rfl stuck
  · next found' => cases found.symm.trans found'; rfl
  · next found' => cases found.symm.trans found'; rfl

/-- To split is to find a line and to go on, or to be stuck. -/
@[elab_as_elim]
theorem splitLines_induction {motive : Reader → Prop}
    (ok : ∀ r r' : Reader, r.parseLine = (.ok, r') → motive r' → motive r)
    (stuck : ∀ (r r' : Reader) (status : LineStatus), status ≠ .ok →
      r.parseLine = (status, r') → motive r) (r : Reader) : motive r := by
  induction r using splitLines.induct with
  | case1 r r' found ih => exact ok r r' found ih
  | case2 r r' found => exact stuck r r' .bad nofun found
  | case3 r r' found => exact stuck r r' .open nofun found

/-- Only the next call matters. -/
theorem splitLines_congr (same : r.parseLine = r'.parseLine) : r.splitLines = r'.splitLines := by
  rcases found : r'.parseLine with ⟨status, next⟩
  by_cases ok : status = .ok
  · subst ok
    rw [splitLines_ok (same.trans found), splitLines_ok found]
  · rw [splitLines_stuck ok (same.trans found), splitLines_stuck ok found]

/-- A reader that has been split, and where the last call has left it. -/
structure Stopped (r : Reader) (status : LineStatus) : Prop where
  stuck : status ≠ .ok
  inside : r.checkedIdx ≤ r.readBuf.length
  again : r.parseLine = (status, r)

theorem stopped_of_stuck (inside : r.checkedIdx ≤ r.readBuf.length) (stuck : status ≠ .ok)
    (found : r.parseLine = (status, r')) : Stopped r' status := by
  have within := parseLine_inside inside
  rw [found] at within
  refine ⟨stuck, within, ?_⟩
  have same := parseLine_stuck inside stuck found []
  rw [feed_nil, feed_nil] at same
  rw [← same, found]

/-- What the calls before the last one have found is found in the same way with more bytes,
and the calls go on behind it. -/
theorem splitLines_feed (inside : r.checkedIdx ≤ r.readBuf.length) (q : List Char) :
    (r.feed q).splitLines =
      (r.splitLines.1.filter (fun call => call.1 = .ok) ++ (r.splitLines.2.feed q).splitLines.1,
        (r.splitLines.2.feed q).splitLines.2) := by
  induction r using splitLines_induction with
  | ok r r' found ih =>
    have within := parseLine_inside inside
    rw [found] at within
    rw [splitLines_ok (parseLine_feed_ok inside found q), splitLines_ok found, ih within]
    rfl
  | stuck r r' status stuck found =>
    have none : [(status, r'.checkedIdx)].filter (fun call => call.1 = .ok) = [] := by simp [stuck]
    rw [splitLines_congr (parseLine_stuck inside stuck found q), splitLines_stuck stuck found, none]
    rfl

/-- The last call returned something else than `LINE_OK`, and so would the next one. -/
theorem stopped_splitLines (inside : r.checkedIdx ≤ r.readBuf.length) :
    ∃ status, Stopped r.splitLines.2 status ∧
      firstBad r.splitLines.1 = if status = .bad then some r.splitLines.2.checkedIdx else none := by
  induction r using splitLines_induction with
  | ok r r' found ih =>
    have within := parseLine_inside inside
    rw [found] at within
    rw [splitLines_ok found]
    exact ih within
  | stuck r r' status stuck found =>
    rw [splitLines_stuck stuck found]
    refine ⟨status, stopped_of_stuck inside stuck found, ?_⟩
    by_cases bad : status = .bad <;> simp [firstBad, bad]

theorem lineEnds_append (calls calls' : List (LineStatus × ℕ)) :
    lineEnds (calls ++ calls') = lineEnds calls ++ lineEnds calls' := by
  simp [lineEnds]

theorem firstBad_append (calls calls' : List (LineStatus × ℕ)) :
    firstBad (calls ++ calls') = (firstBad calls).or (firstBad calls') := by
  unfold firstBad
  rw [List.find?_append]
  cases calls.find? fun call => call.1 = .bad <;> rfl

/-- The calls that found lines are enough to know where the lines end, and none of them
went wrong. -/
theorem lineEnds_filter (calls : List (LineStatus × ℕ)) :
    lineEnds (calls.filter fun call => call.1 = .ok) = lineEnds calls ∧
      firstBad (calls.filter fun call => call.1 = .ok) = none := by
  constructor
  · unfold lineEnds
    rw [List.filter_filter]
    simp
  · simp only [firstBad, Option.map_eq_none_iff, List.find?_eq_none, List.mem_filter,
      decide_eq_true_eq]
    rintro call ⟨-, ok⟩ bad
    cases ok.symm.trans bad

/-- After a line feed that ends no line nothing is found any more. -/
theorem splitLines_of_bad (ended : Stopped r .bad) (q : List Char) :
    (r.feed q).splitLines = ([(.bad, r.checkedIdx)], r.feed q) := by
  have stuck : LineStatus.bad ≠ .ok := by decide
  exact splitLines_stuck stuck (parseLine_feed_bad ended.inside ended.again q)

/-- Pieces that come to a reader that has been split. -/
theorem splitPieces_stopped (ended : Stopped r status) (ps : List (List Char)) :
    lineEnds (r.splitPieces ps).1 = lineEnds (r.feed ps.flatten).splitLines.1 ∧
      (r.splitPieces ps).2 = (r.feed ps.flatten).splitLines.2 ∧
      (status ≠ .bad →
        firstBad (r.splitPieces ps).1 = firstBad (r.feed ps.flatten).splitLines.1) := by
  induction ps generalizing r status with
  | nil =>
    rw [List.flatten_nil, feed_nil, splitLines_stuck ended.stuck ended.again]
    refine ⟨?_, rfl, fun good => ?_⟩
    · unfold splitPieces lineEnds
      simp [ended.stuck]
    · unfold splitPieces firstBad
      simp [good]
  | cons p ps ih =>
    have inside : (r.feed p).checkedIdx ≤ (r.feed p).readBuf.length := by
      have within := ended.inside
      unfold feed
      dsimp only
      rw [List.length_append]
      omega
    obtain ⟨status', ended', bad⟩ := stopped_splitLines inside
    obtain ⟨ends, reader, good⟩ := ih ended'
    have whole := splitLines_feed inside ps.flatten
    obtain ⟨same, none⟩ := lineEnds_filter (r.feed p).splitLines.1
    rw [List.flatten_cons, ← feed_feed, whole]
    unfold splitPieces
    dsimp only
    refine ⟨?_, reader, fun _ => ?_⟩
    · rw [lineEnds_append, lineEnds_append, ends, same]
    · rw [firstBad_append, firstBad_append, bad, none, Option.none_or]
      by_cases wrong : status' = .bad
      · -- the first line feed that is wrong is met again in each later piece
        subst wrong
        rw [splitLines_of_bad ended']
        rfl
      · rw [if_neg wrong, Option.none_or]
        exact good wrong

/-! ### What is split off -/

/-- What `parse_line` has still to look at is the rest of `text`, and no end of a line has
begun before it. -/
structure Before (text : List Char) (r : Reader) : Prop where
  inside : r.checkedIdx ≤ r.readBuf.length
  rest : r.readBuf.drop r.checkedIdx = text.drop r.checkedIdx
  clean : r.checkedIdx = 0 ∨ charAt r.readBuf (r.checkedIdx - 1) ≠ '\r'

/-- A call that finds a line finds the next one of the text. -/
theorem Before.parseLine {text : List Char} (before : Before text r)
    (found : r.parseLine = (.ok, r')) :
    ∃ l rest, '\n' ∉ l ∧ text.drop r.checkedIdx = l ++ (crlf ++ rest) ∧
      r'.checkedIdx = r.checkedIdx + l.length + 2 ∧
      r'.readBuf = overwritten r.readBuf [r'.checkedIdx] ∧ Before text r' := by
  obtain ⟨buf, i, search, rfl⟩ := exists_scan found
  obtain ⟨k, reach, inside, result, cr, lf, none⟩ :=
    scan_found (Nat.add_sub_cancel' before.inside) (by rw [search])
  obtain ⟨-, rfl, rfl⟩ : LineStatus.ok = .ok ∧ buf = (r.readBuf.set k '\x00').set (k + 1) '\x00' ∧
      i = k + 2 := by
    rw [search] at result
    simpa using result
  -- the carriage return is one of the bytes that were to be looked at
  have ahead : r.checkedIdx ≤ k := by
    by_contra behind
    obtain same : r.checkedIdx = k + 1 := by omega
    rcases before.clean with zero | clean
    · omega
    · rw [same, Nat.add_sub_cancel] at clean
      exact clean cr
  have length :
      ((r.readBuf.drop r.checkedIdx).take (k - r.checkedIdx)).length = k - r.checkedIdx := by
    rw [List.length_take, List.length_drop]
    omega
  refine ⟨(r.readBuf.drop r.checkedIdx).take (k - r.checkedIdx), r.readBuf.drop (k + 2), ?_, ?_, ?_,
    rfl, ?_, ?_, ?_⟩
  · intro mem
    obtain ⟨j, place, char⟩ := List.mem_take_iff_getElem.mp mem
    have early : j < k - r.checkedIdx := lt_of_lt_of_le place (min_le_left _ _)
    have within : r.checkedIdx + j < r.readBuf.length := by omega
    refine none (r.checkedIdx + j) (Nat.le_add_right _ _) (by omega) ?_
    rw [charAt_eq_getElem within, ← char, List.getElem_drop]
  · have tail : (r.readBuf.drop r.checkedIdx).drop (k - r.checkedIdx) =
        crlf ++ r.readBuf.drop (k + 2) := by
      rw [List.drop_drop, Nat.add_sub_cancel' ahead, drop_eq_cons (by omega), drop_eq_cons inside,
        cr, lf]
      rfl
    rw [← before.rest, ← tail, List.take_append_drop]
  · dsimp only
    rw [length]
    omega
  · rw [List.length_set, List.length_set]
    exact inside
  · show ((r.readBuf.set k '\x00').set (k + 1) '\x00').drop (k + 2) = text.drop (k + 2)
    have further := congrArg (List.drop (k + 2 - r.checkedIdx)) before.rest
    rw [List.drop_drop, List.drop_drop, Nat.add_sub_cancel' (by omega)] at further
    rw [List.drop_set_of_lt (by omega), List.drop_set_of_lt (by omega), further]
  · refine .inr ?_
    show charAt ((r.readBuf.set k '\x00').set (k + 1) '\x00') (k + 1) ≠ '\r'
    rw [charAt_eq_getElem (by simpa using inside), List.getElem_set_self]
    decide

/-- The calls find the lines of the text, and overwrite their ends. -/
theorem Before.splitLines {text : List Char} (before : Before text r) :
    Separates text r.checkedIdx (lineEnds r.splitLines.1) ∧
      r.splitLines.2.readBuf = overwritten r.readBuf (lineEnds r.splitLines.1) := by
  induction r using Reader.splitLines_induction with
  | ok r r' found ih =>
    obtain ⟨l, rest, none, line, ends, buf, before'⟩ := before.parseLine found
    obtain ⟨separates, nuls⟩ := ih before'
    have next : lineEnds ((.ok, r'.checkedIdx) :: r'.splitLines.1) =
        r'.checkedIdx :: lineEnds r'.splitLines.1 := rfl
    rw [splitLines_ok found, next]
    refine ⟨⟨⟨l, rest, none, line, ends⟩, separates⟩, ?_⟩
    rw [nuls, buf]
    rfl
  | stuck r r' status stuck found =>
    have none : lineEnds [(status, r'.checkedIdx)] = [] := by simp [lineEnds, stuck]
    rw [splitLines_stuck stuck found, none]
    obtain ⟨buf, i, search, rfl⟩ := exists_scan found
    have same := (scan_append (Nat.add_sub_cancel' before.inside) (by rwa [search]) []).1
    rw [search] at same
    exact ⟨trivial, same⟩

end splitting

end Reader

/-- However the bytes are cut into pieces, the same lines are found, with the same bytes
left in the buffer, and the same line feed is wrong. The lines are those of the text, and
the two bytes at the end of each are overwritten. -/
theorem splitPieces_eq (c : Reader) (pieces : List (List Char)) :
    let split := c.init.splitPieces pieces
    let whole := (c.init.feed pieces.flatten).splitLines
    lineEnds split.1 = lineEnds whole.1 ∧ split.2 = whole.2 ∧ firstBad split.1 = firstBad whole.1 ∧
      Separates pieces.flatten 0 (lineEnds whole.1) ∧
      whole.2.readBuf = overwritten pieces.flatten (lineEnds whole.1) := by
  have ended : Reader.Stopped c.init .open := ⟨by decide, le_rfl, rfl⟩
  have before : Reader.Before pieces.flatten (c.init.feed pieces.flatten) :=
    ⟨Nat.zero_le _, rfl, .inl rfl⟩
  obtain ⟨ends, reader, bad⟩ := Reader.splitPieces_stopped ended pieces
  exact ⟨ends, reader, bad (by decide), before.splitLines⟩

end CoroutineService.Http
