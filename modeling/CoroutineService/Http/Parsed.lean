import CoroutineService.Http.Pieces

/-!
# Parsed requests

`do_request` is called when `process_read` has found a whole request. What it can rely on
then is what every call of `process_read` has kept: the URL begins where it was found, and
a body that has been parsed is ended by a NUL.

## Main definitions

* `Reads`: the readers that `process_read` can be called with
* `Parsed`: what a reader looks like when `do_request` is called
* `Sound`: what the calls of `process_read` keep

## Main results

* `concluded_loop`: what the loop of `process_read` leaves
* `parsed_of_reads`: `do_request` is called with a parsed request
-/

set_option autoImplicit false

namespace CoroutineService.Http

open CString Reader

/-- The readers that `process_read` can be called with: bytes are read as long as
`m_read_buf` has room, and a call that has not found a whole request comes back. -/
inductive Reads (proxy : ProxyType) : Reader → Prop
  | init (c : Reader) : Reads proxy c.init
  | feed {c : Reader} {bytes : List Char} (reads : Reads proxy c)
      (room : (c.feed bytes).readBuf.length ≤ readBufferSize) : Reads proxy (c.feed bytes)
  | again {c r : Reader} {decideProxy : Bool} (reads : Reads proxy c)
      (left : c.loop proxy .ok true = (.left, decideProxy, r)) : Reads proxy r

/-- The request with which `do_request` is called: there is a URL, the buffer is large
enough, and a body that has been parsed is ended by a NUL. -/
structure Parsed (r : Reader) : Prop where
  url : HasUrl r
  room : r.readBuf.length ≤ readBufferSize
  ended : r.contentLength ≠ 0 → ∃ text, r.string = some text ∧
    (text : ℤ) + r.contentLength ≤ r.readBuf.length ∧
    (0 ≤ r.contentLength → charAt r.readBuf (text + r.contentLength.toNat) = '\x00')

section reader

variable {proxy : ProxyType} {c r : Reader} {decideProxy : Bool} {status : LineStatus}

/-- Behind the request line there is a URL, and in the body a length. -/
structure Sound (r : Reader) : Prop where
  place : r.startLine ≤ r.checkedIdx
  room : r.readBuf.length ≤ readBufferSize
  url : r.checkState ≠ .requestLine → HasUrl r
  length : r.checkState = .content → r.contentLength ≠ 0

/-- A NUL that is stored changes no other byte. -/
theorem charAt_set_nul (buf : List Char) (i p : ℕ) :
    charAt (buf.set i '\x00') p = charAt buf p ∨ charAt (buf.set i '\x00') p = '\x00' := by
  unfold charAt
  rw [List.getD_eq_getElem?_getD, List.getD_eq_getElem?_getD, List.getElem?_set]
  split
  · right
    split <;> rfl
  · exact .inl rfl

/-- A URL stays where it is when NULs are stored. -/
theorem HasUrl.of_nuls {r' : Reader} (url : HasUrl r) (same : r'.url = r.url)
    (length : r'.readBuf.length = r.readBuf.length)
    (nuls : ∀ p, charAt r'.readBuf p = charAt r.readBuf p ∨ charAt r'.readBuf p = '\x00') :
    HasUrl r' := by
  obtain ⟨p, pointer, inside, begins⟩ := url
  refine ⟨p, same.trans pointer, length ▸ inside, ?_⟩
  rcases nuls p with kept | nul
  · rw [kept]
    exact begins
  · exact .inr nul

theorem HasUrl.feed {bytes : List Char} (url : HasUrl r) : HasUrl (r.feed bytes) := by
  obtain ⟨p, pointer, inside, begins⟩ := url
  refine ⟨p, pointer, ?_, ?_⟩
  · show p < (r.readBuf ++ bytes).length
    rw [List.length_append]
    omega
  · show charAt (r.readBuf ++ bytes) p = '/' ∨ charAt (r.readBuf ++ bytes) p = '\x00'
    rw [charAt_append inside]
    exact begins

/-- `parse_line` stores nothing but NULs. -/
theorem charAt_scan (buf : List Char) (remaining i p : ℕ) :
    charAt (scan buf remaining i).2.1 p = charAt buf p ∨
      charAt (scan buf remaining i).2.1 p = '\x00' := by
  have twice : ∀ i j, charAt ((buf.set i '\x00').set j '\x00') p = charAt buf p ∨
      charAt ((buf.set i '\x00').set j '\x00') p = '\x00' := by
    intro i j
    rcases charAt_set_nul (buf.set i '\x00') j p with kept | nul
    · rw [kept]
      exact charAt_set_nul buf i p
    · exact .inr nul
  induction remaining generalizing i with
  | zero => exact .inl rfl
  | succ remaining ih =>
    unfold scan
    split_ifs
    · exact .inl rfl
    · exact twice _ _
    · exact ih _
    · exact twice _ _
    · exact .inl rfl
    · exact ih _

theorem charAt_storeNul (buf : List Char) (i : ℕ) : charAt (storeNul buf i) i = '\x00' := by
  show charAt (buf.set i '\x00') i = '\x00'
  unfold charAt
  rw [List.getD_eq_getElem?_getD, List.getElem?_set_self']
  cases buf[i]? <;> rfl

theorem charAt_storeNul_cases (buf : List Char) (i : ℤ) (p : ℕ) :
    charAt (storeNul buf i) p = charAt buf p ∨ charAt (storeNul buf i) p = '\x00' := by
  cases i with
  | ofNat i => exact charAt_set_nul buf i p
  | negSucc i => exact .inl rfl

variable (proxy decideProxy) in
/-- A header leaves the URL alone, and leads to a body only if it has a length. -/
theorem parseHeaders_sound (sound : Sound r) (state : r.checkState = .header) (text : ℕ) :
    Sound (r.parseHeaders proxy text decideProxy).2.2 ∧
      ((r.parseHeaders proxy text decideProxy).1 = .getRequest →
        Parsed (r.parseHeaders proxy text decideProxy).2.2) := by
  have url : HasUrl r := sound.url (by rw [state]; nofun)
  have notBody : r.checkState ≠ .content := by rw [state]; nofun
  have plain : ∀ r' : Reader, r'.readBuf = r.readBuf → r'.checkedIdx = r.checkedIdx →
      r'.startLine = r.startLine → r'.url = r.url → r'.checkState = r.checkState → Sound r' := by
    intro r' buf checked start same state'
    refine ⟨?_, ?_,
      fun _ => url.of_nuls same (congrArg List.length buf) fun p => .inl (by rw [buf]),
      fun body => absurd (state' ▸ body) notBody⟩
    · rw [start, checked]
      exact sound.place
    · rw [buf]
      exact sound.room
  unfold parseHeaders
  split
  · split
    · next declared => exact ⟨⟨sound.place, sound.room, fun _ => url, fun _ => declared⟩, nofun⟩
    · next empty => exact ⟨sound, fun _ => ⟨url, sound.room, fun declared => absurd declared empty⟩⟩
  · split_ifs
    · exact ⟨sound, nofun⟩
    · exact ⟨plain _ rfl rfl rfl rfl rfl, nofun⟩
    · exact ⟨plain _ rfl rfl rfl rfl rfl, nofun⟩
    · cases proxy with
      | nginx => exact ⟨sound, nofun⟩
      | noProxy => exact ⟨sound, nofun⟩
    · exact ⟨sound, nofun⟩

variable (proxy decideProxy) in
/-- What a pass through the body of the loop leaves. -/
theorem turn_sound (sound : Sound r) : match r.turn proxy decideProxy with
    | .goesOn _ _ r' => Sound r'
    | .ends exit _ r' => exit = .bad ∨ exit = .fault ∨ exit = .request ∧ Parsed r' := by
  cases state : r.checkState with
  | requestLine =>
    cases parsed : { r with startLine := r.checkedIdx }.parseRequestLine r.startLine with
    | error fault =>
      rw [turn_requestLine_error state parsed]
      exact .inr (.inl rfl)
    | ok x =>
      obtain ⟨ret, r', stores⟩ := x
      obtain ⟨same, -, result⟩ := lineParsed_parseRequestLine parsed
      rw [turn_requestLine state parsed]
      rcases result with ⟨bad, -⟩ | ⟨rfl, header, url⟩
      · rw [if_pos bad]
        exact .inl rfl
      · rw [if_neg nofun]
        refine ⟨?_, ?_, fun _ => url, fun body => absurd (header.symm.trans body) nofun⟩
        · exact (same.startLine.trans same.checkedIdx.symm).le
        · exact same.readIdx.trans_le sound.room
  | header =>
    -- The next line begins where the last one has ended.
    have moved : Sound { r with startLine := r.checkedIdx } :=
      ⟨le_rfl, sound.room, sound.url, sound.length⟩
    obtain ⟨sound', request⟩ := parseHeaders_sound proxy decideProxy moved state r.startLine
    obtain ⟨ret, decideProxy', r', parsed⟩ : ∃ ret decideProxy' r',
        { r with startLine := r.checkedIdx }.parseHeaders proxy r.startLine decideProxy =
          (ret, decideProxy', r') := ⟨_, _, _, rfl⟩
    rw [turn_header state parsed]
    rw [parsed] at sound' request
    by_cases bad : ret = .badRequest
    · rw [if_pos bad]
      exact .inl rfl
    · rw [if_neg bad]
      by_cases whole : ret = .getRequest
      · rw [if_pos whole]
        exact .inr (.inr ⟨rfl, request whole⟩)
      · rw [if_neg whole]
        exact sound'
  | content =>
    rw [turn_content state]
    split_ifs with long complete behind
    · have url : HasUrl r := sound.url (by rw [state]; nofun)
      refine .inr (.inr ⟨rfl, url.of_nuls rfl (length_storeNul _ _) (charAt_storeNul_cases _ _), ?_,
        fun _ => ⟨_, rfl, ?_, fun positive => ?_⟩⟩)
      · exact (length_storeNul _ _).trans_le sound.room
      -- The NUL behind the body is stored where the body has been checked to end.
      · have place := sound.place
        have whole : (r.readBuf.length : ℤ) ≥ r.contentLength + r.checkedIdx := complete
        show (r.startLine : ℤ) + r.contentLength ≤ (storeNul r.readBuf _).length
        rw [length_storeNul]
        omega
      · replace positive : 0 ≤ r.contentLength := positive
        show charAt (storeNul r.readBuf _) (r.startLine + r.contentLength.toNat) = '\x00'
        have place : (r.startLine : ℤ) + r.contentLength =
            ((r.startLine + r.contentLength.toNat : ℕ) : ℤ) := by omega
        rw [place]
        exact charAt_storeNul _ _
    · exact .inr (.inl rfl)
    · exact ⟨le_rfl, sound.room, sound.url, sound.length⟩
    · exact .inr (.inl rfl)

theorem parseLine_sound (sound : Sound r) {r' : Reader} (line : r.parseLine = (status, r')) :
    Sound r' := by
  obtain rfl : r.parseLine.2 = r' := congrArg Prod.snd line
  refine ⟨sound.place.trans (le_scan _ _ _), ?_, fun state => ?_, sound.length⟩
  · exact (length_scan _ _ _).trans_le sound.room
  · exact (sound.url state).of_nuls rfl (length_scan _ _ _) (charAt_scan _ _ _)

/-- What the loop of `process_read` leaves, when it does not refuse the request. -/
def Concluded (x : Exit × Bool × Reader) : Prop :=
  (x.1 = .left → Sound x.2.2) ∧ (x.1 = .request → Parsed x.2.2)

variable (proxy status decideProxy) in
theorem concluded_loop (sound : Sound r) : Concluded (loop proxy status decideProxy r) := by
  refine loop_rule (I := Sound)
    (Q := fun exit r => (exit = .left → Sound r) ∧ (exit = .request → Parsed r))
    (fun r sound => parseLine_sound sound rfl) (fun r sound => ⟨fun _ => sound, nofun⟩)
    (fun r decideProxy sound => ?_) sound
  have result := turn_sound proxy decideProxy sound
  cases turned : r.turn proxy decideProxy with
  | goesOn status decideProxy r' =>
    rw [turned] at result
    exact result
  | ends exit decideProxy r' =>
    rw [turned] at result
    rcases result with rfl | rfl | ⟨rfl, parsed⟩
    · exact ⟨nofun, nofun⟩
    · exact ⟨nofun, nofun⟩
    · exact ⟨nofun, fun _ => parsed⟩

theorem sound_of_reads (reads : Reads proxy c) : Sound c := by
  induction reads with
  | init c => exact ⟨le_rfl, Nat.zero_le _, fun line => absurd rfl line, nofun⟩
  | feed _ room ih => exact ⟨ih.place, room, fun state => (ih.url state).feed, ih.length⟩
  | again _ left ih =>
    have concluded := concluded_loop proxy true .ok ih
    rw [left] at concluded
    exact concluded.1 rfl

/-- `do_request` is called with a parsed request. -/
theorem parsed_of_reads (reads : Reads proxy c)
    (called : c.loop proxy .ok true = (.request, decideProxy, r)) : Parsed r := by
  have concluded := concluded_loop proxy true .ok (sound_of_reads reads)
  rw [called] at concluded
  exact concluded.2 rfl

end reader

end CoroutineService.Http
