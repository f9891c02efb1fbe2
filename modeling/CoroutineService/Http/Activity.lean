import CoroutineService.Http.Indices
import CoroutineService.Http.ProxyGate
import CoroutineService.Http.RequestLine
import CoroutineService.Transition.Machine

/-!
# Runs of a connection

Between two calls of `process_read` a connection reads, and it starts anew with `init()`. Three
things can go wrong in the loop or behind it. A request line for a host only leads to a null
pointer, a declared length to a store before `m_read_buf` or to a sum that overflows. The page
for a form, which `do_request` copies to `m_url`, can be longer than what is left of
`m_read_buf`: its end is then found in `m_read_idx`.

## Main definitions

* `Activity`, `Activity.machine`: what a connection is doing, and its runs
* `Activity.Ordered`: the loop ends, and the indices are in order
* `Keeps`: what `do_request` writes fits into its arrays
* `Activity.Sound`: the steps that do what they should

## Main results

* `ordered_of_reaches`: runs of such steps
* `reaches_processRead`: the runs follow `process_read`
* `not_ordered`: a registration whose page runs over `m_read_buf`
-/

set_option autoImplicit false

namespace CoroutineService.Http

open CString Reader CoroutineService.Transition

/-! ### Runs -/

/-- What a connection is doing: it waits for bytes, it is in the loop of `process_read`,
`do_request` has been called, or it is about to copy the page for a form to `m_url`. After
undefined behaviour nothing is known. -/
inductive Activity
  | waiting (r : Reader)
  | looping (p : Point)
  | requesting (decideProxy : Bool) (r : Reader)
  | copying (r : Reader) (url : ℕ) (page : List Char)
  | undefined

/-- A step of a connection. -/
inductive ActivityMove
  | init
  | read (bytes : List Char)
  | call
  | iterate
  | request (b : Backend) (users : Users)
  | copy

namespace Activity

variable (proxy : ProxyType)

/-- Behind the loop of `process_read`. -/
def ofExit : Exit × Bool × Reader → Activity
  | (.bad, _, r) => .waiting r
  | (.request, decideProxy, r) => .requesting decideProxy r
  | (.left, _, r) => .waiting r
  | (.fault, _, _) => .undefined

/-- Behind an iteration. -/
def ofIteration : Point ⊕ (Exit × Bool × Reader) → Activity
  | .inl p => .looping p
  | .inr x => ofExit x

/-- Before the call of `stat`. After a form there is a page to be copied. -/
def ofPrepared (r : Reader) : Except Fault Prepared → Activity
  | .error _ => .undefined
  | .ok s =>
    match r.url, s.scanned with
    | some p, some _ => .copying r p s.url
    | _, _ => .waiting r

/-- A read succeeds if there is room for the bytes. -/
def enabled : Activity → ActivityMove → Prop
  | .waiting _, .init => True
  | .waiting r, .read bytes => (r.feed bytes).readIdx ≤ readBufferSize
  | .waiting _, .call => True
  | .looping _, .iterate => True
  | .requesting _ _, .request _ _ => True
  | .copying _ _ _, .copy => True
  | _, _ => False

def next : Activity → ActivityMove → Activity
  | .waiting r, .init => .waiting r.init
  | .waiting r, .read bytes => .waiting (r.feed bytes)
  | .waiting r, .call => .looping (.first r)
  | .looping p, .iterate => ofIteration (p.iterate proxy)
  | .requesting decideProxy r, .request b users =>
    if mismatch proxy decideProxy then .waiting r else ofPrepared r (b.prepare users r)
  | .copying r url page, .copy => .waiting (r.copied url page)
  | s, _ => s

/-- A connection from `init()` on. -/
def machine : Machine Activity ActivityMove where
  init s := ∃ c : Reader, s = .waiting c.init
  enabled := enabled
  next := next proxy

/-- The loop of `process_read` ends, after a number of iterations for which there is a bound, and
the indices are in order. -/
def Ordered : Activity → Prop
  | .waiting r => r.InOrder
  | .looping p =>
    p.reader.InOrder ∧ ∃ k ≤ 2 * readBufferSize + 2, ∃ x, p.iterations proxy k = .inr x
  | .requesting _ r => r.InOrder
  | .copying r _ _ => r.InOrder
  | .undefined => False

end Activity

/-! ### `do_request` -/

namespace Backend

variable {b : Backend} {users : Users} {r : Reader} {kind : Char} {s : Prepared} {f : Fields}
  {file url : List Char}

theorem prepareFile_ok (short : b.docRoot.length < filenameLen)
    (long : s.realFile.length = filenameLen)
    (fits : ∀ page ∈ fixedPage kind, b.docRoot.length + page.toList.length ≤ filenameLen) :
    ∃ s', b.prepareFile kind s = .ok s' := by
  unfold prepareFile
  cases found : fixedPage kind with
  | some page =>
    have room : b.docRoot.length + page.toList.length ≤ s.realFile.length :=
      long ▸ fits page found
    dsimp only
    rw [strncpy_eq_ok_iff.mpr ⟨room, rfl⟩]
    exact ⟨_, rfl⟩
  | none =>
    have room : b.docRoot.length + b.room ≤ s.realFile.length := by
      unfold Backend.room
      omega
    dsimp only
    rw [strncpy_eq_ok_iff.mpr ⟨room, rfl⟩]
    exact ⟨_, rfl⟩

theorem answerForm_ok (statement : kind = '3' → (insertText f.name f.password).length < 200) :
    ∃ page users', page ∈ userPages ∧ b.answerForm users kind f = .ok (page, users') := by
  unfold answerForm
  by_cases registers : kind = '3'
  · rw [if_pos registers, buildInsert_eq_ok_iff.mpr ⟨statement registers, rfl⟩]
    exact ⟨_, _, register_mem_userPages _ _ _ _, rfl⟩
  · rw [if_neg registers]
    exact ⟨_, _, login_mem_userPages _ _ _, rfl⟩

theorem prepareForm_ok (short : b.docRoot.length < filenameLen)
    (long : file.length = filenameLen) (whole : url.length ≤ 200) (found : r.fields = .ok f)
    (statement : kind = '3' → (insertText f.name f.password).length < 200) :
    ∃ page : String, page ∈ userPages ∧ ∃ s, b.prepareForm users r kind file url = .ok s ∧
      s.realFile.length = filenameLen ∧ s.url = page.toList := by
  have room : b.docRoot.length + b.room ≤ file.length := by
    unfold Backend.room
    omega
  have first : append 200 [] ['/'] = .ok ['/'] := rfl
  have rest : append 200 ['/'] (url.drop 2) = .ok ('/' :: url.drop 2) := by
    refine append_eq_ok_iff.mpr ⟨?_, rfl⟩
    rw [List.length_singleton, List.length_drop]
    omega
  obtain ⟨page, users', answer, answered⟩ :=
    @answerForm_ok b users kind f statement
  refine ⟨page, answer, ?_⟩
  unfold prepareForm
  simp only [first, rest, strncpy_eq_ok_iff.mpr ⟨room, rfl⟩, found, answered, bind, Except.bind,
    pure, Except.pure]
  exact ⟨_, rfl, (length_store _).trans long, rfl⟩

end Backend

/-- There is a slash in the URL, and what `do_request` writes before its call of `stat` fits into
its arrays: the URL, the fields and the statement of a form, or the page behind the document
root. -/
def Keeps (b : Backend) (r : Reader) : Prop :=
  b.docRoot.length < filenameLen ∧ ∃ p k, r.url = some p ∧
    lastSlash (strAt r.readBuf p) = some k ∧
    if isForm r.cgi ((strAt r.readBuf p).getD (k + 1) '\x00') then
      (strAt r.readBuf p).length ≤ 200 ∧ ∃ f, r.fields = .ok f ∧
        ((strAt r.readBuf p).getD (k + 1) '\x00' = '3' →
          (insertText f.name f.password).length < 200)
    else ∀ page ∈ fixedPage ((strAt r.readBuf p).getD (k + 1) '\x00'),
      b.docRoot.length + page.toList.length ≤ filenameLen

/-- `do_request` comes to its call of `stat`. -/
theorem Keeps.prepare {b : Backend} {r : Reader} (keeps : Keeps b r) (users : Users) :
    ∃ s, b.prepare users r = .ok s := by
  obtain ⟨short, p, k, pointer, slash, fits⟩ := keeps
  have long : (store (List.replicate filenameLen '\x00') 0 (b.docRoot ++ ['\x00'])).length =
      filenameLen := (length_store _).trans List.length_replicate
  have root : b.rootFile =
      .ok (store (List.replicate filenameLen '\x00') 0 (b.docRoot ++ ['\x00'])) := by
    refine strcpy_eq_ok_iff.mpr ⟨?_, rfl⟩
    rw [List.length_replicate]
    omega
  unfold Backend.prepare
  rw [root, pointer]
  dsimp only [bind, Except.bind]
  rw [slash]
  dsimp only
  generalize strAt r.readBuf p = url at fits ⊢
  split at fits
  · next form =>
    have digit := form
    simp only [isForm, Bool.and_eq_true, Bool.or_eq_true, beq_iff_eq] at digit
    obtain ⟨whole, f, found, statement⟩ := fits
    obtain ⟨page, answer, s, served, long', same⟩ :=
      @Backend.prepareForm_ok b users r _ f _ url short long whole found statement
    rw [if_pos form, served]
    dsimp only
    rw [same]
    refine Backend.prepareFile_ok short long' ?_
    intro other found
    rw [Backend.fixedPage_urlByte answer digit.2] at found
    cases found
  · next other =>
    rw [if_neg other]
    exact Backend.prepareFile_ok short long fits

/-! ### Steps that keep the order -/

/-- The line is not a request line for a host only. The declared length does not lead before
`m_read_buf`, and can be added to `m_checked_idx`. -/
structure Reader.Parses (r : Reader) : Prop where
  line : r.checkState = .requestLine → ¬HostOnly (strAt r.readBuf r.startLine)
  length : r.checkState = .content →
    0 ≤ (r.startLine : ℤ) + r.contentLength ∧ r.contentLength + r.checkedIdx < 2 ^ 63

/-- A page fits into `m_read_buf`, or its NUL takes the place of another one. -/
def PageFits (r : Reader) (url : ℕ) (page : List Char) : Prop :=
  url + page.length < readBufferSize ∨
    url + page.length = readBufferSize ∧ r.readIdx = readBufferSize

/-- The steps that do what they should. -/
def Activity.Sound (proxy : ProxyType) : Activity → ActivityMove → Prop
  | .looping p, .iterate => p.condition.1 = true → p.condition.2.Parses
  | .requesting decideProxy r, .request b _ => mismatch proxy decideProxy = true ∨ Keeps b r
  | .copying r url page, .copy => PageFits r url page
  | _, _ => True

section steps

variable {proxy : ProxyType} {r r' : Reader} {p : Point} {decideProxy : Bool}

theorem readIdx_ofImage (r : Reader) (m : List Char) :
    (r.ofImage m).readIdx = numberIn ((m.drop readBufferSize).take 8) := by
  unfold ofImage readIdx
  dsimp only
  rw [List.length_append, List.length_take, List.length_replicate]
  omega

/-- The indices are found behind `m_read_buf`. -/
theorem samePlace_ofImage {m : List Char} (order : InOrder r) (front : m.length = readBufferSize) :
    SamePlace r (r.ofImage (m ++
      (bytesOf 8 r.readIdx ++ (bytesOf 8 r.checkedIdx ++ bytesOf 4 r.startLine)))) := by
  obtain ⟨start, checked, read⟩ := order
  have small : readBufferSize < 256 ^ 4 := by decide
  have large : (256 : ℕ) ^ 4 < 256 ^ 8 := by decide
  have readIdx_eq : numberIn (((m ++ (bytesOf 8 r.readIdx ++
      (bytesOf 8 r.checkedIdx ++ bytesOf 4 r.startLine))).drop readBufferSize).take 8) =
        r.readIdx := by
    rw [← front, List.drop_left, List.take_left' (length_bytesOf 8 _)]
    exact numberIn_bytesOf (by omega)
  constructor
  · exact (readIdx_ofImage r _).trans readIdx_eq
  · unfold ofImage
    dsimp only
    rw [← front, ← List.drop_drop, List.drop_left, List.drop_left' (length_bytesOf 8 _),
      List.take_left' (length_bytesOf 8 _)]
    exact numberIn_bytesOf (by omega)
  · unfold ofImage
    dsimp only
    rw [← front, List.drop_append, List.drop_eq_nil_of_le (by omega), Nat.add_sub_cancel_left,
      List.nil_append, ← List.append_assoc,
      List.drop_left' (by rw [List.length_append, length_bytesOf, length_bytesOf]),
      List.take_of_length_le (length_bytesOf 4 _).le]
    exact numberIn_bytesOf (by omega)

/-- A page that fits leaves the indices alone. -/
theorem samePlace_copied {url : ℕ} {page : List Char} (order : InOrder r)
    (fits : PageFits r url page) : SamePlace r (r.copied url page) := by
  have front : (r.readBuf ++ List.replicate (readBufferSize - r.readIdx) '\x00').length =
      readBufferSize := by
    have read := order.read
    rw [List.length_append, List.length_replicate]
    unfold readIdx at read ⊢
    omega
  unfold copied image
  rw [← List.append_assoc]
  rcases fits with inside | ⟨last, full⟩
  · have room : url + (page ++ ['\x00']).length ≤
        (r.readBuf ++ List.replicate (readBufferSize - r.readIdx) '\x00').length := by
      rw [front, List.length_append, List.length_singleton]
      omega
    rw [store_append _ room]
    exact samePlace_ofImage order ((length_store _).trans front)
  · -- the low byte of `m_read_idx` is zero
    have room : url + page.length ≤
        (r.readBuf ++ List.replicate (readBufferSize - r.readIdx) '\x00').length := by omega
    have same : store (store (r.readBuf ++ List.replicate (readBufferSize - r.readIdx) '\x00' ++
        (bytesOf 8 r.readIdx ++ (bytesOf 8 r.checkedIdx ++ bytesOf 4 r.startLine))) url page)
          (url + page.length) ['\x00'] =
        store (r.readBuf ++ List.replicate (readBufferSize - r.readIdx) '\x00') url page ++
          (bytesOf 8 r.readIdx ++ (bytesOf 8 r.checkedIdx ++ bytesOf 4 r.startLine)) := by
      have place : url + page.length =
          (store (r.readBuf ++ List.replicate (readBufferSize - r.readIdx) '\x00') url
            page).length := by
        rw [length_store, front, last]
      have zero : (bytesOf 8 r.readIdx ++ (bytesOf 8 r.checkedIdx ++ bytesOf 4 r.startLine)).set 0
          '\x00' = bytesOf 8 r.readIdx ++ (bytesOf 8 r.checkedIdx ++ bytesOf 4 r.startLine) := by
        rw [full]
        rfl
      have single (m : List Char) (i : ℕ) : store m i ['\x00'] = m.set i '\x00' := rfl
      rw [store_append _ room, place, single, List.set_append_right _ _ le_rfl, Nat.sub_self, zero]
    rw [store_concat, same]
    exact samePlace_ofImage order ((length_store _).trans front)

/-- A pass through the body of the loop does what it should, on a line that has been ended. -/
theorem turn_ne_fault {decideProxy' : Bool} (order : InOrder r) (parses : r.Parses)
    (line : r.checkState = .requestLine → ∃ n, r.startLine ≤ n ∧ r.readBuf[n]? = some '\x00') :
    r.turn proxy decideProxy ≠ .ends .fault decideProxy' r' := by
  intro turned
  rcases r.checkState.eq_or with state | state | state
  · obtain ⟨n, reach, nul⟩ := line state
    rcases traces_parseRequestLine (r := { r with startLine := r.checkedIdx }) reach nul with
      ⟨host, -⟩ | ⟨-, code, r'', stores, parsed, -⟩
    · exact parses.line state host
    · rw [turn_requestLine state parsed] at turned
      split_ifs at turned
      cases turned
  · rcases parsed : { r with startLine := r.checkedIdx }.parseHeaders proxy r.startLine decideProxy
      with ⟨ret, decideProxy'', r''⟩
    rw [turn_header state parsed] at turned
    split_ifs at turned <;> cases turned
  · obtain ⟨behind, small⟩ := parses.length state
    have start := order.start
    have long : IsLong (r.contentLength + r.checkedIdx) := ⟨by omega, small⟩
    rw [turn_content state, if_pos long, if_pos behind] at turned
    split_ifs at turned
    cases turned

/-- If the condition of the loop holds in the request line, the line has been ended. -/
theorem Point.line_of_condition (order : InOrder p.reader) (holds : p.condition.1 = true)
    (state : p.condition.2.checkState = .requestLine) :
    ∃ n, p.condition.2.startLine ≤ n ∧ p.condition.2.readBuf[n]? = some '\x00' := by
  have line : ¬(p.reader.checkState = .content ∧ p.status = .ok) := fun body =>
    nomatch (p.checkState_condition.symm.trans state).symm.trans body.1
  unfold condition at holds ⊢
  rw [if_neg line] at holds ⊢
  obtain ⟨k, reach, -, -, nul⟩ := nuls_of_parseLine (Prod.ext (of_decide_eq_true holds) rfl)
  exact ⟨k + 1, order.start.trans reach, nul⟩

/-- An iteration does not come to undefined behaviour. -/
theorem Point.iterate_ne_fault (order : InOrder p.reader)
    (sound : p.condition.1 = true → p.condition.2.Parses) :
    p.iterate proxy ≠ .inr (.fault, decideProxy, r) := by
  intro faults
  have entered := order.condition
  have line := Point.line_of_condition order
  unfold iterate at faults
  generalize p.condition = tested at faults entered line sound
  obtain ⟨holds, r'⟩ := tested
  cases holds with
  | false => cases faults
  | true =>
    dsimp only at faults
    cases turned : r'.turn proxy p.decideProxy with
    | goesOn status decideProxy' r'' =>
      rw [turned] at faults
      cases faults
    | ends exit decideProxy' r'' =>
      rw [turned] at faults
      cases faults
      exact turn_ne_fault entered (sound rfl) (line rfl) turned

namespace Activity

variable {s : Activity} {a : ActivityMove} {users : Users}

theorem ordered_looping (order : InOrder p.reader) : (looping p).Ordered proxy := by
  refine ⟨order, _, ?_, _, iterations_measure order⟩
  have room := order.read
  unfold Point.measure
  split <;> omega

/-- An iteration is followed by another one, or by the end of the loop. -/
theorem ordered_iterate (order : InOrder p.reader)
    (sound : p.condition.1 = true → p.condition.2.Parses) :
    (ofIteration (p.iterate proxy)).Ordered proxy := by
  have kept := @iterate_cases proxy p order
  cases iterated : p.iterate proxy with
  | inl p' =>
    rw [iterated] at kept
    exact ordered_looping kept.1
  | inr result =>
    rw [iterated] at kept
    obtain ⟨exit, decideProxy, r⟩ := result
    cases exit with
    | bad => exact kept
    | request => exact kept
    | left => exact kept
    | fault => exact absurd iterated (Point.iterate_ne_fault order sound)

/-- A call of `do_request` leaves the indices alone until it copies a page. -/
theorem ordered_request {b : Backend} (order : InOrder r)
    (sound : mismatch proxy decideProxy = true ∨ Keeps b r) :
    ((requesting decideProxy r).next proxy (.request b users)).Ordered proxy := by
  unfold next
  dsimp only
  by_cases differs : mismatch proxy decideProxy = true
  · rw [if_pos differs]
    exact order
  · obtain ⟨s, prepared⟩ := (sound.resolve_left differs).prepare users
    rw [if_neg differs, prepared]
    unfold ofPrepared
    dsimp only
    split
    · exact order
    · exact order

/-- A step that does what it should keeps the order. -/
theorem Ordered.next (ordered : s.Ordered proxy) (available : s.enabled a)
    (sound : Sound proxy s a) : (s.next proxy a).Ordered proxy := by
  cases s with
  | waiting r =>
    have order : InOrder r := ordered
    cases a with
    | init => exact (⟨le_rfl, le_rfl, Nat.zero_le _⟩ : InOrder r.init)
    | read bytes => exact order.feed available
    | call => exact ordered_looping order
    | _ => cases available
  | looping p =>
    cases a with
    | iterate => exact ordered_iterate ordered.1 sound
    | _ => cases available
  | requesting decideProxy r =>
    cases a with
    | request b users => exact ordered_request ordered sound
    | _ => cases available
  | copying r url page =>
    cases a with
    | copy =>
      have order : InOrder r := ordered
      exact order.of_samePlace (samePlace_copied order sound)
    | _ => cases available
  | undefined => cases ordered

end Activity

end steps

/-- In a run whose steps do what they should the loop of `process_read` always ends, and the
indices are in order before and after each iteration. -/
theorem ordered_of_reaches {proxy : ProxyType} {s : Activity}
    (reached : (Activity.machine proxy).Reaches (Activity.Sound proxy) s) : s.Ordered proxy := by
  refine reached.invariant (I := fun s => s.Ordered proxy) ?_ fun _ _ => Activity.Ordered.next
  rintro s ⟨c, rfl⟩
  exact (⟨le_rfl, le_rfl, Nat.zero_le _⟩ : InOrder c.init)

/-- A line that is malformed, and another that is never looked at. -/
def malformed : List Char := "A\n\r\n".toList

theorem ordered_of_reaches_malformed :
    (Activity.looping (.first (unused.init.feed malformed))).Ordered .nginx := by
  have started : (Activity.machine .nginx).Reaches (Activity.Sound .nginx) (.waiting unused.init) :=
    .start ⟨unused, rfl⟩
  have room : (unused.init.feed malformed).readIdx ≤ readBufferSize := by decide
  have read := started.move (a := ActivityMove.read malformed) room trivial
  exact ordered_of_reaches (read.move (a := ActivityMove.call) trivial trivial)

/-! ### Runs of `process_read` -/

section runs

variable {proxy : ProxyType} {p : Point} {c : Reader} {x : Exit × Bool × Reader}

theorem reaches_iterations {k : ℕ} (reached : (Activity.machine proxy).Reachable (.looping p))
    (ended : p.iterations proxy k = .inr x) :
    (Activity.machine proxy).Reachable (.ofExit x) := by
  induction k generalizing p with
  | zero => cases ended
  | succ k ih =>
    unfold Point.iterations at ended
    have iterated := reached.move (a := ActivityMove.iterate) trivial trivial
    have after : (Activity.machine proxy).next (.looping p) .iterate =
        .ofIteration (p.iterate proxy) := rfl
    rw [after] at iterated
    cases once : p.iterate proxy with
    | inl p' =>
      rw [once] at ended iterated
      exact ih iterated ended
    | inr result =>
      rw [once] at ended iterated
      cases ended
      exact iterated

/-- The machine comes to where the loop of `process_read` ends. -/
theorem reaches_loop (order : InOrder c)
    (reached : (Activity.machine proxy).Reachable (.waiting c)) :
    (Activity.machine proxy).Reachable (.ofExit (c.loop proxy .ok true)) :=
  reaches_iterations (reached.move (a := ActivityMove.call) trivial trivial)
    (iterations_measure (p := .first c) order)

/-- It comes to what `do_request` leaves behind. -/
theorem reaches_rewritten {b : Backend} {users : Users} {s : Prepared} {decideProxy : Bool}
    (reached : (Activity.machine proxy).Reachable (.requesting decideProxy c))
    (passes : ¬mismatch proxy decideProxy = true) (prepared : b.prepare users c = .ok s) :
    (Activity.machine proxy).Reachable (.waiting (c.rewritten s)) := by
  have requested := reached.move (a := ActivityMove.request b users) trivial trivial
  have after : (Activity.machine proxy).next (.requesting decideProxy c) (.request b users) =
      if mismatch proxy decideProxy then .waiting c else .ofPrepared c (b.prepare users c) := rfl
  rw [after, if_neg passes, prepared] at requested
  unfold Activity.ofPrepared at requested
  unfold Reader.rewritten
  dsimp only at requested
  cases pointer : c.url with
  | none =>
    rw [pointer] at requested
    exact requested
  | some p =>
    cases scan : s.scanned with
    | none =>
      rw [pointer, scan] at requested
      exact requested
    | some last =>
      rw [pointer, scan] at requested
      exact requested.move (a := ActivityMove.copy) trivial trivial

/-- It comes to what a call of `process_read` leaves behind. -/
theorem reaches_processRead {b : Backend} {users : Users} {a : Answer} (order : InOrder c)
    (reached : (Activity.machine proxy).Reachable (.waiting c))
    (answered : b.processRead proxy users c = .ok a) :
    (Activity.machine proxy).Reachable (.waiting a.reader) := by
  have ended := reaches_loop order reached
  unfold Backend.processRead at answered
  generalize c.loop proxy .ok true = result at ended answered
  obtain ⟨exit, decideProxy, r⟩ := result
  cases exit with
  | bad =>
    cases answered
    exact ended
  | left =>
    cases answered
    exact ended
  | fault => cases answered
  | request =>
    unfold Backend.conclude Backend.answer at answered
    dsimp only at answered
    by_cases differs : mismatch proxy decideProxy = true
    · have requested := ended.move (a := ActivityMove.request b users) trivial trivial
      have after : (Activity.machine proxy).next (.ofExit (.request, decideProxy, r))
          (.request b users) = if mismatch proxy decideProxy then .waiting r
            else .ofPrepared r (b.prepare users r) := rfl
      rw [after, if_pos differs] at requested
      rw [if_pos differs] at answered
      cases answered
      exact requested
    · rw [if_neg differs] at answered
      obtain ⟨s, prepared, answered⟩ := exists_of_bind answered
      obtain ⟨ret, -, answered⟩ := exists_of_bind answered
      cases answered
      exact reaches_rewritten ended differs prepared

end runs

/-! ### A page that runs over the buffer -/

/-- A method, and blanks. -/
def spaced (n : ℕ) : List Char := "POST\x00".toList ++ List.replicate n ' '

/-- The target of a registration, and the version. -/
def formLine : List Char := "/&/3 HTTP/1.1".toList

theorem length_spaced (n : ℕ) : (spaced n).length = n + 5 := by
  simp [spaced]

theorem strspn_spaced (n : ℕ) : strspn (spaced n ++ (formLine ++ nuls)) 5 [' ', '\t'] = n := by
  have five : "POST\x00".toList.length = 5 := rfl
  have begins : strAt (spaced n ++ (formLine ++ nuls)) 5 = List.replicate n ' ' ++ formLine := by
    have whole : spaced n ++ (formLine ++ nuls) =
        "POST\x00".toList ++ (List.replicate n ' ' ++ formLine ++ '\x00' :: ['\x00']) := by
      unfold spaced nuls
      simp only [List.append_assoc]
    rw [whole, ← five, strAt_line, List.takeWhile_append_of_pos]
    · rfl
    · intro c mem
      rw [List.eq_of_mem_replicate mem]
      rfl
  unfold strspn
  rw [begins, List.takeWhile_append_of_pos]
  · rw [List.length_append, List.length_replicate]
    rfl
  · intro c mem
    rw [List.eq_of_mem_replicate mem]
    rfl

theorem parseUrl_spaced (r : Reader) (n : ℕ) (stores : List ℕ)
    (text : r.readBuf = spaced n ++ ("/&/3\x00HTTP/1.1".toList ++ nuls)) :
    r.parseUrl (spaced n).length stores = .ok (.noRequest,
      { r with url := some (spaced n).length, checkState := .header }, stores) := by
  have str : IsCStr r.readBuf (spaced n).length := by
    rw [text]
    exact IsCStr.append_length (k := 0) (by decide +kernel) _
  have url : strAt r.readBuf (spaced n).length = "/&/3".toList := by
    rw [text]
    exact strAt_append_length _ _ 0
  have slash : charAt r.readBuf (spaced n).length = '/' := by
    rw [text]
    exact charAt_append_length _ _ 0
  have http : r.skipScheme "http://" (some (spaced n).length) = .ok (some (spaced n).length) := by
    unfold skipScheme strncasecmp
    simp only [bind, Except.bind, strArg_ok str, url]
    rfl
  have https : r.skipScheme "https://" (some (spaced n).length) = .ok (some (spaced n).length) := by
    unfold skipScheme strncasecmp
    simp only [bind, Except.bind, strArg_ok str, url]
    rfl
  have long : strlen r.readBuf (spaced n).length ≠ 1 := by
    unfold strlen
    rw [url]
    decide
  unfold parseUrl
  simp only [bind, Except.bind, http, https, slash, strArg_ok str, ne_eq, not_true_eq_false,
    if_false, if_neg long]
  rfl

theorem parseTarget_spaced (r : Reader) (n : ℕ)
    (text : r.readBuf = spaced n ++ (formLine ++ nuls)) (stores : List ℕ) :
    r.parseTarget 5 stores = .ok (.noRequest, { r with
      readBuf := spaced n ++ ("/&/3\x00HTTP/1.1".toList ++ nuls)
      url := some (spaced n).length
      version := some ((spaced n).length + 5)
      checkState := .header }, stores ++ [(spaced n).length + 4]) := by
  have place : 5 + strspn r.readBuf 5 [' ', '\t'] = (spaced n).length := by
    rw [text, strspn_spaced, length_spaced, Nat.add_comm]
  have str : IsCStr r.readBuf (spaced n).length := by
    rw [text]
    exact IsCStr.append_length (k := 0) (by decide +kernel) _
  have strBlanks : IsCStr r.readBuf 5 := by
    obtain ⟨i, reach, nul⟩ := str
    rw [length_spaced] at reach
    exact ⟨i, by omega, nul⟩
  have found : strpbrk r.readBuf (spaced n).length [' ', '\t'] = some ((spaced n).length + 4) := by
    have shown : strAt (spaced n ++ (formLine ++ nuls)) (spaced n).length = formLine :=
      strAt_append_length _ _ 0
    unfold strpbrk
    rw [text, shown]
    rfl
  have cut : r.readBuf.set ((spaced n).length + 4) '\x00' =
      spaced n ++ ("/&/3\x00HTTP/1.1".toList ++ nuls) := by
    rw [text, List.set_append_right _ _ (Nat.le_add_right _ _), Nat.add_sub_cancel_left]
    rfl
  have strVersion : IsCStr (spaced n ++ ("/&/3\x00HTTP/1.1".toList ++ nuls))
      ((spaced n).length + 4 + 1) :=
    IsCStr.append_length (k := 5) (by decide +kernel) _
  have version : strAt (spaced n ++ ("/&/3\x00HTTP/1.1".toList ++ nuls))
      ((spaced n).length + 4 + 1) = "HTTP/1.1".toList := strAt_append_length _ _ 5
  have noBlanks : strspn (spaced n ++ ("/&/3\x00HTTP/1.1".toList ++ nuls))
      ((spaced n).length + 4 + 1) [' ', '\t'] = 0 := by
    unfold strspn
    rw [version]
    rfl
  have same : strcasecmp (spaced n ++ ("/&/3\x00HTTP/1.1".toList ++ nuls))
      ((spaced n).length + 4 + 1) "HTTP/1.1" = true := by
    unfold strcasecmp
    rw [version]
    rfl
  unfold parseTarget
  simp only [bind, Except.bind, strArg_ok strBlanks, place, strArg_ok str, found, cut,
    strArg_ok strVersion, noBlanks, Nat.add_zero, same, if_true]
  exact parseUrl_spaced _ n _ rfl

/-- A request line with blanks before its target. -/
def spacedLine (n : ℕ) : List Char := "POST".toList ++ (List.replicate (n + 1) ' ' ++ formLine)

theorem parseRequestLine_spaced (r : Reader) (n : ℕ) (text : r.readBuf = spacedLine n ++ nuls) :
    r.parseRequestLine 0 = .ok (.noRequest, { r with
      readBuf := spaced n ++ ("/&/3\x00HTTP/1.1".toList ++ nuls)
      checkState := .header
      method := .post
      url := some (spaced n).length
      version := some ((spaced n).length + 5)
      cgi := true }, [4, (spaced n).length + 4]) := by
  have cut : r.readBuf.set 4 '\x00' = spaced n ++ (formLine ++ nuls) := by
    rw [text]
    unfold spacedLine spaced
    rw [List.replicate_succ, List.append_assoc, List.append_assoc, List.append_assoc]
    rfl
  have str : IsCStr r.readBuf 0 := by
    refine ⟨(spacedLine n).length, Nat.zero_le _, ?_⟩
    rw [text, List.getElem?_append_right le_rfl, Nat.sub_self]
    rfl
  have found : strpbrk r.readBuf 0 [' ', '\t'] = some 4 := by
    rw [text]
    rfl
  have strMethod : IsCStr (spaced n ++ (formLine ++ nuls)) 0 := ⟨4, Nat.zero_le _, rfl⟩
  have get : strcasecmp (spaced n ++ (formLine ++ nuls)) 0 "GET" = false := rfl
  have post : strcasecmp (spaced n ++ (formLine ++ nuls)) 0 "POST" = true := rfl
  unfold parseRequestLine
  simp only [bind, Except.bind, strArg_ok str, found, cut, strArg_ok strMethod, get, post,
    Bool.false_eq_true, if_false, if_true]
  exact parseTarget_spaced _ n rfl _

/-! A request leaves `m_string` at `m_read_buf + 2023`. -/

def earlierLine : List Char := "POST /a HTTP/1.1".toList

def longHeader : List Char := 'A' :: ':' :: List.replicate 1980 'a'

def lengthHeader : List Char := "Content-length: 1".toList

/-- A request with a body of one byte, behind a long header. -/
def earlier : List Char :=
  earlierLine ++ (crlf ++ (longHeader ++ (crlf ++ (lengthHeader ++ (crlf ++ (crlf ++ ['x']))))))

/-- The reader behind its headers, and before its body. -/
def earlierHeaders : Reader :=
  ((unused.afterRequestLine earlierLine).behind longHeader).behind lengthHeader

def earlierBody : Reader := { earlierHeaders.consumed [] with checkState := .content }.feed ['x']

/-- The reader behind that request. -/
def earlierRead : Reader :=
  { earlierBody with
    startLine := earlierBody.checkedIdx
    readBuf := storeNul earlierBody.readBuf (earlierBody.startLine + earlierBody.contentLength)
    string := some earlierBody.startLine }

theorem loop_earlier : (unused.init.feed earlier).loop .noProxy .ok true =
    (.request, true, earlierRead) := by
  have accepted : accepts earlierLine = true := by decide +kernel
  have plain : ¬Forwarded longHeader ∧ ¬Forwarded lengthHeader := by decide +kernel
  have long : HeaderLine longHeader := by
    refine ⟨fun lf => ?_, by decide +kernel⟩
    rcases List.mem_cons.mp lf with first | lf
    · cases first
    rcases List.mem_cons.mp lf with second | lf
    · cases second
    · cases List.eq_of_mem_replicate lf
  obtain ⟨here, state, -⟩ := afterRequestLine_header (c := unused) accepted
  have state' : ((unused.afterRequestLine earlierLine).behind longHeader).checkState = .header :=
    (checkState_behind _ _).trans state
  have state'' : earlierHeaders.checkState = .header := (checkState_behind _ _).trans state'
  have body : earlierHeaders.contentLength ≠ 0 := by decide +kernel
  have whole : earlierBody.turn .noProxy true = .ends .request true earlierRead :=
    turn_whole rfl (by decide +kernel) (by decide +kernel) (by decide +kernel)
  unfold earlier
  rw [loop_requestLine (by decide +kernel) accepted,
    loop_passed here state long (fun both => plain.1 both.1),
    loop_passed (atLine_behind _ _) state' ⟨by decide, by decide⟩ (fun both => plain.2 both.1),
    decide_eq_true plain.1, decide_eq_true plain.2]
  refine (loop_blank (atLine_behind _ _) state'' ['x']).trans ((if_pos body).trans ?_)
  refine (loop_body (r := earlierBody) rfl).trans ?_
  rw [Bool.and_true, Bool.and_true, whole, afterTurn]

/-- The registration that follows it on the same connection. Its URL is behind blanks. -/
def registration (n : ℕ) : List Char := spacedLine n ++ (crlf ++ crlf)

/-- The reader behind that registration. -/
def registrationRead (n : ℕ) (string : Option ℕ) : Reader where
  readBuf := spaced n ++ ("/&/3\x00HTTP/1.1".toList ++ nuls) ++ nuls
  checkedIdx := n + 22
  startLine := n + 22
  checkState := .header
  method := .post
  url := some (n + 5)
  version := some (n + 10)
  host := none
  contentLength := 0
  cgi := true
  string := string

theorem loop_registration (c : Reader) (n : ℕ) :
    (c.init.feed (registration n)).loop .noProxy .ok true =
      (.request, true, registrationRead n c.string) := by
  have line : '\n' ∉ spacedLine n := by
    unfold spacedLine
    rw [List.mem_append, List.mem_append, not_or, not_or]
    refine ⟨by decide, fun lf => ?_, by decide⟩
    cases List.eq_of_mem_replicate lf
  have accepted : accepts (spacedLine n) = true := by
    unfold accepts
    rw [parseRequestLine_spaced (lineReader _) n rfl, Except.map]
    exact decide_eq_true rfl
  have parsed := parseRequestLine_spaced (c.init.consumed (spacedLine n)) n (List.nil_append _)
  have after : c.afterRequestLine (spacedLine n) = { c.init.consumed (spacedLine n) with
      readBuf := spaced n ++ ("/&/3\x00HTTP/1.1".toList ++ nuls)
      checkState := .header
      method := .post
      url := some (spaced n).length
      version := some ((spaced n).length + 5)
      cgi := true } := by
    unfold afterRequestLine
    rw [parsed]
  obtain ⟨here, state, length, -⟩ := @afterRequestLine_header c (spacedLine n) accepted
  have rest : "/&/3\x00HTTP/1.1".toList.length = 13 := rfl
  have front : (spaced n ++ ("/&/3\x00HTTP/1.1".toList ++ nuls)).length = n + 20 := by
    rw [List.length_append, List.length_append, length_spaced, rest]
    rfl
  unfold registration
  rw [loop_requestLine line accepted]
  refine (loop_blank here state []).trans ?_
  rw [length, if_neg (not_not_intro rfl), after]
  unfold Reader.feed consumed ended registrationRead
  dsimp only
  rw [front, length_spaced, List.append_nil]
  rfl

/-- The loop for the name begins at two of the blanks, and that for the password in the version. -/
theorem fields_registration {m : ℕ} (room : m + 20 ≤ readBufferSize) :
    (registrationRead (m + 2) (some m)).fields = .ok ⟨"  /".toList, ".1".toList, 20⟩ := by
  have shown : (registrationRead (m + 2) (some m)).readBuf =
      spaced m ++ ([' ', ' '] ++ "/&/3\x00HTTP/1.1".toList ++ nuls ++ nuls) := by
    unfold registrationRead spaced
    simp only [List.replicate_add, List.append_assoc]
    rfl
  have reads : ∀ k ≤ 15, (registrationRead (m + 2) (some m)).body (5 + k) =
      .ok (charAt ([' ', ' '] ++ "/&/3\x00HTTP/1.1".toList ++ nuls ++ nuls) k) := by
    intro k within
    have place : m + (5 + k) = (spaced m).length + k := by
      rw [length_spaced]
      omega
    have inside : m + (5 + k) ≤ readBufferSize := by omega
    have found : (registrationRead (m + 2) (some m)).body (5 + k) =
        .ok (charAt (registrationRead (m + 2) (some m)).readBuf (m + (5 + k))) := if_pos inside
    rw [found, shown, place, charAt_append_length]
  have name : copyUntil (registrationRead (m + 2) (some m)).body '&' 100 5 =
      .ok ("  /".toList, 8) := by
    rw [copyUntil_next (reads 0 (by decide)) (by decide)]
    refine ⟨_, rfl, ?_⟩
    rw [copyUntil_next (reads 1 (by decide)) (by decide)]
    refine ⟨_, rfl, ?_⟩
    rw [copyUntil_next (reads 2 (by decide)) (by decide)]
    exact ⟨_, rfl, copyUntil_stop (reads 3 (by decide))⟩
  have password : copyUntil (registrationRead (m + 2) (some m)).body '\x00' 100 18 =
      .ok (".1".toList, 20) := by
    rw [copyUntil_next (reads 13 (by decide)) (by decide)]
    refine ⟨_, rfl, ?_⟩
    rw [copyUntil_next (reads 14 (by decide)) (by decide)]
    exact ⟨_, rfl, copyUntil_stop (reads 15 (by decide))⟩
  unfold Reader.fields
  rw [name]
  dsimp only
  rw [password]
  rfl

theorem strAt_registration (n : ℕ) (string : Option ℕ) :
    strAt (registrationRead n string).readBuf (n + 5) = "/&/3".toList := by
  have place : n + 5 = (spaced n).length + 0 := (length_spaced n).symm
  have shown : (registrationRead n string).readBuf =
      spaced n ++ ("/&/3\x00HTTP/1.1".toList ++ nuls ++ nuls) := List.append_assoc _ _ _
  rw [shown, place, strAt_append_length]
  rfl

/-- The bytes behind the blanks, up to `m_start_line`. -/
def behindBlanks (n : ℕ) : List Char :=
  "/&/3\x00HTTP/1.1".toList ++ nuls ++ nuls ++ (List.replicate (readBufferSize - (n + 22)) '\x00' ++
    (bytesOf 8 (n + 22) ++ (bytesOf 8 (n + 22) ++ bytesOf 4 (n + 22))))

theorem image_registration (n : ℕ) (string : Option ℕ) :
    (registrationRead n string).image = spaced n ++ behindBlanks n := by
  have read : (registrationRead n string).readIdx = n + 22 := by
    unfold registrationRead readIdx
    rw [List.length_append, List.length_append, length_spaced]
    rfl
  unfold image behindBlanks
  rw [read]
  unfold registrationRead
  simp only [List.append_assoc]

/-- The indices behind a page that is copied to the URL, in a buffer with one byte left. -/
theorem indices_copied {n : ℕ} (full : n + 23 = readBufferSize) (string : Option ℕ)
    (page : List Char) :
    ((registrationRead n string).copied (n + 5) page).checkedIdx =
        numberIn (((store (behindBlanks n) 0 (page ++ ['\x00'])).drop 26).take 8) ∧
      ((registrationRead n string).copied (n + 5) page).readIdx =
        numberIn (((store (behindBlanks n) 0 (page ++ ['\x00'])).drop 18).take 8) := by
  have stored : store (registrationRead n string).image (n + 5) (page ++ ['\x00']) =
      spaced n ++ store (behindBlanks n) 0 (page ++ ['\x00']) := by
    rw [image_registration, ← length_spaced]
    exact store_append_length (spaced n) _ 0 _
  have buffer : readBufferSize = (spaced n).length + 18 := by
    rw [length_spaced]
    omega
  unfold Reader.copied
  rw [stored]
  refine ⟨?_, ?_⟩
  · unfold ofImage
    dsimp only
    rw [buffer, Nat.add_assoc, List.drop_length_add_append]
  · rw [readIdx_ofImage, buffer, List.drop_length_add_append]

/-- A server whose database takes no rows. -/
def fullServer : Backend := ⟨[], by decide, fun _ => none, fun _ => true⟩

theorem exists_of_map {ε α β : Type} {x : Except ε α} {f : α → β} {b : β}
    (mapped : x.map f = .ok b) : ∃ a, x = .ok a ∧ f a = b := by
  cases x with
  | error fault => cases mapped
  | ok a => exact ⟨a, rfl, Except.ok.inj mapped⟩

/-- Up to `stat`, `do_request` looks at the URL and the fields of the form. -/
theorem prepare_of_same {b : Backend} {users : Users} {r r' : Reader} {p p' : ℕ}
    (url : r.url = some p) (url' : r'.url = some p')
    (text : strAt r.readBuf p = strAt r'.readBuf p') (cgi : r.cgi = r'.cgi)
    (fields : r.fields = r'.fields) : b.prepare users r = b.prepare users r' := by
  unfold Backend.prepare Backend.prepareForm
  rw [url, url', cgi, fields]
  dsimp only
  rw [text]

theorem string_rewritten (r : Reader) (s : Prepared) : (r.rewritten s).string = r.string := by
  unfold Reader.rewritten
  split <;> rfl

/-- The connection waits for the second request, with `m_string` of the first one. -/
theorem reaches_stale :
    ∃ c : Reader, (Activity.machine .noProxy).Reachable (.waiting c.init) ∧
      c.string = some 2023 := by
  have started : (Activity.machine .noProxy).Reachable (.waiting unused.init) :=
    .start ⟨unused, rfl⟩
  have room : (unused.init.feed earlier).readIdx ≤ readBufferSize := by decide +kernel
  have order : InOrder (unused.init.feed earlier) := ⟨le_rfl, Nat.zero_le _, room⟩
  have read := started.move (a := ActivityMove.read earlier) room trivial
  have ended := reaches_loop order read
  rw [loop_earlier] at ended
  have page : (fullServer.prepare (initmysqlResult []) earlierRead).map (·.url) =
      .ok "/a".toList := by decide +kernel
  obtain ⟨s, prepared, -⟩ := exists_of_map page
  have served := reaches_rewritten ended nofun prepared
  have place : earlierRead.string = some 2023 := by decide +kernel
  exact ⟨_, served.move (a := ActivityMove.init) trivial trivial,
    (string_rewritten _ s).trans place⟩

/-- The end of the page for a registration has replaced `m_read_idx`. -/
theorem not_ordered : ¬∀ (proxy : ProxyType) (s : Activity),
    (Activity.machine proxy).Reachable s → s.Ordered proxy := by
  intro all
  obtain ⟨c, waiting, stale⟩ := reaches_stale
  have room : (c.init.feed (registration 2025)).readIdx ≤ readBufferSize := by
    show (registration 2025).length ≤ readBufferSize
    decide +kernel
  have order : InOrder (c.init.feed (registration 2025)) := ⟨le_rfl, Nat.zero_le _, room⟩
  have read := waiting.move (a := ActivityMove.read (registration 2025)) room trivial
  have ended := reaches_loop order read
  rw [loop_registration, stale] at ended
  -- what `do_request` does with it does not depend on how many blanks there are
  have fields : (registrationRead 2025 (some 2023)).fields = (registrationRead 2 (some 0)).fields :=
    (fields_registration (by decide)).trans (fields_registration (by decide)).symm
  have text : strAt (registrationRead 2025 (some 2023)).readBuf (2025 + 5) =
      strAt (registrationRead 2 (some 0)).readBuf (2 + 5) :=
    (strAt_registration 2025 _).trans (strAt_registration 2 _).symm
  have page : (fullServer.prepare (initmysqlResult []) (registrationRead 2025 (some 2023))).map
      (fun s => (s.url, s.scanned)) = .ok ("/registerError.html".toList, some 20) := by
    rw [prepare_of_same rfl rfl text rfl fields]
    decide +kernel
  obtain ⟨s, prepared, answer⟩ := exists_of_map page
  have url : s.url = "/registerError.html".toList := congrArg Prod.fst answer
  have scan : s.scanned = some 20 := congrArg Prod.snd answer
  have served := reaches_rewritten ended nofun prepared
  have copied : (registrationRead 2025 (some 2023)).rewritten s =
      (registrationRead 2025 (some 2023)).copied (2025 + 5) "/registerError.html".toList := by
    unfold Reader.rewritten
    rw [url, scan]
    rfl
  rw [copied] at served
  have broken := (all _ _ (served.move (a := ActivityMove.call) trivial trivial)).1
  -- `m_read_idx` is 108, and `m_checked_idx` is 2047.
  obtain ⟨checkedIdx, readIdx⟩ :=
    indices_copied (by decide : 2025 + 23 = readBufferSize) (some 2023) "/registerError.html".toList
  have checked : ((registrationRead 2025 (some 2023)).copied (2025 + 5)
      "/registerError.html".toList).checkedIdx ≤ ((registrationRead 2025 (some 2023)).copied
        (2025 + 5) "/registerError.html".toList).readIdx := broken.checked
  rw [checkedIdx, readIdx] at checked
  exact absurd checked (by decide +kernel)

end CoroutineService.Http
