import CoroutineService.Http.Lines

/-!
# The loop of `process_read`

The condition of the loop calls `parse_line`, unless a body is to be looked at, which takes
no bytes. So neither the bytes that are left nor `line_status` alone get less with each
iteration. Together they do, while `m_start_line`, `m_checked_idx` and `m_read_idx` stay in
order.

## Main definitions

* `Point`: the loop before its condition is tested
* `Point.iterate`, `Point.iterations`: one iteration, and several
* `Reader.InOrder`: the order of the indices

## Main results

* `iterate_cases`: an iteration keeps the order, and takes something from the measure
* `iterations_measure`: the loop ends before the measure is used up
-/

set_option autoImplicit false

namespace CoroutineService.Http

open CString Reader

/-! ### Iterations -/

/-- The loop before its condition is tested. -/
structure Point where
  status : LineStatus
  decideProxy : Bool
  reader : Reader
  deriving DecidableEq, Repr

namespace Point

variable (proxy : ProxyType) (p : Point)

/-- The loop at its beginning. -/
def first (c : Reader) : Point := ⟨.ok, true, c⟩

/-- The condition of the loop. The second disjunct is not looked at if the first one holds. -/
def condition : Bool × Reader :=
  if p.reader.checkState = .content ∧ p.status = .ok then (true, p.reader)
  else (p.reader.parseLine.1 = .ok, p.reader.parseLine.2)

/-- One iteration: to the next test of the condition, or to the end. -/
def iterate : Point ⊕ (Exit × Bool × Reader) :=
  match p.condition with
  | (true, r) =>
    match r.turn proxy p.decideProxy with
    | .goesOn status decideProxy r => .inl ⟨status, decideProxy, r⟩
    | .ends exit decideProxy r => .inr (exit, decideProxy, r)
  | (false, r) => .inr (.left, p.decideProxy, r)

/-- So many iterations, or fewer if the loop ends before. -/
def iterations : ℕ → Point → Point ⊕ (Exit × Bool × Reader)
  | 0, p => .inl p
  | k + 1, p =>
    match p.iterate proxy with
    | .inl p => iterations k p
    | .inr result => .inr result

/-- What gets less: the bytes that have not been checked count twice, and `LINE_OK` once. -/
def measure : ℕ :=
  2 * (p.reader.readIdx - p.reader.checkedIdx) + if p.status = .ok then 1 else 0

/-- What follows an iteration. -/
def afterIteration : Point ⊕ (Exit × Bool × Reader) → Exit × Bool × Reader
  | .inl p => p.reader.loop proxy p.status p.decideProxy
  | .inr result => result

variable {proxy p}

/-- The loop is made of its iterations. -/
theorem loop_eq : p.reader.loop proxy p.status p.decideProxy =
    afterIteration proxy (p.iterate proxy) := by
  have turned (r : Reader) : afterTurn proxy (r.turn proxy p.decideProxy) =
      afterIteration proxy (match r.turn proxy p.decideProxy with
        | .goesOn status decideProxy r => .inl ⟨status, decideProxy, r⟩
        | .ends exit decideProxy r => .inr (exit, decideProxy, r)) := by
    cases r.turn proxy p.decideProxy with
    | ends exit decideProxy r => rfl
    | goesOn status decideProxy r => rfl
  unfold iterate condition
  by_cases body : p.reader.checkState = .content ∧ p.status = .ok
  · rw [if_pos body, body.2, loop_body body.1]
    exact turned p.reader
  · rw [if_neg body]
    by_cases found : p.reader.parseLine.1 = .ok
    · rw [loop_of_ok body (Prod.ext found rfl), decide_eq_true found]
      exact turned p.reader.parseLine.2
    · rw [loop_of_stuck body found rfl, decide_eq_false found]
      rfl

theorem loop_iterations (k : ℕ) : p.reader.loop proxy p.status p.decideProxy =
    afterIteration proxy (p.iterations proxy k) := by
  induction k generalizing p with
  | zero => rfl
  | succ k ih =>
    rw [loop_eq, iterations]
    cases p.iterate proxy with
    | inl p' => exact ih
    | inr result => rfl

end Point

/-! ### What an iteration does -/

section iterate

variable {proxy : ProxyType} {p p' : Point} {r r' : Reader} {decideProxy : Bool}

/-- The body of the loop does not leave it by its condition. -/
theorem turn_ne_left {decideProxy' : Bool} :
    r.turn proxy decideProxy ≠ .ends .left decideProxy' r' := by
  intro turned
  rcases r.checkState.eq_or with state | state | state
  · cases parsed : { r with startLine := r.checkedIdx }.parseRequestLine r.startLine with
    | error fault =>
      rw [turn_requestLine_error state parsed] at turned
      cases turned
    | ok x =>
      obtain ⟨ret, r'', stores⟩ := x
      rw [turn_requestLine state parsed] at turned
      split_ifs at turned
      cases turned
  · rcases parsed : { r with startLine := r.checkedIdx }.parseHeaders proxy r.startLine decideProxy
      with ⟨ret, decideProxy'', r''⟩
    rw [turn_header state parsed] at turned
    split_ifs at turned <;> cases turned
  · rw [turn_content state] at turned
    split_ifs at turned <;> cases turned

theorem Point.checkState_condition : p.condition.2.checkState = p.reader.checkState := by
  unfold condition
  split <;> rfl

/-- An iteration that is followed by another one. -/
theorem Point.of_iterate_inl (next : p.iterate proxy = .inl p') :
    p.condition.1 = true ∧ p.condition.2.turn proxy p.decideProxy =
      .goesOn p'.status p'.decideProxy p'.reader := by
  unfold iterate at next
  generalize p.condition = tested at next ⊢
  obtain ⟨holds, r⟩ := tested
  cases holds with
  | false => cases next
  | true =>
    dsimp only at next ⊢
    cases turned : r.turn proxy p.decideProxy with
    | ends exit decideProxy r' =>
      rw [turned] at next
      cases next
    | goesOn status decideProxy r' =>
      rw [turned] at next
      cases next
      exact ⟨rfl, rfl⟩

/-- An iteration that does not come to the body of the loop. -/
theorem Point.of_iterate_left (ended : p.iterate proxy = .inr (.left, decideProxy, r)) :
    p.condition = (false, r) := by
  unfold iterate at ended
  generalize p.condition = tested at ended ⊢
  obtain ⟨holds, r'⟩ := tested
  cases holds with
  | false =>
    cases ended
    rfl
  | true =>
    dsimp only at ended
    cases turned : r'.turn proxy p.decideProxy with
    | ends exit decideProxy r'' =>
      rw [turned] at ended
      cases ended
      exact absurd turned turn_ne_left
    | goesOn status decideProxy r'' =>
      rw [turned] at ended
      cases ended

end iterate

/-! ### The order of the indices -/

/-- `m_start_line`, `m_checked_idx` and `m_read_idx` are in order, within `m_read_buf`. -/
structure Reader.InOrder (r : Reader) : Prop where
  start : r.startLine ≤ r.checkedIdx
  checked : r.checkedIdx ≤ r.readIdx
  read : r.readIdx ≤ readBufferSize

section order

variable {proxy : ProxyType} {p : Point} {r r' : Reader} {decideProxy : Bool}

theorem Reader.InOrder.of_samePlace (order : InOrder r) (same : SamePlace r r') : InOrder r' where
  start := by
    rw [same.startLine, same.checkedIdx]
    exact order.start
  checked := by
    rw [same.checkedIdx, readIdx, same.readIdx]
    exact order.checked
  read := same.readIdx.trans_le order.read

theorem Reader.InOrder.feed {bytes : List Char} (order : InOrder r)
    (room : (r.feed bytes).readIdx ≤ readBufferSize) : InOrder (r.feed bytes) where
  start := order.start
  checked := by
    have more := order.checked
    unfold readIdx at more ⊢
    unfold Reader.feed
    dsimp only
    rw [List.length_append]
    omega
  read := room

theorem Reader.InOrder.turn (order : InOrder r) : InOrder (r.turn proxy decideProxy).reader :=
  have moved : InOrder { r with startLine := r.checkedIdx } := ⟨le_rfl, order.checked, order.read⟩
  moved.of_samePlace samePlace_turn

theorem Reader.InOrder.parseLine (order : InOrder r) : InOrder r.parseLine.2 where
  start := order.start.trans (le_scan _ _ _)
  checked := parseLine_inside order.checked
  read := (length_scan _ _ _).trans_le order.read

theorem Reader.InOrder.condition (order : InOrder p.reader) : InOrder p.condition.2 := by
  unfold Point.condition
  split
  · exact order
  · exact order.parseLine

/-- A pass that goes on leaves `LINE_OK` only if it was not for the body. -/
theorem measure_goesOn {status : LineStatus} {decideProxy' : Bool}
    (turned : r.turn proxy decideProxy = .goesOn status decideProxy' r') :
    (Point.mk status decideProxy' r').measure ≤
      2 * (r.readIdx - r.checkedIdx) + if r.checkState = .content then 0 else 1 := by
  obtain ⟨length, checked, opened⟩ := turn_goesOn turned
  unfold Point.measure readIdx
  dsimp only
  rw [length, checked]
  by_cases body : r.checkState = .content
  · rw [if_pos body, opened body, if_neg (by decide)]
  · rw [if_neg body]
    split <;> omega

/-- If the condition holds, the body is looked at for once, or a line has been found. -/
theorem measure_condition (holds : p.condition.1 = true) :
    2 * (p.condition.2.readIdx - p.condition.2.checkedIdx) +
      (if p.condition.2.checkState = .content then 0 else 1) < p.measure := by
  unfold Point.condition Point.measure at *
  by_cases body : p.reader.checkState = .content ∧ p.status = .ok
  · rw [if_pos body, if_pos body.1, if_pos body.2]
    exact Nat.lt_succ_self _
  · rw [if_neg body] at holds ⊢
    have found : p.reader.parseLine = (.ok, p.reader.parseLine.2) :=
      Prod.ext (of_decide_eq_true holds) rfl
    obtain ⟨length, -, onward, within⟩ := parseLine_ok found
    unfold readIdx
    dsimp only
    rw [length]
    have once : (if p.reader.parseLine.2.checkState = .content then 0 else 1) ≤ 1 := by
      split <;> omega
    omega

/-- An iteration keeps the order, and takes something from the measure. -/
theorem iterate_cases (order : InOrder p.reader) : match p.iterate proxy with
    | .inl p' => InOrder p'.reader ∧ p'.measure < p.measure
    | .inr result => InOrder result.2.2 := by
  have entered := order.condition
  have less := @measure_condition p
  unfold Point.iterate
  generalize p.condition = tested at entered less ⊢
  obtain ⟨holds, r⟩ := tested
  cases holds with
  | false => exact entered
  | true =>
    have kept := @InOrder.turn proxy r p.decideProxy entered
    dsimp only
    cases turned : r.turn proxy p.decideProxy with
    | ends exit decideProxy r' =>
      rw [turned] at kept
      exact kept
    | goesOn status decideProxy r' =>
      rw [turned] at kept
      exact ⟨kept, (measure_goesOn turned).trans_lt (less rfl)⟩

/-- So do several. -/
theorem inOrder_iterations {k : ℕ} (order : InOrder p.reader) :
    match p.iterations proxy k with
      | .inl p' => InOrder p'.reader ∧ p'.measure + k ≤ p.measure
      | .inr result => InOrder result.2.2 := by
  induction k generalizing p with
  | zero => exact ⟨order, le_rfl⟩
  | succ k ih =>
    have once := @iterate_cases proxy p order
    unfold Point.iterations
    cases next : p.iterate proxy with
    | inr result =>
      rw [next] at once
      exact once
    | inl p' =>
      rw [next] at once
      have later := ih once.1
      dsimp only
      split
      · next p'' reached =>
        rw [reached] at later
        exact ⟨later.1, by omega⟩
      · next result ended =>
        rw [ended] at later
        exact later

/-- The loop ends before the measure is used up. -/
theorem iterations_measure (order : InOrder p.reader) :
    p.iterations proxy (p.measure + 1) = .inr (p.reader.loop proxy p.status p.decideProxy) := by
  have all := @inOrder_iterations proxy p (p.measure + 1) order
  have result := @Point.loop_iterations proxy p (p.measure + 1)
  cases ended : p.iterations proxy (p.measure + 1) with
  | inl p' =>
    rw [ended] at all
    omega
  | inr x =>
    rw [result, ended]
    rfl

end order

end CoroutineService.Http
