import CoroutineService.Http.Response

/-!
# Sending a response

`write` calls `writev` until nothing is left to send, and points the `iovec`s at the
rest after each partial result. Where the header is sent in more than two pieces, the
length of the rest of the header is computed from the length of the last rest.

## Main definitions

* `Conn.account`: the new `iovec`s after a partial result
* `Conn.write`: the loop
* `Delivers`: the response is sent exactly once

## Main results

* `delivers_iff`: a response is delivered exactly when its header block is sent by
  the first two calls of `writev`
* `skips_header`: a header block sent byte by byte
-/

set_option autoImplicit false

namespace CoroutineService.Http

/-- How the loop goes on after a call of `writev`. -/
inductive Round
  | goesOn (c : Conn)
  | returns (value : Bool) (c : Conn)

/-- What follows a round. -/
def Round.elim {α : Type} (goesOn : Conn → α) (returns : Bool → Conn → α) : Round → α
  | .goesOn c => goesOn c
  | .returns value c => returns value c

namespace Conn

variable (c : Conn)

/-- The places that `writev(m_iv, m_iv_count)` is to send. -/
def pending : List Cell := ([c.iv0, c.iv1].take c.ivCount).flatMap IoVec.cells

/-- The counters and the `iovec`s after `writev` has returned `temp`. -/
def account (temp : ℤ) : Conn :=
  let c := { c with
    bytesHaveSend := int32 (c.bytesHaveSend + temp)
    bytesToSend := int32 (c.bytesToSend - temp) }
  if sizeT c.bytesHaveSend ≥ c.iv0.len then
    { c with
      iv0 := ⟨c.iv0.base, 0⟩
      iv1 := ⟨.file (c.bytesHaveSend - c.writeBuf.length), sizeT c.bytesToSend⟩ }
  else
    -- From the length of the last rest everything is subtracted that has ever been sent.
    { c with iv0 := ⟨.writeBuf c.bytesHaveSend, sizeT (c.iv0.len - c.bytesHaveSend)⟩ }

/-- The body of the loop in `write`, with the result of `writev` and whether `errno`
is `EAGAIN`. -/
def round (result : ℤ) (eagain : Bool) : Round :=
  let temp := int32 result
  -- With `EAGAIN` the caller is told that all is well, and the rest is not sent.
  if temp < 0 then .returns eagain c
  else
    let c := c.account temp
    if c.bytesToSend ≤ 0 then
      if c.linger then .returns true c.init else .returns false c
    else .goesOn c

/-- The loop, if it ends within so many rounds, with what has been handed to the
socket. The results of `writev` depend on the number of the call and on the bytes it
is given. -/
def loop (writev : ℕ → ℕ → ℤ × Bool) : ℕ → ℕ → Conn → List Cell → Option (Bool × Conn × List Cell)
  | 0, _, _, _ => none
  | rounds + 1, i, c, sent =>
    let result := writev i c.pending.length
    let sent := sent ++ c.pending.take result.1.toNat
    (c.round result.1 result.2).elim (fun c => loop writev rounds (i + 1) c sent)
      fun value c => some (value, c, sent)

/-- `write`. -/
def write (writev : ℕ → ℕ → ℤ × Bool) (rounds : ℕ) : Option (Bool × Conn × List Cell) :=
  if c.bytesToSend = 0 then some (true, c.init, []) else loop writev rounds 0 c []

end Conn

/-- A socket that takes some of the bytes it is given, in the call `i` of a response. -/
structure Socket where
  accepts : ℕ → ℕ → ℕ
  bounded : ∀ i given, accepts i given ≤ given
  positive : ∀ i given, 0 < given → 0 < accepts i given

/-- `writev` on the socket. -/
def Socket.writev (socket : Socket) (i given : ℕ) : ℤ × Bool := (socket.accepts i given, false)

/-- `write` ends, and has handed the header and the file to the socket exactly once. -/
def Delivers (socket : Socket) (r : Response) : Prop :=
  ∃ rounds value c, r.conn.write socket.writev rounds = some (value, c, r.cells)

/-! ### Cells -/

theorem Cell.add_add (cell : Cell) (j k : ℕ) : (cell.add j).add k = cell.add (j + k) := by
  cases cell <;> simp [Cell.add, Int.add_assoc]

namespace IoVec

variable (v : IoVec) (k : ℕ)

@[simp]
theorem length_cells : v.cells.length = v.len := by
  simp [cells]

theorem getElem?_cells : v.cells[k]? = if k < v.len then some (v.base.add k) else none := by
  by_cases inside : k < v.len <;> simp [cells, inside]

theorem cells_drop : v.cells.drop k = cells ⟨v.base.add k, v.len - k⟩ := by
  apply List.ext_getElem?
  intro i
  rw [List.getElem?_drop, getElem?_cells, getElem?_cells, Cell.add_add]
  dsimp only
  by_cases inside : k + i < v.len
  · rw [if_pos inside, if_pos (by omega)]
  · rw [if_neg inside, if_neg (by omega)]

theorem cells_take (within : k ≤ v.len) : v.cells.take k = cells ⟨v.base, k⟩ := by
  apply List.ext_getElem?
  intro i
  rw [List.getElem?_take, getElem?_cells, getElem?_cells]
  by_cases inside : i < k
  · rw [if_pos inside, if_pos inside, if_pos (by omega)]
  · rw [if_neg inside, if_neg inside]

end IoVec

/-! ### Numbers of this size -/

theorem int32_eq {x : ℤ} (low : 0 ≤ x) (high : x < 2 ^ 31) : int32 x = x := by
  unfold int32
  rw [Int.bmod_def]
  omega

namespace Response

variable (r : Response)

/-- The number of bytes to be sent. -/
def total : ℕ := r.header.length + r.fileSize

theorem total_lt : r.total < 2 ^ 31 := by
  have header := r.inBuffer
  have file : r.fileSize ≤ addressSpace := by
    unfold fileSize
    split
    · exact Nat.zero_le _
    · next file _ => exact file.1.fits
  unfold writeBufferSize at header
  unfold addressSpace at file
  unfold total
  omega

/-- The connection after `n` bytes have been sent. -/
def after (n : ℕ) (iv0 iv1 : IoVec) : Conn :=
  { r.conn with iv0 := iv0, iv1 := iv1, bytesHaveSend := n, bytesToSend := r.total - n }

variable {r} {sent n : ℕ} {iv0 iv1 : IoVec}

theorem writeBuf_conn : r.conn.writeBuf = r.header := by
  unfold conn
  cases r.file <;> rfl

/-- The counters when `write` is called. -/
theorem conn_counters : r.conn.bytesHaveSend = 0 ∧ r.conn.bytesToSend = r.total := by
  have small := r.total_lt
  unfold conn
  unfold total fileSize at small ⊢
  cases present : r.file with
  | none => exact ⟨rfl, by simp [Conn.headerOnly]⟩
  | some file =>
    simp only [present] at small
    refine ⟨rfl, ?_⟩
    dsimp only [Conn.withFile]
    rw [int32_eq] <;> push_cast <;> omega

theorem conn_eq : r.conn = r.after 0 ⟨.writeBuf 0, r.header.length⟩ r.conn.iv1 := by
  obtain ⟨none, all⟩ := r.conn_counters
  have first : r.conn.iv0 = ⟨.writeBuf 0, r.header.length⟩ := by
    unfold conn
    cases r.file <;> rfl
  rw [← first]
  apply Conn.ext <;> simp [after, none, all]

/-- The bookkeeping after `writev` has taken `n` more bytes. -/
theorem account_after (within : sent + n ≤ r.total) (short : iv0.len < 2 ^ 64) :
    (r.after sent iv0 iv1).account n =
      if iv0.len ≤ sent + n then
        r.after (sent + n) ⟨iv0.base, 0⟩
          ⟨.file ((sent + n : ℕ) - r.header.length), r.total - (sent + n)⟩
      else r.after (sent + n) ⟨.writeBuf (sent + n : ℕ), iv0.len - (sent + n)⟩ iv1 := by
  have small := r.total_lt
  have sent' : int32 ((sent : ℤ) + n) = (sent + n : ℕ) := by
    rw [int32_eq] <;> push_cast <;> omega
  have left : int32 ((r.total : ℤ) - sent - n) = (r.total : ℤ) - (sent + n : ℕ) := by
    rw [int32_eq] <;> push_cast <;> omega
  have left' : sizeT ((r.total : ℤ) - (sent + n : ℕ)) = r.total - (sent + n) := by
    rw [← Int.ofNat_sub within, sizeT_eq (by omega)]
  have same : sizeT ((sent + n : ℕ) : ℤ) = sent + n := sizeT_eq (by omega)
  unfold Conn.account
  simp only [after, sent', left, same, ge_iff_le]
  by_cases done : iv0.len ≤ sent + n
  · rw [if_pos done, if_pos done]
    rw [left', writeBuf_conn]
  · rw [if_neg done, if_neg done]
    have rest : sizeT ((iv0.len : ℤ) - (sent + n : ℕ)) = iv0.len - (sent + n) := by
      rw [← Int.ofNat_sub (by omega), sizeT_eq (by omega)]
    rw [rest]

variable (iv0 iv1) in
theorem account_bytesToSend (within : sent + n ≤ r.total) :
    ((r.after sent iv0 iv1).account n).bytesToSend = r.total - (sent + n : ℕ) := by
  have small := r.total_lt
  have left : int32 ((r.total : ℤ) - sent - n) = (r.total : ℤ) - (sent + n : ℕ) := by
    rw [int32_eq] <;> push_cast <;> omega
  unfold Conn.account
  dsimp only [after]
  split <;> exact left

variable (iv0 iv1) in
/-- A round ends the loop when everything has been taken. -/
theorem round_after (within : sent + n ≤ r.total) :
    (sent + n = r.total → ∃ value c, (r.after sent iv0 iv1).round n false = .returns value c) ∧
      (sent + n < r.total →
        (r.after sent iv0 iv1).round n false = .goesOn ((r.after sent iv0 iv1).account n)) := by
  have small := r.total_lt
  have taken : int32 n = n := int32_eq (Int.natCast_nonneg n) (by omega)
  have left := account_bytesToSend iv0 iv1 within
  unfold Conn.round
  rw [taken]
  dsimp only
  rw [if_neg (by omega : ¬ (n : ℤ) < 0)]
  constructor
  · intro all
    rw [if_pos (by rw [left]; omega)]
    split
    · exact ⟨_, _, rfl⟩
    · exact ⟨_, _, rfl⟩
  · intro more
    rw [if_neg (by rw [left]; omega)]

/-! ### What is pending -/

/-- While the header is sent, the rest of the header and the file are pending. -/
theorem pending_header :
    (r.after sent iv0 r.conn.iv1).pending = iv0.cells ++ IoVec.cells ⟨.file 0, r.fileSize⟩ := by
  unfold Conn.pending after conn fileSize
  cases r.file with
  | none => simp [Conn.headerOnly, IoVec.cells]
  | some file => simp [Conn.withFile]

/-- Without a file, `m_iv[1]` is not sent. -/
theorem pending_body {len : ℕ} {start : Cell} {place : Cell} :
    (r.after sent ⟨place, 0⟩ ⟨start, len⟩).pending =
      if r.file.isSome then IoVec.cells ⟨start, len⟩ else [] := by
  unfold Conn.pending after conn
  cases r.file with
  | none => simp [Conn.headerOnly, IoVec.cells]
  | some file => simp [Conn.withFile, IoVec.cells]

@[simp]
theorem length_cells : r.cells.length = r.total := by
  simp [cells, total]

theorem drop_header (within : sent ≤ r.header.length) :
    r.cells.drop sent =
      IoVec.cells ⟨.writeBuf sent, r.header.length - sent⟩ ++
        IoVec.cells ⟨.file 0, r.fileSize⟩ := by
  rw [cells, List.drop_append_of_le_length (by simpa using within), IoVec.cells_drop]
  simp [Cell.add]

theorem drop_body (past : r.header.length ≤ sent) :
    r.cells.drop sent = IoVec.cells ⟨.file (sent - r.header.length), r.total - sent⟩ := by
  have rest : r.fileSize - (sent - r.header.length) = r.total - sent := by
    unfold total
    omega
  have start : ((sent - r.header.length : ℕ) : ℤ) = sent - r.header.length := Int.ofNat_sub past
  rw [cells, List.drop_append, List.drop_eq_nil_of_le (by simpa using past), List.nil_append,
    IoVec.length_cells, IoVec.cells_drop]
  simp [Cell.add, rest, start]

theorem getElem?_header {k : ℕ} (inside : k < r.header.length) :
    r.cells[k]? = some (.writeBuf k) := by
  rw [cells, List.getElem?_append_left (by simpa using inside), IoVec.getElem?_cells,
    if_pos inside]
  simp [Cell.add]

/-- A byte of the file in the place of a header byte is wrong. -/
theorem not_prefix {out : List Cell} {k : ℕ} {j : ℤ} (inside : k < r.header.length)
    (there : out[k]? = some (.file j)) : ¬ out <+: r.cells := by
  intro starts
  obtain ⟨short, here⟩ := List.getElem?_eq_some_iff.mp there
  have same : r.cells[k]? = some (.file j) := here ▸ List.prefix_iff_getElem?.mp starts k short
  rw [getElem?_header inside] at same
  cases same

end Response

/-! ### The loop -/

variable {socket : Socket} {r : Response} {sent n i rounds : ℕ} {iv0 iv1 : IoVec}
variable {done out : List Cell}

/-- From the call `i` on, the loop ends within so many rounds with these bytes handed
to the socket. -/
def Finishes (socket : Socket) (rounds i : ℕ) (c : Conn) (done out : List Cell) : Prop :=
  ∃ value c', Conn.loop socket.writev rounds i c done = some (value, c', out)

/-- What the next call takes of what is pending. -/
def Socket.taken (socket : Socket) (i : ℕ) (c : Conn) : ℕ := socket.accepts i c.pending.length

theorem loop_succ {c : Conn} :
    Conn.loop socket.writev (rounds + 1) i c done =
      (c.round (socket.taken i c) false).elim
        (fun c' => Conn.loop socket.writev rounds (i + 1) c'
          (done ++ c.pending.take (socket.taken i c)))
        fun value c' => some (value, c', done ++ c.pending.take (socket.taken i c)) := by
  have result : socket.writev i c.pending.length = ((socket.taken i c : ℤ), false) := rfl
  rw [Conn.loop, result, Int.toNat_natCast]

theorem not_finishes_zero {c : Conn} : ¬ Finishes socket 0 i c done out := by
  rintro ⟨_, _, result⟩
  cases result

/-- What has been handed to the socket stays there. -/
theorem Finishes.prefix {c : Conn} (finishes : Finishes socket rounds i c done out) :
    done <+: out := by
  induction rounds generalizing i c done with
  | zero => exact absurd finishes not_finishes_zero
  | succ rounds ih =>
    obtain ⟨value, c', result⟩ := finishes
    rw [loop_succ] at result
    cases goes : c.round (socket.taken i c) false with
    | goesOn c' =>
      rw [goes, Round.elim] at result
      exact (List.prefix_append done _).trans (ih ⟨value, _, result⟩)
    | returns value c' =>
      rw [goes, Round.elim] at result
      simp only [Option.some_inj, Prod.mk.injEq] at result
      exact result.2.2 ▸ List.prefix_append done _

/-- One round for a response of which `sent` bytes have been sent. -/
theorem finishes_succ (taken : socket.taken i (r.after sent iv0 iv1) = n)
    (within : sent + n ≤ r.total) :
    Finishes socket (rounds + 1) i (r.after sent iv0 iv1) done out ↔
      if sent + n = r.total then done ++ (r.after sent iv0 iv1).pending.take n = out
      else Finishes socket rounds (i + 1) ((r.after sent iv0 iv1).account n)
        (done ++ (r.after sent iv0 iv1).pending.take n) out := by
  subst taken
  obtain ⟨ends, onward⟩ := Response.round_after iv0 iv1 within
  unfold Finishes
  rw [loop_succ]
  split
  case isTrue all =>
    obtain ⟨value, c', returns⟩ := ends all
    rw [returns, Round.elim]
    simp
  case isFalse more => rw [onward (Nat.lt_of_le_of_ne within more), Round.elim]

/-! ### Once the header is sent -/

/-- Nothing is left to send after the header unless there is a file. -/
theorem Response.file_isSome (past : r.header.length ≤ sent) (more : sent < r.total) :
    r.file.isSome = true := by
  unfold total fileSize at more
  cases present : r.file with
  | none =>
    simp only [present] at more
    omega
  | some file => rfl

theorem Response.pending_rest {place : Cell} (past : r.header.length ≤ sent)
    (more : sent < r.total) :
    (r.after sent ⟨place, 0⟩ ⟨.file (sent - r.header.length), r.total - sent⟩).pending =
      r.cells.drop sent := by
  rw [pending_body, if_pos (file_isSome past more), drop_body past]

/-- The file is sent however its pieces are cut. -/
theorem exists_finishes_body {place : Cell} (past : r.header.length ≤ sent)
    (more : sent < r.total) :
    ∃ rounds, Finishes socket rounds i
      (r.after sent ⟨place, 0⟩ ⟨.file (sent - r.header.length), r.total - sent⟩)
      (r.cells.take sent) r.cells := by
  -- On what is left: each call takes some of it.
  induction left : r.total - sent using Nat.strong_induction_on generalizing sent i with
  | _ left' ih =>
    subst left
    set c := r.after sent ⟨place, 0⟩ ⟨.file (sent - r.header.length), r.total - sent⟩ with atC
    have pending : c.pending = r.cells.drop sent := Response.pending_rest past more
    have given : c.pending.length = r.total - sent := by
      rw [pending, List.length_drop, Response.length_cells]
    have some' : 0 < socket.taken i c := socket.positive i _ (by omega)
    have within : sent + socket.taken i c ≤ r.total := by
      have := socket.bounded i c.pending.length
      unfold Socket.taken
      omega
    have joined : r.cells.take sent ++ c.pending.take (socket.taken i c) =
        r.cells.take (sent + socket.taken i c) := by
      rw [pending, List.take_add]
    by_cases all : sent + socket.taken i c = r.total
    · refine ⟨1, (finishes_succ rfl within).mpr ?_⟩
      rw [if_pos all, joined, all]
      exact List.take_of_length_le (by rw [Response.length_cells])
    · have less : sent + socket.taken i c < r.total := Nat.lt_of_le_of_ne within all
      obtain ⟨rounds, finishes⟩ := ih (r.total - (sent + socket.taken i c)) (by omega)
        (by omega) less rfl
      refine ⟨rounds + 1, (finishes_succ rfl within).mpr ?_⟩
      rw [if_neg all, joined, Response.account_after within (by simp), if_pos (Nat.zero_le _)]
      exact finishes

/-! ### Once the rest of the header is too short -/

/-- Nothing more is right after bytes of the file have been sent for bytes of the
header. -/
theorem not_finishes_of_file {c : Conn} {k : ℕ} {j : ℤ} (inside : k < r.header.length)
    (there : done[k]? = some (.file j)) : ¬ Finishes socket rounds i c done r.cells :=
  fun finishes => Response.not_prefix inside there finishes.prefix

theorem length_take_cells (within : sent ≤ r.total) : (r.cells.take sent).length = sent := by
  rw [List.length_take, Response.length_cells]
  omega

/-- The byte that follows what has been sent. -/
theorem getElem?_sent_append {more : List Cell} {k : ℕ} (within : sent ≤ r.total) :
    (r.cells.take sent ++ more)[sent + k]? = more[k]? := by
  have length : (r.cells.take sent).length = sent := length_take_cells within
  rw [List.getElem?_append_right (by omega), length]
  congr 1
  omega

/-- When `m_iv[0]` is given up before the header has been sent, `m_iv[1]` begins
before the file. Without a file, the loop does not end. -/
theorem not_finishes_astray {place : Cell} (before : sent < r.header.length) :
    ¬ Finishes socket rounds i
      (r.after sent ⟨place, 0⟩ ⟨.file (sent - r.header.length), r.total - sent⟩)
      (r.cells.take sent) r.cells := by
  have short : sent < r.total := Nat.lt_of_lt_of_le before (Nat.le_add_right _ _)
  induction rounds generalizing i place with
  | zero => exact not_finishes_zero
  | succ rounds ih =>
    intro finishes
    set c := r.after sent ⟨place, 0⟩ ⟨.file (sent - r.header.length), r.total - sent⟩ with atC
    have takes := socket.bounded i c.pending.length
    cases present : r.file.isSome with
    | true =>
      have pending : c.pending = IoVec.cells ⟨.file (sent - r.header.length), r.total - sent⟩ := by
        rw [atC, Response.pending_body, if_pos present]
      have given : c.pending.length = r.total - sent := by rw [pending, IoVec.length_cells]
      have some' : 0 < socket.taken i c := socket.positive i _ (by omega)
      have wrong : (r.cells.take sent ++ c.pending.take (socket.taken i c))[sent]? =
          some (.file (sent - r.header.length)) := by
        have next : (r.cells.take sent ++ c.pending.take (socket.taken i c))[sent + 0]? = _ :=
          getElem?_sent_append (Nat.le_of_lt short)
        refine next.trans ?_
        rw [List.getElem?_take_of_lt some', pending, IoVec.getElem?_cells,
          if_pos (by dsimp only; omega)]
        simp [Cell.add]
      have within : sent + socket.taken i c ≤ r.total := by
        unfold Socket.taken
        omega
      have after := (finishes_succ rfl within).mp finishes
      split at after
      · exact Response.not_prefix before wrong ⟨[], by rw [List.append_nil, after]⟩
      · exact not_finishes_of_file before wrong after
    | false =>
      have pending : c.pending = [] := by
        rw [atC, Response.pending_body, present, if_neg Bool.false_ne_true]
      have none : socket.taken i c = 0 := by
        unfold Socket.taken
        rw [pending] at takes ⊢
        exact Nat.le_zero.mp takes
      have after := (finishes_succ none (Nat.le_of_lt short)).mp finishes
      rw [if_neg (Nat.ne_of_lt short : sent + 0 ≠ r.total), List.take_zero, List.append_nil,
        Response.account_after (Nat.le_of_lt short) (by simp), if_pos (Nat.zero_le _)] at after
      exact ih after

/-- A rest of the header that is too short leaves some of its bytes out. -/
theorem not_finishes_short {len : ℕ} (some' : 0 < len) (short : sent + len < r.header.length) :
    ¬ Finishes socket rounds i (r.after sent ⟨.writeBuf sent, len⟩ r.conn.iv1)
      (r.cells.take sent) r.cells := by
  have large : r.header.length + r.fileSize = r.total := rfl
  induction rounds generalizing i sent len with
  | zero => exact not_finishes_zero
  | succ rounds ih =>
    intro finishes
    set c := r.after sent ⟨.writeBuf sent, len⟩ r.conn.iv1 with atC
    have pending : c.pending =
        IoVec.cells ⟨.writeBuf sent, len⟩ ++ IoVec.cells ⟨.file 0, r.fileSize⟩ := by
      rw [atC, Response.pending_header]
    have given : c.pending.length = len + r.fileSize := by
      rw [pending, List.length_append, IoVec.length_cells, IoVec.length_cells]
    have takes : socket.taken i c ≤ len + r.fileSize := given ▸ socket.bounded i _
    have within : sent + socket.taken i c ≤ r.total := by omega
    have part : sent + socket.taken i c ≠ r.total := by omega
    have after := (finishes_succ rfl within).mp finishes
    rw [if_neg part] at after
    by_cases fits : socket.taken i c ≤ len
    · have joined : r.cells.take sent ++ c.pending.take (socket.taken i c) =
          r.cells.take (sent + socket.taken i c) := by
        rw [List.take_add, pending, Response.drop_header (by omega),
          List.take_append_of_le_length (by simpa using fits),
          List.take_append_of_le_length (by simp; omega), IoVec.cells_take _ _ fits,
          IoVec.cells_take _ _ (by dsimp only; omega)]
      rw [joined, Response.account_after within (by have := r.total_lt; dsimp only; omega)] at after
      split at after
      case isTrue => exact not_finishes_astray (by omega) after
      case isFalse rest =>
        have rest : sent + socket.taken i c < len := Nat.lt_of_not_le rest
        exact ih (by dsimp only; omega) (by dsimp only; omega) after
    · have wrong : (r.cells.take sent ++ c.pending.take (socket.taken i c))[sent + len]? =
          some (.file 0) := by
        rw [getElem?_sent_append (by omega), List.getElem?_take_of_lt (by omega), pending,
          List.getElem?_append_right (by simp), IoVec.getElem?_cells, IoVec.length_cells,
          if_pos (by dsimp only; omega)]
        simp [Cell.add]
      exact not_finishes_of_file short wrong after

/-! ### The result -/

theorem delivers_iff_finishes : Delivers socket r ↔
    ∃ rounds, Finishes socket rounds 0 r.conn [] r.cells := by
  have left : r.conn.bytesToSend ≠ 0 := by
    have header := r.nonempty
    have all : r.total = r.header.length + r.fileSize := rfl
    rw [r.conn_counters.2]
    omega
  unfold Delivers Conn.write
  simp only [if_neg left]
  rfl

/-- A round of the loop, for any number of rounds. -/
theorem exists_finishes (taken : socket.taken i (r.after sent iv0 iv1) = n)
    (within : sent + n ≤ r.total) :
    (∃ rounds, Finishes socket rounds i (r.after sent iv0 iv1) done out) ↔
      if sent + n = r.total then done ++ (r.after sent iv0 iv1).pending.take n = out
      else ∃ rounds, Finishes socket rounds (i + 1) ((r.after sent iv0 iv1).account n)
        (done ++ (r.after sent iv0 iv1).pending.take n) out := by
  constructor
  · rintro ⟨rounds, finishes⟩
    cases rounds with
    | zero => exact absurd finishes not_finishes_zero
    | succ rounds =>
      have after := (finishes_succ taken within).mp finishes
      split
      case isTrue all => rwa [if_pos all] at after
      case isFalse more => exact ⟨rounds, by rwa [if_neg more] at after⟩
  · intro after
    split at after
    case isTrue all => exact ⟨1, (finishes_succ taken within).mpr (by rwa [if_pos all])⟩
    case isFalse more =>
      obtain ⟨rounds, finishes⟩ := after
      exact ⟨rounds + 1, (finishes_succ taken within).mpr (by rwa [if_neg more])⟩

/-- A round that starts in the header with the whole rest pending. -/
theorem exists_finishes_header (before : sent < r.header.length)
    (taken : socket.accepts i (r.total - sent) = n) :
    (∃ rounds, Finishes socket rounds i
      (r.after sent ⟨.writeBuf sent, r.header.length - sent⟩ r.conn.iv1)
      (r.cells.take sent) r.cells) ↔
      r.header.length ≤ sent + n ∨ ∃ rounds, Finishes socket rounds (i + 1)
        ((r.after sent ⟨.writeBuf sent, r.header.length - sent⟩ r.conn.iv1).account n)
        (r.cells.take (sent + n)) r.cells := by
  have large : r.header.length + r.fileSize = r.total := rfl
  have pending : (r.after sent ⟨.writeBuf sent, r.header.length - sent⟩ r.conn.iv1).pending =
      r.cells.drop sent := by
    rw [Response.pending_header, Response.drop_header (Nat.le_of_lt before)]
  have takes : socket.taken i (r.after sent ⟨.writeBuf sent, r.header.length - sent⟩ r.conn.iv1) =
      n := by
    rw [Socket.taken, pending, List.length_drop, Response.length_cells, taken]
  have within : sent + n ≤ r.total := by
    have := socket.bounded i (r.total - sent)
    omega
  rw [exists_finishes takes within, pending, ← List.take_add]
  by_cases all : sent + n = r.total
  · rw [if_pos all, all]
    have whole : r.cells.take r.total = r.cells :=
      List.take_of_length_le (by rw [Response.length_cells])
    exact iff_of_true whole (.inl (by omega))
  · rw [if_neg all]
    refine ⟨.inr, fun ends => ends.elim (fun past => ?_) id⟩
    have short : r.header.length - sent < 2 ^ 64 := by
      have := r.total_lt
      omega
    rw [Response.account_after within short, if_pos (by dsimp only; omega)]
    exact exists_finishes_body past (Nat.lt_of_le_of_ne within all)

/-- The first call of `writev` takes part of the header. -/
theorem delivers_iff_second {first : ℕ} (taken : socket.accepts 0 r.total = first)
    (part : first < r.header.length) : Delivers socket r ↔
      ∃ rounds, Finishes socket rounds 1
        (r.after first ⟨.writeBuf first, r.header.length - first⟩ r.conn.iv1)
        (r.cells.take first) r.cells := by
  have large : r.header.length + r.fileSize = r.total := rfl
  have small := r.total_lt
  have round := exists_finishes_header (i := 0) r.nonempty taken
  have whole : r.conn = r.after 0 ⟨.writeBuf (0 : ℕ), r.header.length - 0⟩ r.conn.iv1 := r.conn_eq
  rw [Response.account_after (by omega) (by dsimp only; omega), Nat.zero_add, Nat.sub_zero,
    if_neg (Nat.not_le_of_lt part)] at round
  rw [delivers_iff_finishes, whole]
  exact round.trans (or_iff_right (Nat.not_le_of_lt part))

/-- The header is out after two calls, and the file follows. -/
theorem delivers_of_le (socket : Socket) (r : Response)
    (reaches : r.header.length ≤
      socket.accepts 0 r.total + socket.accepts 1 (r.total - socket.accepts 0 r.total)) :
    Delivers socket r := by
  obtain ⟨first, isFirst⟩ : ∃ n, socket.accepts 0 r.total = n := ⟨_, rfl⟩
  rw [isFirst] at reaches
  by_cases past : r.header.length ≤ first
  · rw [delivers_iff_finishes, r.conn_eq]
    exact (exists_finishes_header r.nonempty isFirst).mpr (.inl (by omega))
  · have part : first < r.header.length := Nat.lt_of_not_le past
    rw [delivers_iff_second isFirst part, exists_finishes_header part rfl]
    exact .inl reaches

/-- Part of the header is left out, or bytes before the file are sent, or the loop
does not end. -/
theorem not_delivers_of_lt (socket : Socket) (r : Response)
    (missing : socket.accepts 0 r.total + socket.accepts 1 (r.total - socket.accepts 0 r.total) <
      r.header.length) : ¬ Delivers socket r := by
  have large : r.header.length + r.fileSize = r.total := rfl
  have small := r.total_lt
  obtain ⟨first, isFirst⟩ : ∃ n, socket.accepts 0 r.total = n := ⟨_, rfl⟩
  obtain ⟨second, isSecond⟩ : ∃ n, socket.accepts 1 (r.total - first) = n := ⟨_, rfl⟩
  have some' : 0 < first := isFirst ▸ socket.positive 0 r.total (by omega)
  rw [isFirst, isSecond] at missing
  have part : first < r.header.length := by omega
  rw [delivers_iff_second isFirst part, exists_finishes_header part isSecond]
  rintro (reaches | ⟨rounds, finishes⟩)
  · omega
  · rw [Response.account_after (by omega) (by dsimp only; omega)] at finishes
    split at finishes
    case isTrue => exact not_finishes_astray missing finishes
    case isFalse rest =>
      have rest : first + second < r.header.length - first := Nat.lt_of_not_le rest
      exact not_finishes_short (by dsimp only; omega) (by dsimp only; omega) finishes

/-- A response is delivered exactly when the first two calls of `writev` take its
whole header block. -/
theorem delivers_iff (socket : Socket) (r : Response) : Delivers socket r ↔
    r.header.length ≤
      socket.accepts 0 r.total + socket.accepts 1 (r.total - socket.accepts 0 r.total) :=
  ⟨fun delivers => Nat.le_of_not_lt fun missing => not_delivers_of_lt socket r missing delivers,
    delivers_of_le socket r⟩

/-- A socket that takes one byte at a time. -/
def slowSocket : Socket where
  accepts _ given := min given 1
  bounded _ given := Nat.min_le_left given 1
  positive _ _ given := Nat.lt_min.mpr ⟨given, Nat.one_pos⟩

/-- The answer to a bad request on a new connection. -/
def badRequestPage : Bool × Conn :=
  (Conn.init ⟨[], ⟨.writeBuf 0, 0⟩, ⟨.file 0, 0⟩, 0, 0, 0, true⟩).processWrite .badRequest 0

/-- The page for a bad request is not delivered byte by byte. -/
theorem skips_header : ¬ ∀ (socket : Socket) (r : Response), Delivers socket r := by
  intro delivers
  have prepared : badRequestPage.1 = true := by decide +kernel
  obtain ⟨r, isPage⟩ := Conn.exists_response (Nat.zero_le _) prepared
  have length : badRequestPage.2.writeBuf.length = 117 := by decide +kernel
  have header : badRequestPage.2.writeBuf = r.header := by
    rw [badRequestPage, isPage, Response.writeBuf_conn]
  refine not_delivers_of_lt slowSocket r ?_ (delivers slowSocket r)
  rw [← header, length]
  have first : slowSocket.accepts 0 r.total ≤ 1 := Nat.min_le_right _ _
  have second : slowSocket.accepts 1 (r.total - slowSocket.accepts 0 r.total) ≤ 1 :=
    Nat.min_le_right _ _
  omega

end CoroutineService.Http
