import Mathlib.Algebra.Order.BigOperators.Group.List
import Mathlib.Algebra.Order.Ring.Int
import Mathlib.Data.List.Infix
import Mathlib.Data.UInt

/-!
# Vectored transfers

`SSLSocket::send` and `SSLSocket::recv` for several buffers call `SSL_write` and `SSL_read` for
one after another, as long as a call transfers the whole of its buffer. A call that fails ends
the transfer with its own result, whatever the calls before it have transferred.

## Main definitions

* `Transfer`: a buffer, and what the call for it returns
* `transfer`, `SSLSocket.send`, `SSLSocket.recv`: the loop and its two uses
* `Reports`: the result tells how much of the buffers has been transferred
* `Transfers`: no call fails late, and no count overflows

## Main results

* `transfers_iff`: results are right for these transfers only
* `not_transfers`: the second call fails
-/

set_option autoImplicit false

namespace CoroutineService.Socket

/-- `(int)iov_len`. -/
def num (iovLen : UInt64) : ℤ := (iovLen.toNat : ℤ).bmod (2 ^ 32)

/-- An `iovec`, and the answer of `SSL_write` or `SSL_read` when it is called for the buffer. A
positive answer is the number of bytes transferred. -/
structure Transfer where
  iovLen : UInt64
  answer : ℤ
  possible : answer ≤ max 0 (num iovLen)

/-- What a transfer returns, unless its count overflows, and the bytes it has transferred: each
by the number of its buffer and its place there. -/
structure Outcome where
  result : Option ℤ
  moved : List (ℕ × ℕ)
  deriving DecidableEq, Repr

/-- The first `n` bytes of the buffer `i`. -/
def bytesOf (i n : ℕ) : List (ℕ × ℕ) := (List.range n).map fun k => (i, k)

/-- The loop from the buffer `i` on. -/
def transferFrom (i : ℕ) (total : ℤ) (moved : List (ℕ × ℕ)) : List Transfer → Outcome
  | [] => ⟨some total, moved⟩
  | t :: buffers =>
    let tmp := t.answer
    if tmp ≤ 0 then ⟨some tmp, moved⟩
    else
      let moved := moved ++ bytesOf i tmp.toNat
      if 2 ^ 31 ≤ total + tmp then ⟨none, moved⟩
      else if tmp ≠ num t.iovLen then ⟨some (total + tmp), moved⟩
      else transferFrom (i + 1) (total + tmp) moved buffers

/-- Both functions, with an `m_ssl` or without. -/
def transfer (ssl : Bool) (buffers : List Transfer) : Outcome :=
  if ssl then transferFrom 0 0 [] buffers else ⟨some (-1), []⟩

/-- `SSLSocket::send` for several buffers, with the answers of `SSL_write`. -/
def SSLSocket.send (ssl : Bool) (buffers : List Transfer) : Outcome := transfer ssl buffers

/-- `SSLSocket::recv` for several buffers, with the answers of `SSL_read`. -/
def SSLSocket.recv (ssl : Bool) (buffers : List Transfer) : Outcome := transfer ssl buffers

/-! ### What a result tells -/

/-- The bytes of the buffers from number `i` on. -/
def room (i : ℕ) : List Transfer → List (ℕ × ℕ)
  | [] => []
  | t :: buffers => bytesOf i t.iovLen.toNat ++ room (i + 1) buffers

/-- A result that is not negative counts the bytes that have been transferred, and these come
first in the buffers; a negative result tells that there are none. -/
def Reports (buffers : List Transfer) (outcome : Outcome) : Prop :=
  ∃ result, outcome.result = some result ∧
    (0 ≤ result → outcome.moved <+: room 0 buffers ∧ (outcome.moved.length : ℤ) = result) ∧
      (result < 0 → outcome.moved = [])

/-- The whole buffer is transferred, as far as `tmp != (int)iov_len` can tell. -/
def Transfer.Full (t : Transfer) : Prop := 0 < t.answer ∧ t.answer = num t.iovLen

instance (t : Transfer) : Decidable t.Full := inferInstanceAs (Decidable (_ ∧ _))

/-- The calls that transfer something: those for full buffers, and one more that may fall
short. -/
def moving : List Transfer → List Transfer
  | [] => []
  | t :: buffers =>
    if t.answer ≤ 0 then [] else if t.Full then t :: moving buffers else [t]

/-- The answer of a call that fails, if the loop comes to one. -/
def failure : List Transfer → Option ℤ
  | [] => none
  | t :: buffers =>
    if t.answer ≤ 0 then some t.answer else if t.Full then failure buffers else none

/-- A call fails at the beginning only, buffers that are followed by others are shorter than
2 GiB, and so is what is transferred. -/
structure Transfers (buffers : List Transfer) : Prop where
  early : failure buffers = none ∨ moving buffers = []
  small : ∀ t ∈ (moving buffers).dropLast, t.iovLen.toNat < 2 ^ 31
  total : ((moving buffers).map Transfer.answer).sum < 2 ^ 31

/-! ### What the loop transfers -/

section

variable {buffers : List Transfer} {t : Transfer}

theorem positive_of_moving (mem : t ∈ moving buffers) : 0 < t.answer := by
  induction buffers with
  | nil => exact absurd mem List.not_mem_nil
  | cons u buffers ih =>
    rw [moving] at mem
    split at mem
    · exact absurd mem List.not_mem_nil
    · split at mem
      case isTrue full =>
        rcases List.mem_cons.mp mem with rfl | later
        · exact full.1
        · exact ih later
      case isFalse positive _ =>
        obtain rfl := List.mem_singleton.mp mem
        exact not_le.mp positive

theorem sum_nonneg (buffers : List Transfer) :
    0 ≤ ((moving buffers).map Transfer.answer).sum := by
  refine List.sum_nonneg fun n mem => ?_
  obtain ⟨t, moves, rfl⟩ := List.mem_map.mp mem
  exact (positive_of_moving moves).le

theorem nonpos_of_failure {e : ℤ} (fails : failure buffers = some e) : e ≤ 0 := by
  induction buffers with
  | nil => cases fails
  | cons u buffers ih =>
    rw [failure] at fails
    split at fails
    case isTrue nonpos =>
      cases fails
      exact nonpos
    case isFalse =>
      split at fails
      · exact ih fails
      · cases fails

/-- The bytes that calls transfer, for buffers from number `i` on. -/
def movedBy (i : ℕ) : List Transfer → List (ℕ × ℕ)
  | [] => []
  | t :: buffers => bytesOf i t.answer.toNat ++ movedBy (i + 1) buffers

/-- The loop sums up the answers, unless one of them ends it. -/
theorem transferFrom_eq (i : ℕ) {total : ℤ} (moved : List (ℕ × ℕ))
    (fits : total + ((moving buffers).map Transfer.answer).sum < 2 ^ 31) :
    transferFrom i total moved buffers =
      ⟨some ((failure buffers).getD (total + ((moving buffers).map Transfer.answer).sum)),
        moved ++ movedBy i (moving buffers)⟩ := by
  induction buffers generalizing i total moved with
  | nil => simp [transferFrom, failure, moving, movedBy]
  | cons t buffers ih =>
    have rest := sum_nonneg buffers
    unfold transferFrom moving failure
    unfold moving at fits
    by_cases fails : t.answer ≤ 0
    · simp [fails, movedBy]
    · rw [if_neg fails] at fits
      dsimp only
      rw [if_neg fails, if_neg fails, if_neg fails]
      by_cases full : t.Full
      · rw [if_pos full, List.map_cons, List.sum_cons] at fits
        rw [if_neg (by omega), if_neg (not_not.mpr full.2), ih _ _ (by omega), if_pos full,
          if_pos full]
        simp [movedBy, add_assoc]
      · rw [if_neg full, List.map_singleton, List.sum_singleton] at fits
        have short : t.answer ≠ num t.iovLen := fun same => full ⟨not_le.mp fails, same⟩
        rw [if_neg (by omega), if_pos short, if_neg full, if_neg full]
        simp [movedBy]

theorem result_of_overflow (i : ℕ) {total : ℤ} (moved : List (ℕ × ℕ)) (small : total < 2 ^ 31)
    (overflows : 2 ^ 31 ≤ total + ((moving buffers).map Transfer.answer).sum) :
    (transferFrom i total moved buffers).result = none := by
  induction buffers generalizing i total moved with
  | nil =>
    simp [moving] at overflows
    omega
  | cons t buffers ih =>
    unfold transferFrom
    unfold moving at overflows
    dsimp only
    by_cases fails : t.answer ≤ 0
    · rw [if_pos fails] at overflows
      simp at overflows
      omega
    · rw [if_neg fails] at overflows ⊢
      by_cases now : 2 ^ 31 ≤ total + t.answer
      · rw [if_pos now]
      · rw [if_neg now]
        by_cases full : t.Full
        · rw [if_pos full, List.map_cons, List.sum_cons] at overflows
          rw [if_neg (not_not.mpr full.2)]
          exact ih _ _ (not_le.mp now) (by omega)
        · rw [if_neg full, List.map_singleton, List.sum_singleton] at overflows
          exact absurd overflows now

/-! ### What comes first in the buffers -/

theorem bytesOf_add (i m n : ℕ) :
    bytesOf i (m + n) = bytesOf i m ++ (List.range n).map fun k => (i, m + k) := by
  simp [bytesOf, List.range_add]

@[simp]
theorem length_bytesOf (i n : ℕ) : (bytesOf i n).length = n := by
  simp [bytesOf]

/-- Bytes of a part of the buffer come first. -/
theorem bytesOf_prefix (i : ℕ) {m n : ℕ} (le : m ≤ n) (rest : List (ℕ × ℕ)) :
    bytesOf i m <+: bytesOf i n ++ rest := by
  obtain ⟨k, rfl⟩ := Nat.exists_eq_add_of_le le
  rw [bytesOf_add, List.append_assoc]
  exact List.prefix_append _ _

/-- The next buffer does not follow a part of this one. -/
theorem not_prefix_of_lt {i m n k : ℕ} (lt : m < n) (rest rest' : List (ℕ × ℕ)) :
    ¬bytesOf i m ++ (i + 1, k) :: rest <+: bytesOf i n ++ rest' := by
  obtain ⟨l, rfl⟩ := Nat.exists_eq_add_of_le lt
  rw [Nat.succ_eq_add_one, Nat.add_assoc, bytesOf_add, List.append_assoc,
    List.prefix_append_right_inj, Nat.add_comm 1 l, List.range_succ_eq_map]
  simp

/-- The bytes that another call transfers begin with the next buffer. -/
theorem movedBy_moving (i : ℕ) (some : moving buffers ≠ []) :
    ∃ rest, movedBy i (moving buffers) = (i, 0) :: rest := by
  obtain ⟨t, later, same⟩ := List.exists_cons_of_ne_nil some
  have positive : 0 < t.answer := positive_of_moving (same ▸ List.mem_cons_self)
  obtain ⟨n, answer⟩ := Nat.exists_eq_succ_of_ne_zero (show t.answer.toNat ≠ 0 by omega)
  rw [same, movedBy, answer, bytesOf, List.range_succ_eq_map]
  exact ⟨_, rfl⟩

/-- A call transfers no more than its buffer, and the whole of a full buffer if the length of
this is an `int`. -/
theorem answer_le (t : Transfer) (positive : 0 < t.answer) :
    t.answer.toNat ≤ t.iovLen.toNat ∧
      (t.Full → (t.answer.toNat = t.iovLen.toNat ↔ t.iovLen.toNat < 2 ^ 31)) := by
  have bound := t.possible
  have size : num t.iovLen = (t.iovLen.toNat : ℤ).bmod (2 ^ 32) := rfl
  rw [Int.bmod_def] at size
  constructor
  · split at size
    · omega
    · omega
  · rintro ⟨-, same⟩
    split at size
    · omega
    · omega

theorem moved_prefix_iff (i : ℕ) : movedBy i (moving buffers) <+: room i buffers ↔
    ∀ t ∈ (moving buffers).dropLast, t.iovLen.toNat < 2 ^ 31 := by
  induction buffers generalizing i with
  | nil => simp [moving, movedBy]
  | cons t buffers ih =>
    unfold moving room
    by_cases fails : t.answer ≤ 0
    · simp [fails, movedBy]
    · obtain ⟨le, whole⟩ := answer_le t (not_le.mp fails)
      have alone : movedBy i [t] <+: bytesOf i t.iovLen.toNat ++ room (i + 1) buffers := by
        simpa [movedBy] using bytesOf_prefix i le _
      rw [if_neg fails]
      by_cases full : t.Full
      · rw [if_pos full]
        by_cases last : moving buffers = []
        · rw [last]
          exact iff_of_true alone (by simp)
        · rw [List.dropLast_cons_of_ne_nil last, List.forall_mem_cons, ← ih (i + 1), ← whole full,
            movedBy]
          rcases le.lt_or_eq with short | same
          · obtain ⟨rest, next⟩ := movedBy_moving (i + 1) last
            rw [next]
            exact iff_of_false (not_prefix_of_lt short _ _) fun long => short.ne long.1
          · rw [same, List.prefix_append_right_inj]
            simp
      · rw [if_neg full]
        exact iff_of_true alone (by simp)

/-- As many bytes are transferred as the answers say. -/
theorem length_movedBy (i : ℕ) :
    ((movedBy i (moving buffers)).length : ℤ) = ((moving buffers).map Transfer.answer).sum := by
  have positive : ∀ t ∈ moving buffers, 0 < t.answer := fun t mem => positive_of_moving mem
  generalize moving buffers = calls at positive
  induction calls generalizing i with
  | nil => rfl
  | cons t calls ih =>
    obtain ⟨now, later⟩ := List.forall_mem_cons.mp positive
    rw [movedBy, List.length_append, length_bytesOf, List.map_cons, List.sum_cons,
      ← ih (i + 1) later]
    omega

theorem reports_transferFrom_iff :
    Reports buffers (transferFrom 0 0 [] buffers) ↔ Transfers buffers := by
  by_cases fits : ((moving buffers).map Transfer.answer).sum < 2 ^ 31
  · rw [transferFrom_eq 0 [] (by omega), zero_add, List.nil_append]
    cases fails : failure buffers with
    | none =>
      rw [Option.getD_none]
      constructor
      · rintro ⟨_, ⟨⟩, counted, -⟩
        exact ⟨.inl fails, (moved_prefix_iff 0).mp (counted (sum_nonneg buffers)).1, fits⟩
      · rintro ⟨-, small, -⟩
        refine ⟨_, rfl, fun _ => ⟨(moved_prefix_iff 0).mpr small, length_movedBy 0⟩, ?_⟩
        intro negative
        exact absurd negative (not_lt.mpr (sum_nonneg buffers))
    | some e =>
      rw [Option.getD_some]
      have nonpos := nonpos_of_failure fails
      by_cases nothing : moving buffers = []
      · rw [nothing]
        refine iff_of_true ⟨e, rfl, fun nonneg => ?_, fun _ => rfl⟩ ⟨.inr nothing, ?_, fits⟩
        · exact ⟨List.nil_prefix, le_antisymm nonneg nonpos⟩
        · simp [nothing]
      · obtain ⟨rest, moved⟩ := movedBy_moving 0 nothing
        rw [moved]
        refine iff_of_false ?_ fun transfers => ?_
        · rintro ⟨_, ⟨⟩, counted, uncounted⟩
          rcases lt_or_ge e 0 with negative | nonneg
          · exact absurd (uncounted negative) (List.cons_ne_nil _ _)
          · have length := (counted nonneg).2
            rw [List.length_cons] at length
            omega
        · rcases transfers.early with none | some
          · cases fails.symm.trans none
          · exact nothing some
  · have undefined : (transferFrom 0 0 [] buffers).result = none :=
      result_of_overflow 0 [] (by decide) (by omega)
    refine iff_of_false ?_ fun transfers => fits transfers.total
    rintro ⟨result, computed, -⟩
    cases undefined.symm.trans computed

end

/-- Both functions report what they have transferred unless a call fails after others, or a
length or the count is not an `int`. Without an `m_ssl` they transfer nothing. -/
theorem transfers_iff (ssl : Bool) (buffers : List Transfer) :
    (Reports buffers (SSLSocket.send ssl buffers) ↔ (ssl = true → Transfers buffers)) ∧
      (Reports buffers (SSLSocket.recv ssl buffers) ↔ (ssl = true → Transfers buffers)) := by
  have both : Reports buffers (transfer ssl buffers) ↔ (ssl = true → Transfers buffers) := by
    cases ssl with
    | true =>
      rw [transfer, if_pos rfl, reports_transferFrom_iff]
      exact ⟨fun transfers _ => transfers, fun transfers => transfers rfl⟩
    | false =>
      have nothing : Reports buffers ⟨some (-1), []⟩ :=
        ⟨-1, rfl, fun nonneg => absurd nonneg (by decide), fun _ => rfl⟩
      exact iff_of_true nothing nofun
  exact ⟨both, both⟩

/-- Three bytes are written, and the next call fails. -/
theorem not_transfers : ¬ ∀ buffers, Reports buffers (SSLSocket.send true buffers) := by
  intro reports
  obtain ⟨result, computed, -, negative⟩ :=
    reports [⟨3, 3, by decide⟩, ⟨2, -1, by decide⟩]
  obtain rfl : -1 = result := Option.some_inj.mp computed
  exact absurd (negative (by decide)) (by decide)

end CoroutineService.Socket
