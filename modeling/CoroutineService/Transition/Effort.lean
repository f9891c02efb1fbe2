import CoroutineService.Transition.Machine
import Mathlib.Algebra.BigOperators.Group.Finset.Basic
import Mathlib.Algebra.Order.BigOperators.Group.Finset

/-!
# How long a machine can go on

When every phase of a thread has a rank, the effort that is left is the sum of the ranks. A
machine whose moves all take some of it comes to rest.

## Main definitions

* `effort`: the sum of the ranks of the members' phases

## Main results

* `effort_update`: one thread's move
* `Machine.length_le_of_drops`: a schedule is not longer than a measure its moves lower
-/

set_option autoImplicit false

namespace CoroutineService.Transition

variable {ι φ : Type*} {members : Finset ι} {rank : φ → ℕ} {phase : ι → φ} {i : ι} {v : φ}

/-- The sum of the ranks of the members' phases. -/
def effort (members : Finset ι) (rank : φ → ℕ) (phase : ι → φ) : ℕ :=
  ∑ i ∈ members, rank (phase i)

theorem effort_le {k : ℕ} (bounded : ∀ v, rank v ≤ k) :
    effort members rank phase ≤ members.card * k := by
  have bound := Finset.sum_le_card_nsmul members (fun i => rank (phase i)) k fun i _ =>
    bounded (phase i)
  simpa [effort] using bound

/-- A thread exchanges the rank of its phase for that of the next. -/
theorem effort_update [DecidableEq ι] (member : i ∈ members) :
    effort members rank (Function.update phase i v) + rank (phase i) =
      effort members rank phase + rank v := by
  have others : ∑ j ∈ members.erase i, rank (Function.update phase i v j) =
      ∑ j ∈ members.erase i, rank (phase j) := by
    refine Finset.sum_congr rfl fun j mem => ?_
    rw [Function.update_of_ne (Finset.ne_of_mem_erase mem)]
  have before := Finset.add_sum_erase members (fun j => rank (phase j)) member
  have after := Finset.add_sum_erase members (fun j => rank (Function.update phase i v j)) member
  simp only [Function.update_self, others] at after
  simp only [effort]
  omega

namespace Machine

variable {σ α : Type*} {M : Machine σ α} {permitted : σ → α → Prop} {I : σ → Prop} {s : σ}

/-- A schedule is not longer than a measure that each of its moves lowers. -/
theorem length_le_of_drops {μ : σ → ℕ} {schedule : List α}
    (preserved : ∀ s a, I s → M.enabled s a → permitted s a → I (M.next s a))
    (drops : ∀ s a, I s → M.enabled s a → permitted s a → μ (M.next s a) < μ s) (holds : I s)
    (follows : M.Follows permitted s schedule) : schedule.length ≤ μ s := by
  induction schedule generalizing s with
  | nil => exact Nat.zero_le _
  | cons a rest ih =>
    obtain ⟨available, allowed, onward⟩ := follows
    have later := ih (preserved s a holds available allowed) onward
    have dropped := drops s a holds available allowed
    rw [List.length_cons]
    omega

end Machine

end CoroutineService.Transition
