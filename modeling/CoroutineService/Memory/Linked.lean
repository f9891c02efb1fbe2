import Mathlib.Data.List.Nodup
import Mathlib.Logic.Function.Basic

/-!
# Lists linked through memory

A list whose elements are addresses can be threaded through the memory at these addresses:
each holds the address of the next, and the last holds a null pointer.

## Main definitions

* `Linked`: the list that begins at an address

## Main results

* `Linked.frame`: memory elsewhere does not matter
* `Linked.push`, `Linked.pop`: the front of the list
* `Linked.unique`, `Linked.nodup`: the list is determined by its head, and does not come back
* `Linked.unlink`: an element is taken out
-/

set_option autoImplicit false

namespace CoroutineService.Memory

variable {α : Type*} {next next' : α → α} {null head x : α} {l : List α}

/-- From `head` on, the pointers in `next` lead through the elements of `l`. -/
def Linked (next : α → α) (null : α) : α → List α → Prop
  | head, [] => head = null
  | head, x :: rest => head = x ∧ x ≠ null ∧ Linked next null (next x) rest

namespace Linked

/-- The pointers in the elements of the list alone matter. -/
theorem frame (linked : Linked next null head l) (same : ∀ x ∈ l, next' x = next x) :
    Linked next' null head l := by
  induction l generalizing head with
  | nil => exact linked
  | cons y rest ih =>
    obtain ⟨first, proper, onward⟩ := linked
    refine ⟨first, proper, ?_⟩
    rw [same y List.mem_cons_self]
    exact ih onward fun x mem => same x (List.mem_cons_of_mem y mem)

/-- A list that does not begin with a null pointer has its first element there. -/
theorem pop (linked : Linked next null head l) (some : head ≠ null) :
    ∃ rest, l = head :: rest ∧ Linked next null (next head) rest := by
  cases l with
  | nil => exact absurd linked some
  | cons y rest =>
    obtain ⟨rfl, -, onward⟩ := linked
    exact ⟨rest, rfl, onward⟩

theorem eq_nil (linked : Linked next null null l) : l = [] := by
  cases l with
  | nil => rfl
  | cons y rest => exact absurd linked.1.symm linked.2.1

/-- A head begins one list. -/
theorem unique {l' : List α} (linked : Linked next null head l)
    (linked' : Linked next null head l') : l = l' := by
  induction l generalizing head l' with
  | nil =>
    obtain rfl : head = null := linked
    exact linked'.eq_nil.symm
  | cons y rest ih =>
    obtain ⟨rfl, proper, onward⟩ := linked
    obtain ⟨rest', rfl, onward'⟩ := linked'.pop proper
    rw [ih onward onward']

/-- An element begins the rest of the list. -/
theorem suffix {before after : List α} (linked : Linked next null head (before ++ x :: after)) :
    Linked next null x (x :: after) := by
  induction before generalizing head with
  | nil =>
    obtain ⟨rfl, proper, onward⟩ := linked
    exact ⟨rfl, proper, onward⟩
  | cons y before ih =>
    obtain ⟨-, -, onward⟩ := linked
    exact ih onward

theorem nodup (linked : Linked next null head l) : l.Nodup := by
  induction l generalizing head with
  | nil => exact List.nodup_nil
  | cons y rest ih =>
    obtain ⟨rfl, proper, onward⟩ := linked
    refine List.nodup_cons.mpr ⟨fun again => ?_, ih onward⟩
    obtain ⟨before, after, rfl⟩ := List.append_of_mem again
    -- the rest from there on would be the whole list
    have whole : Linked next null head (head :: (before ++ head :: after)) := ⟨rfl, proper, onward⟩
    have length := congrArg List.length (onward.suffix.unique whole)
    simp at length
    omega

variable [DecidableEq α]

/-- A write elsewhere. -/
theorem update (linked : Linked next null head l) (elsewhere : x ∉ l) (value : α) :
    Linked (Function.update next x value) null head l :=
  linked.frame fun _ mem => Function.update_of_ne (ne_of_mem_of_not_mem mem elsewhere) _ _

/-- A new first element points to the former one. -/
theorem push (linked : Linked next null head l) (fresh : x ∉ l) (proper : x ≠ null) :
    Linked (Function.update next x head) null x (x :: l) := by
  refine ⟨rfl, proper, ?_⟩
  rw [Function.update_self]
  exact linked.update fresh head

/-- The element before `x` comes to point to the one behind it. -/
theorem unlink {before after : List α}
    (linked : Linked next null head (head :: before ++ x :: after)) :
    Linked (Function.update next ((head :: before).getLast (List.cons_ne_nil _ _)) (next x)) null
      head (head :: before ++ after) := by
  have nodup := linked.nodup
  induction before generalizing head with
  | nil =>
    obtain ⟨-, proper, pointer, -, onward⟩ := linked
    refine ⟨rfl, proper, ?_⟩
    have elsewhere : head ∉ after := fun mem =>
      (List.nodup_cons.mp nodup).1 (List.mem_cons_of_mem x mem)
    rw [List.getLast_singleton, Function.update_self]
    exact onward.update elsewhere (next x)
  | cons y before ih =>
    obtain ⟨-, proper, rfl, onward⟩ := linked
    obtain ⟨fresh, nodup⟩ := List.nodup_cons.mp nodup
    have rest := ih ⟨rfl, onward⟩ nodup
    refine ⟨rfl, proper, ?_⟩
    have last := List.getLast_mem (List.cons_ne_nil (next head) before)
    have other : head ≠ (next head :: before).getLast (List.cons_ne_nil _ _) :=
      (ne_of_mem_of_not_mem (List.mem_append_left _ last) fresh).symm
    rw [List.getLast_cons (List.cons_ne_nil _ _), Function.update_of_ne other]
    exact rest

end Linked

end CoroutineService.Memory
