import Mathlib.Order.Lattice
import Mathlib.Data.List.Basic

/-!
# Sets ordered by a key

A search tree that compares its elements by a key alone, as `std::set` does with
a comparator, cannot hold two elements of one key: it refuses the second, and a
lookup finds whichever element has the key looked for. The tree is represented by
its elements in order.

## Main definitions

* `insertBy`, `findBy`, `eraseBy`: the operations of the set
* `SortedBy`: the representation invariant

## Main results

* `mem_insertBy`: an element of a new key is added to the others
* `insertBy_of_mem`: an element of a key already present is refused
* `SortedBy.mem_eraseBy`: erasing by key removes the element of that key
-/

set_option autoImplicit false

namespace CoroutineService.Containers

variable {ι κ : Type*} [LinearOrder κ] {key key' : ι → κ} {l : List ι} {x y z : ι}

/-- Insert `x` at its place, unless an element of its key is there. -/
def insertBy (key : ι → κ) (x : ι) : List ι → List ι
  | [] => [x]
  | y :: rest =>
    if key x < key y then x :: y :: rest
    else if key y < key x then y :: insertBy key x rest
    else y :: rest

/-- The element with the key of `x`. -/
def findBy (key : ι → κ) (x : ι) (l : List ι) : Option ι := l.find? fun y => key y = key x

/-- Erase what `findBy` finds. -/
def eraseBy (key : ι → κ) (x : ι) (l : List ι) : List ι := l.eraseP fun y => key y = key x

/-- The elements stand in order, and no two have the same key. -/
def SortedBy (key : ι → κ) (l : List ι) : Prop := l.Pairwise fun x y => key x < key y

/-- Nothing but the new element comes in. -/
theorem mem_of_mem_insertBy (mem : z ∈ insertBy key x l) : z = x ∨ z ∈ l := by
  induction l with
  | nil => exact .inl (List.mem_singleton.mp mem)
  | cons y rest ih =>
    unfold insertBy at mem
    split at mem
    · exact List.mem_cons.mp mem
    · split at mem
      · rcases List.mem_cons.mp mem with rfl | later
        · exact .inr List.mem_cons_self
        · exact (ih later).imp_right (List.mem_cons_of_mem y)
      · exact .inr mem

theorem mem_insertBy_of_mem (mem : z ∈ l) : z ∈ insertBy key x l := by
  induction l with
  | nil => cases mem
  | cons y rest ih =>
    unfold insertBy
    split
    · exact List.mem_cons_of_mem x mem
    · split
      · rcases List.mem_cons.mp mem with rfl | later
        · exact List.mem_cons_self
        · exact List.mem_cons_of_mem y (ih later)
      · exact mem

theorem mem_insertBy_self (fresh : ∀ y ∈ l, key y ≠ key x) : x ∈ insertBy key x l := by
  induction l with
  | nil => exact List.mem_singleton_self x
  | cons y rest ih =>
    unfold insertBy
    split
    case isTrue => exact List.mem_cons_self
    case isFalse notBefore =>
      split
      case isTrue =>
        exact List.mem_cons_of_mem y (ih fun y mem => fresh y (List.mem_cons_of_mem _ mem))
      case isFalse notAfter =>
        have same : key y = key x := le_antisymm (not_lt.mp notBefore) (not_lt.mp notAfter)
        exact absurd same (fresh y List.mem_cons_self)

/-- An element of a new key joins the others. -/
theorem mem_insertBy (fresh : ∀ y ∈ l, key y ≠ key x) : z ∈ insertBy key x l ↔ z = x ∨ z ∈ l := by
  refine ⟨mem_of_mem_insertBy, ?_⟩
  rintro (rfl | mem)
  · exact mem_insertBy_self fresh
  · exact mem_insertBy_of_mem mem

/-- An element that is filtered out is put in, or is refused. -/
theorem filter_insertBy {p : ι → Bool} (out : p x = false) :
    (insertBy key x l).filter p = l.filter p := by
  induction l with
  | nil => simp [insertBy, out]
  | cons y rest ih =>
    unfold insertBy
    split
    · exact List.filter_cons_of_neg (by simp [out])
    · split
      · rw [List.filter_cons, List.filter_cons, ih]
      · rfl

/-- An element that is not counted is put in, or is refused. -/
theorem countP_insertBy {p : ι → Bool} (uncounted : p x = false) :
    (insertBy key x l).countP p = l.countP p := by
  rw [List.countP_eq_length_filter, List.countP_eq_length_filter, filter_insertBy uncounted]

namespace SortedBy

theorem insertBy (sorted : SortedBy key l) : SortedBy key (insertBy key x l) := by
  induction l with
  | nil => exact List.pairwise_singleton _ x
  | cons y rest ih =>
    obtain ⟨first, sortedRest⟩ := List.pairwise_cons.mp sorted
    unfold Containers.insertBy
    split
    case isTrue before =>
      refine List.pairwise_cons.mpr ⟨fun z mem => ?_, sorted⟩
      rcases List.mem_cons.mp mem with rfl | later
      · exact before
      · exact before.trans (first z later)
    case isFalse =>
      split
      case isTrue after =>
        refine List.pairwise_cons.mpr ⟨fun z mem => ?_, ih sortedRest⟩
        rcases mem_of_mem_insertBy mem with rfl | later
        · exact after
        · exact first z later
      case isFalse => exact sorted

/-- A key stands for one element. -/
theorem eq_of_key (sorted : SortedBy key l) (left : x ∈ l) (right : y ∈ l)
    (same : key x = key y) : x = y := by
  induction l with
  | nil => cases left
  | cons a rest ih =>
    obtain ⟨first, sortedRest⟩ := List.pairwise_cons.mp sorted
    rcases List.mem_cons.mp left with here | later <;>
      rcases List.mem_cons.mp right with here' | later'
    · exact here.trans here'.symm
    · exact absurd same (here ▸ first y later').ne
    · exact absurd same.symm (here' ▸ first x later).ne
    · exact ih sortedRest later later'

/-- The order depends on the keys of the elements only. -/
theorem congr (sorted : SortedBy key l) (same : ∀ y ∈ l, key' y = key y) : SortedBy key' l :=
  List.Pairwise.imp_of_mem (fun left right before => by rwa [same _ left, same _ right]) sorted

theorem eraseBy (sorted : SortedBy key l) : SortedBy key (eraseBy key x l) :=
  sorted.sublist List.eraseP_sublist

/-- Erasing by a key removes the element of that key and no other. -/
theorem mem_eraseBy (sorted : SortedBy key l) :
    z ∈ Containers.eraseBy key x l ↔ z ∈ l ∧ key z ≠ key x := by
  refine ⟨fun mem => ⟨List.mem_of_mem_eraseP mem, fun same => ?_⟩, fun ⟨mem, differs⟩ => ?_⟩
  · obtain ⟨y, front, back, untouched, found, whole, erased⟩ :=
      List.exists_of_eraseP (p := fun y => decide (key y = key x)) (List.mem_of_mem_eraseP mem)
        (by simpa using same)
    rw [Containers.eraseBy, erased] at mem
    have keyed : key y = key x := by simpa using found
    have twice : z = y := by
      refine sorted.eq_of_key ?_ ?_ (same.trans keyed.symm)
      · rw [whole]
        rcases List.mem_append.mp mem with early | late
        · exact List.mem_append_left _ early
        · exact List.mem_append_right _ (List.mem_cons_of_mem y late)
      · rw [whole]
        exact List.mem_append_right _ List.mem_cons_self
    subst twice
    have distinct := sorted
    rw [whole] at distinct
    obtain ⟨-, later, before⟩ := List.pairwise_append.mp distinct
    rcases List.mem_append.mp mem with early | late
    · exact lt_irrefl _ (before z early z List.mem_cons_self)
    · exact lt_irrefl _ ((List.pairwise_cons.mp later).1 z late)
  · exact (List.mem_eraseP_of_neg (p := fun y => decide (key y = key x))
      (by simpa using differs)).mpr mem

end SortedBy

/-- In an ordered set an element whose key is taken is refused. -/
theorem insertBy_of_mem (sorted : SortedBy key l) (taken : y ∈ l) (same : key y = key x) :
    insertBy key x l = l := by
  induction l with
  | nil => cases taken
  | cons a rest ih =>
    obtain ⟨first, sortedRest⟩ := List.pairwise_cons.mp sorted
    unfold insertBy
    rcases List.mem_cons.mp taken with rfl | later
    · rw [same, if_neg (lt_irrefl _), if_neg (lt_irrefl _)]
    · have after : key a < key x := same ▸ first y later
      rw [if_neg after.not_gt, if_pos after, ih sortedRest later]

/-- Whether an element is found depends on its key alone. -/
theorem findBy_isSome : (findBy key x l).isSome = true ↔ ∃ y ∈ l, key y = key x := by
  simp [findBy]

end CoroutineService.Containers
