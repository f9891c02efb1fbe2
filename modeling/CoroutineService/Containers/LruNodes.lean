import CoroutineService.Containers.LruCache
import CoroutineService.Transition.Machine
import Mathlib.Algebra.Order.Ring.Int
import Mathlib.Data.List.Forall2
import Mathlib.Logic.Function.Basic

/-!
# The two structures of the cache

`LRUCache` keeps its entries in nodes of a memory pool. `my_list` links pointers to the nodes
in the order of their last use, and `map` leads from a key to the cell of the list. Both are
changed by each operation, and both have to tell the same of the cache; the list of entries
in `LruCache` is what they tell.

Whatever the source leaves undefined is `none`: an iterator that is not of the list, a pointer
to a node that has been destroyed, the back of an empty list.

## Main definitions

* `LruNodes`: the map, the list and the nodes
* `LruNodes.push`, `LruNodes.get`: the operations
* `Coupled`: map and list hold the same keys
* `Represents`: the list shows the entries of an `LruCache`

## Main results

* `Represents.push`, `Represents.get`: the operations do what those of `LruCache` do
* `represents_of_reachable`: and so do all sequences of them
-/

set_option autoImplicit false

namespace CoroutineService.Containers

open CoroutineService.Transition

/-- `LRUCache`. List cells are named in the order in which they are made, and an iterator is
the name of its cell; `nodePtr` is what the cells hold. `node` has the nodes that have been
constructed and not yet destroyed, at their addresses in the pool. -/
structure LruNodes (K V A : Type) where
  capacity : ℤ
  map : K → Option ℕ
  myList : List ℕ
  nodePtr : ℕ → Option A
  made : ℕ
  node : A → Option (K × V)

namespace LruNodes

variable {K V A : Type}

/-- The constructor. -/
def new (capacity : ℤ) : LruNodes K V A :=
  ⟨capacity, fun _ => none, [], fun _ => none, 0, fun _ => none⟩

section Operations

variable (s : LruNodes K V A)

/-- The node a cell of the list points to. -/
def contents (c : ℕ) : Option (K × V) := (s.nodePtr c).bind s.node

/-- `my_list.splice(my_list.begin(), my_list, it)`. -/
def splice (it : ℕ) : Option (LruNodes K V A) :=
  if it ∈ s.myList then some { s with myList := it :: s.myList.erase it } else none

variable [DecidableEq K] [DecidableEq A]

/-- `my_list.front()->value = value`. -/
def writeFront (value : V) : Option (LruNodes K V A) := do
  let c ← s.myList.head?
  let a ← s.nodePtr c
  let (key, _) ← s.node a
  some { s with node := Function.update s.node a (some (key, value)) }

/-- The last node is taken out of the map, destroyed and taken off the list. -/
def dropBack : Option (LruNodes K V A) := do
  let c ← s.myList.getLast?
  let a ← s.nodePtr c
  let (key, _) ← s.node a
  some { s with
    map := Function.update s.map key none
    node := Function.update s.node a none
    myList := s.myList.dropLast }

/-- Room is made for a node. The size is compared as an unsigned number of 64 bits. -/
def makeRoom : Option (LruNodes K V A) :=
  if s.capacity ≠ -1 ∧ (s.capacity % 2 ^ 64).toNat ≤ s.myList.length then s.dropBack else some s

/-- A node is constructed at the address `a` and becomes the first of the list. -/
def addFront (key : K) (value : V) (a : A) : LruNodes K V A :=
  { s with
    node := Function.update s.node a (some (key, value))
    nodePtr := Function.update s.nodePtr s.made (some a)
    made := s.made + 1
    myList := s.made :: s.myList
    map := Function.update s.map key (some s.made) }

/-- `push`, if `allocate` gives the address `a`. -/
def push (key : K) (value : V) (a : A) : Option (LruNodes K V A) :=
  match s.map key with
  | some it => do
    let s ← s.splice it
    s.writeFront value
  | none => do
    let s ← s.makeRoom
    some (s.addFront key value a)

/-- `get`. -/
def get [Inhabited V] (key : K) : Option ((Bool × V) × LruNodes K V A) :=
  match s.map key with
  | none => some ((false, default), s)
  | some it => do
    let s ← s.splice it
    let c ← s.myList.head?
    let (_, value) ← s.contents c
    some ((true, value), s)

/-- Once there is room, no node stands at the address that `allocate` gives. -/
def Allocates (key : K) (a : A) : Prop :=
  s.map key = none → ∀ t ∈ s.makeRoom, t.node a = none

end Operations

instance [DecidableEq K] [DecidableEq A] (s : LruNodes K V A) (key : K) (a : A) :
    Decidable (s.Allocates key a) :=
  inferInstanceAs (Decidable (_ → ∀ t ∈ s.makeRoom, t.node a = none))

/-- Map and list agree, and every cell of the list has a node of its own. -/
structure Coupled (s : LruNodes K V A) : Prop where
  cells : s.myList.Nodup
  older : ∀ c ∈ s.myList, c < s.made
  apart : ∀ c ∈ s.myList, ∀ c' ∈ s.myList, s.nodePtr c = s.nodePtr c' → c = c'
  found : ∀ key it, s.map key = some it ↔
    it ∈ s.myList ∧ ∃ value, s.contents it = some (key, value)

/-- Going through the list one meets the entries of the cache. -/
structure Represents (s : LruNodes K V A) (cache : LruCache K V) : Prop extends Coupled s where
  capacity : s.capacity = -1 ∧ cache.capacity = none ∨
    ∃ n : ℕ, 1 ≤ n ∧ n < 2 ^ 31 ∧ s.capacity = n ∧ cache.capacity = some n
  nodes : List.Forall₂ (fun c node => s.contents c = some node) s.myList cache.nodes

/-! ### Going through two lists -/

section Lists

variable {α β : Type} {R S : α → β → Prop} {l : List α} {l' : List β} {x : α} {y : β}

theorem exists_right (related : List.Forall₂ R l l') (mem : x ∈ l) : ∃ y ∈ l', R x y := by
  induction related with
  | nil => cases mem
  | @cons x' y' l l' first _ ih =>
    rcases List.mem_cons.mp mem with rfl | later
    · exact ⟨y', List.mem_cons_self, first⟩
    · obtain ⟨y, mem', related⟩ := ih later
      exact ⟨y, List.mem_cons_of_mem _ mem', related⟩

theorem exists_left (related : List.Forall₂ R l l') (mem : y ∈ l') : ∃ x ∈ l, R x y := by
  obtain ⟨x, mem', related'⟩ := exists_right related.flip mem
  exact ⟨x, mem', related'⟩

theorem forall₂_congr (related : List.Forall₂ R l l') (same : ∀ x ∈ l, ∀ y, R x y → S x y) :
    List.Forall₂ S l l' := by
  induction related with
  | nil => exact .nil
  | @cons x y l l' first _ ih =>
    exact .cons (same x List.mem_cons_self y first)
      (ih fun x mem => same x (List.mem_cons_of_mem _ mem))

/-- What is taken out on both sides belongs together. -/
theorem forall₂_erase [DecidableEq α] {p : β → Bool} (related : List.Forall₂ R l l')
    (together : ∀ x' ∈ l, ∀ y, R x' y → (p y = true ↔ x' = x)) :
    List.Forall₂ R (l.erase x) (l'.eraseP p) := by
  induction related with
  | nil => exact .nil
  | @cons x' y l l' first rest ih =>
    have here := together x' List.mem_cons_self y first
    by_cases same : x' = x
    · rw [same, List.erase_cons_head, List.eraseP_cons_of_pos (here.mpr same)]
      exact rest
    · rw [List.erase_cons_tail (by simpa using same),
        List.eraseP_cons_of_neg fun found => same (here.mp found)]
      exact .cons first (ih fun x' mem => together x' (List.mem_cons_of_mem _ mem))

end Lists

/-! ### What the map finds -/

section Represents

variable {s t : LruNodes K V A} {cache : LruCache K V} {key : K} {value : V} {a : A} {it c : ℕ}

/-- A cell other than the one that points to `a` shows what it has shown. -/
theorem contents_update [DecidableEq A] (node : Option (K × V)) (here : s.nodePtr it = some a)
    (other : s.nodePtr c ≠ s.nodePtr it) :
    ({ s with node := Function.update s.node a node } : LruNodes K V A).contents c =
      s.contents c := by
  show (s.nodePtr c).bind (Function.update s.node a node) = (s.nodePtr c).bind s.node
  cases pointer : s.nodePtr c with
  | none => rfl
  | some a' =>
    have elsewhere : a' ≠ a := fun same => other (by rw [pointer, same, here])
    exact Function.update_of_ne elsewhere _ _

/-- The pointer in a cell and the node behind it. -/
theorem contents_eq_some {node : K × V} (here : s.contents c = some node) :
    ∃ a, s.nodePtr c = some a ∧ s.node a = some node := Option.bind_eq_some_iff.mp here

/-- The value of the first node is replaced. -/
theorem Represents.writeFront [DecidableEq A] {capacity : Option ℕ}
    {nodes : List (K × V)} {distinct : (((key, value) :: nodes).map Prod.fst).Nodup}
    (represents : s.Represents ⟨capacity, (key, value) :: nodes, distinct⟩) (value' : V) :
    ∃ t, s.writeFront value' = some t ∧ t.map = s.map ∧
      t.Represents ⟨capacity, (key, value') :: nodes, distinct⟩ := by
  obtain ⟨it, rest, here, shown, whole⟩ := List.forall₂_cons_right_iff.mp represents.nodes
  obtain ⟨a, pointer, stored⟩ := contents_eq_some here
  let t : LruNodes K V A := { s with node := Function.update s.node a (some (key, value')) }
  have result : s.writeFront value' = some t := by
    simp only [LruNodes.writeFront, whole, List.head?_cons, Option.bind_eq_bind,
      Option.bind_some, pointer, stored, t]
  have first : it ∈ s.myList := whole ▸ List.mem_cons_self
  have now : t.contents it = some (key, value') := by
    show (s.nodePtr it).bind (Function.update s.node a (some (key, value'))) = _
    rw [pointer, Option.bind_some, Function.update_self]
  have others : ∀ c ∈ s.myList, c ≠ it → t.contents c = s.contents c := fun c mem differs =>
    contents_update _ pointer fun same => differs (represents.apart c mem it first same)
  refine ⟨t, result, rfl, ⟨represents.cells, represents.older, represents.apart, ?_⟩,
    represents.capacity, ?_⟩
  · -- the first node keeps its key
    intro key' c
    refine (represents.found key' c).trans (and_congr_right fun mem => ?_)
    by_cases same : c = it
    · subst same
      rw [now, here]
      constructor
      · rintro ⟨_, entry⟩
        exact ⟨value', by rw [(Prod.mk.inj (Option.some.inj entry)).1]⟩
      · rintro ⟨_, entry⟩
        exact ⟨value, by rw [(Prod.mk.inj (Option.some.inj entry)).1]⟩
    · rw [others c mem same]
  · show List.Forall₂ _ s.myList _
    have cells := represents.cells
    rw [whole] at cells ⊢
    refine .cons now (forall₂_congr shown fun c mem node entry => ?_)
    have differs : c ≠ it := ne_of_mem_of_not_mem mem (List.nodup_cons.mp cells).1
    rw [others c (whole ▸ List.mem_cons_of_mem it mem) differs]
    exact entry

variable [DecidableEq K]

namespace Represents

/-- The map finds the node of its key, and the cache has its value. -/
theorem found_some (represents : s.Represents cache) (found : s.map key = some it) :
    it ∈ s.myList ∧ ∃ value, s.contents it = some (key, value) ∧ cache.lookup key = some value := by
  obtain ⟨mem, value, here⟩ := (represents.found key it).mp found
  obtain ⟨node, inCache, here'⟩ := exists_right represents.nodes mem
  obtain rfl := Option.some.inj (here.symm.trans here')
  exact ⟨mem, value, here, LruCache.lookup_of_mem inCache⟩

theorem found_none (represents : s.Represents cache) (missing : s.map key = none) :
    cache.lookup key = none := by
  cases stored : cache.lookup key with
  | none => rfl
  | some value =>
    obtain ⟨c, mem, here⟩ := exists_left represents.nodes (LruCache.mem_of_lookup stored)
    have found := (represents.found key c).mpr ⟨mem, value, here⟩
    exact absurd (missing.symm.trans found) (Option.some_ne_none c).symm

/-- The cell of a key in front of the others shows its entry in front of the others. -/
theorem splice_nodes (represents : s.Represents cache) (found : s.map key = some it)
    (here : s.contents it = some (key, value)) :
    List.Forall₂ (fun c node => s.contents c = some node) (it :: s.myList.erase it)
      ((key, value) :: cache.others key) := by
  refine .cons here (forall₂_erase represents.nodes fun c mem node shown => ?_)
  rw [decide_eq_true_iff]
  constructor
  · rintro rfl
    exact Option.some.inj (((represents.found node.1 c).mpr ⟨mem, node.2, shown⟩).symm.trans found)
  · rintro rfl
    exact congrArg Prod.fst (Option.some.inj (shown.symm.trans here))

theorem splice (represents : s.Represents cache) (found : s.map key = some it)
    (here : s.contents it = some (key, value)) :
    ∃ t, s.splice it = some t ∧ t.map = s.map ∧
      t.Represents ⟨cache.capacity, (key, value) :: cache.others key, LruCache.distinct_front⟩ := by
  obtain ⟨mem, -⟩ := represents.found_some found
  have same : ∀ {c}, c ∈ it :: s.myList.erase it ↔ c ∈ s.myList :=
    (List.perm_cons_erase mem).symm.mem_iff
  refine ⟨{ s with myList := it :: s.myList.erase it }, if_pos mem, rfl, ?_⟩
  refine ⟨⟨?_, ?_, ?_, ?_⟩, represents.capacity, represents.splice_nodes found here⟩
  · exact (List.perm_cons_erase mem).nodup_iff.mp represents.cells
  · exact fun c mem' => represents.older c (same.mp mem')
  · exact fun c mem' c' mem'' => represents.apart c (same.mp mem') c' (same.mp mem'')
  · exact fun key it' => (represents.found key it').trans (and_congr_left' same.symm)

/-- `get` does what `LruCache.get` does. -/
theorem get [Inhabited V] (represents : s.Represents cache) (key : K) :
    ∃ t, s.get key = some (((cache.get key).1.isSome, (cache.get key).1.getD default), t) ∧
      t.Represents (cache.get key).2 := by
  unfold LruNodes.get
  cases found : s.map key with
  | none =>
    have absent := represents.found_none found
    refine ⟨s, ?_, ?_⟩
    · rw [LruCache.get_fst, absent]
      rfl
    · unfold LruCache.get
      rw [absent]
      exact represents
  | some it =>
    obtain ⟨mem, value, here, stored⟩ := represents.found_some found
    obtain ⟨t, spliced, -, represents'⟩ := represents.splice found here
    obtain ⟨c, rest, first, -, whole⟩ := List.forall₂_cons_right_iff.mp represents'.nodes
    refine ⟨t, ?_, ?_⟩
    · show (s.splice it).bind (fun s => s.myList.head?.bind fun c => (s.contents c).bind
        fun node => some ((true, node.2), s)) = _
      rw [spliced, Option.bind_some, whole, List.head?_cons, Option.bind_some, first,
        Option.bind_some, LruCache.get_fst, stored]
      rfl
    · unfold LruCache.get
      rw [stored]
      exact represents'

end Represents

variable [DecidableEq A]

namespace Represents

/-- The last node goes, and its key with it. -/
theorem dropBack (represents : s.Represents cache) (filled : cache.nodes ≠ []) :
    ∃ t, s.dropBack = some t ∧ (∀ key, s.map key = none → t.map key = none) ∧
      t.Represents ⟨cache.capacity, cache.nodes.dropLast,
        cache.distinct.sublist (cache.nodes.dropLast_sublist.map Prod.fst)⟩ := by
  have cells : s.myList ≠ [] := by
    rintro empty
    have shown := represents.nodes
    rw [empty] at shown
    exact filled (List.forall₂_nil_left_iff.mp shown)
  obtain ⟨front, last, whole⟩ : ∃ front last, s.myList = front ++ [last] :=
    ⟨s.myList.dropLast, s.myList.getLast cells, (List.dropLast_concat_getLast cells).symm⟩
  obtain ⟨entries, entry, whole'⟩ : ∃ entries entry, cache.nodes = entries ++ [entry] :=
    ⟨cache.nodes.dropLast, cache.nodes.getLast filled, (List.dropLast_concat_getLast filled).symm⟩
  -- the last cell shows the last entry
  have shown := represents.nodes
  rw [whole, whole', ← List.forall₂_reverse_iff, List.reverse_concat, List.reverse_concat,
    List.forall₂_cons, List.forall₂_reverse_iff] at shown
  obtain ⟨here, shown⟩ := shown
  obtain ⟨a, pointer, stored⟩ := contents_eq_some here
  let t : LruNodes K V A := { s with
    map := Function.update s.map entry.1 none
    node := Function.update s.node a none
    myList := front }
  have result : s.dropBack = some t := by
    simp only [LruNodes.dropBack, whole, List.getLast?_concat, Option.bind_eq_bind,
      Option.bind_some, pointer, stored, List.dropLast_concat, t]
  have older : ∀ c ∈ front, c ∈ s.myList := fun c mem => whole ▸ List.mem_append_left _ mem
  have lastMem : last ∈ s.myList := whole ▸ List.mem_append_right _ (List.mem_singleton_self _)
  have distinct := represents.cells
  rw [whole, List.nodup_append] at distinct
  have differs : ∀ c ∈ front, c ≠ last := fun c mem =>
    distinct.2.2 c mem last (List.mem_singleton_self _)
  have others : ∀ c ∈ front, t.contents c = s.contents c := fun c mem =>
    contents_update none pointer fun same =>
      differs c mem (represents.apart c (older c mem) last lastMem same)
  have foundLast : s.map entry.1 = some last :=
    (represents.found entry.1 last).mpr ⟨lastMem, entry.2, here⟩
  refine ⟨t, result, ?_, ⟨distinct.1, fun c mem => represents.older c (older c mem), ?_, ?_⟩,
    represents.capacity, ?_⟩
  · intro key missing
    by_cases same : key = entry.1
    · rw [same]
      exact Function.update_self _ _ _
    · exact (Function.update_of_ne same _ _).trans missing
  · exact fun c mem c' mem' => represents.apart c (older c mem) c' (older c' mem')
  · intro key c
    show Function.update s.map entry.1 none key = some c ↔ c ∈ front ∧ _
    by_cases same : key = entry.1
    · -- the key of the last node is in no other node
      rw [same, Function.update_self]
      refine iff_of_false (Option.some_ne_none c).symm ?_
      rintro ⟨mem, value, there⟩
      rw [others c mem] at there
      have found := (represents.found entry.1 c).mpr ⟨older c mem, value, there⟩
      exact differs c mem (Option.some.inj (found.symm.trans foundLast))
    · rw [Function.update_of_ne same, represents.found key c]
      constructor
      · rintro ⟨mem, value, there⟩
        have inFront : c ∈ front := by
          rcases List.mem_append.mp (whole ▸ mem) with inFront | atEnd
          · exact inFront
          · rw [List.mem_singleton.mp atEnd, here] at there
            exact absurd (congrArg Prod.fst (Option.some.inj there)).symm same
        exact ⟨inFront, value, (others c inFront).trans there⟩
      · rintro ⟨mem, value, there⟩
        exact ⟨older c mem, value, (others c mem).symm.trans there⟩
  · show List.Forall₂ _ front cache.nodes.dropLast
    rw [whole', List.dropLast_concat]
    exact forall₂_congr shown fun c mem node entry => (others c mem).trans entry

/-- There is room for one more node. -/
theorem makeRoom (represents : s.Represents cache) :
    ∃ t, s.makeRoom = some t ∧ (∀ key, s.map key = none → t.map key = none) ∧
      t.Represents ⟨cache.capacity, cache.kept,
        cache.distinct.sublist (cache.kept_sublist.map Prod.fst)⟩ := by
  have length := represents.nodes.length_eq
  -- both decide alike whether the cache is full
  have agree : (s.capacity ≠ -1 ∧ (s.capacity % 2 ^ 64).toNat ≤ s.myList.length) ↔
      cache.full = true := by
    unfold LruCache.full
    rcases represents.capacity with ⟨unlimited, same⟩ | ⟨n, -, small, limited, same⟩
    · rw [same]
      exact iff_of_false (fun limited => limited.1 unlimited) Bool.false_ne_true
    · have unsigned : (s.capacity % 2 ^ 64).toNat = n := by
        rw [limited, Int.emod_eq_of_lt (by omega) (by omega)]
        exact Int.toNat_natCast n
      rw [same, unsigned, length, decide_eq_true_iff]
      exact and_iff_right (by omega)
  unfold LruNodes.makeRoom
  by_cases full : cache.full = true
  · have filled : cache.nodes ≠ [] := by
      intro empty
      unfold LruCache.full at full
      rcases represents.capacity with ⟨-, same⟩ | ⟨n, positive, -, -, same⟩
      · rw [same] at full
        cases full
      · rw [same, empty, decide_eq_true_iff, List.length_nil] at full
        omega
    have kept : cache.kept = cache.nodes.dropLast := if_pos full
    rw [if_pos (agree.mpr full)]
    obtain ⟨t, result, missing, represents'⟩ := represents.dropBack filled
    refine ⟨t, result, missing, represents'.toCoupled, represents'.capacity, ?_⟩
    show List.Forall₂ _ t.myList cache.kept
    rw [kept]
    exact represents'.nodes
  · have kept : cache.kept = cache.nodes := if_neg full
    rw [if_neg fun limited => full (agree.mp limited)]
    refine ⟨s, rfl, fun _ missing => missing, represents.toCoupled, represents.capacity, ?_⟩
    show List.Forall₂ _ s.myList cache.kept
    rw [kept]
    exact represents.nodes

omit [DecidableEq K] [DecidableEq A] in
/-- A cell that shows a node does not point to a free address. -/
theorem nodePtr_ne_of_free (represents : s.Represents cache) (free : s.node a = none)
    (mem : c ∈ s.myList) : s.nodePtr c ≠ some a := by
  intro there
  obtain ⟨node, -, entry⟩ := exists_right represents.nodes mem
  obtain ⟨a', pointer, stored⟩ := contents_eq_some entry
  obtain rfl := Option.some.inj (pointer.symm.trans there)
  exact Option.some_ne_none node (stored.symm.trans free)

theorem nodePtr_addFront (represents : s.Represents cache) (mem : c ∈ s.myList) :
    (s.addFront key value a).nodePtr c = s.nodePtr c :=
  Function.update_of_ne (represents.older c mem).ne _ _

/-- The new cell shows the new node. -/
theorem contents_made :
    (s.addFront key value a).contents s.made = some (key, value) := by
  have pointer : (s.addFront key value a).nodePtr s.made = some a := Function.update_self _ _ _
  show ((s.addFront key value a).nodePtr s.made).bind (Function.update s.node a _) = _
  rw [pointer, Option.bind_some, Function.update_self]

/-- The other cells show what they have shown. -/
theorem contents_addFront (represents : s.Represents cache) (free : s.node a = none)
    (mem : c ∈ s.myList) : (s.addFront key value a).contents c = s.contents c := by
  show ((s.addFront key value a).nodePtr c).bind (Function.update s.node a _) =
    (s.nodePtr c).bind s.node
  rw [represents.nodePtr_addFront mem]
  cases there : s.nodePtr c with
  | none => rfl
  | some a' =>
    have differs : a' ≠ a := fun same =>
      represents.nodePtr_ne_of_free free mem (there.trans (congrArg some same))
    exact Function.update_of_ne differs _ _

/-- The map finds the node that comes to the front, and the others. -/
theorem found_addFront (represents : s.Represents cache) (missing : s.map key = none)
    (free : s.node a = none) (key' : K) (c : ℕ) :
    (s.addFront key value a).map key' = some c ↔ c ∈ s.made :: s.myList ∧
      ∃ value', (s.addFront key value a).contents c = some (key', value') := by
  have now : (s.addFront key value a).contents s.made = some (key, value) := contents_made
  have others {c : ℕ} (mem : c ∈ s.myList) : (s.addFront key value a).contents c = s.contents c :=
    represents.contents_addFront free mem
  show Function.update s.map key (some s.made) key' = some c ↔ _
  by_cases same : key' = key
  · rw [same, Function.update_self]
    constructor
    · intro here
      obtain rfl := Option.some.inj here
      exact ⟨List.mem_cons_self, value, now⟩
    · rintro ⟨mem, value', there⟩
      rcases List.mem_cons.mp mem with rfl | mem
      · rfl
      · rw [others mem] at there
        have found := (represents.found key c).mpr ⟨mem, value', there⟩
        exact absurd (missing.symm.trans found) (Option.some_ne_none c).symm
  · rw [Function.update_of_ne same, represents.found key' c]
    constructor
    · rintro ⟨mem, value', there⟩
      exact ⟨List.mem_cons_of_mem _ mem, value', (others mem).trans there⟩
    · rintro ⟨mem, value', there⟩
      rcases List.mem_cons.mp mem with rfl | mem
      · rw [now] at there
        exact absurd (congrArg Prod.fst (Option.some.inj there)).symm same
      · exact ⟨mem, value', (others mem).symm.trans there⟩

/-- A node of a new key comes to the front. -/
theorem addFront (represents : s.Represents cache) (missing : s.map key = none)
    (free : s.node a = none)
    (distinct : (((key, value) :: cache.nodes).map Prod.fst).Nodup) :
    (s.addFront key value a).Represents
      ⟨cache.capacity, (key, value) :: cache.nodes, distinct⟩ := by
  have fresh : ∀ c ∈ s.myList, c ≠ s.made := fun c mem => (represents.older c mem).ne
  have pointers : ∀ c ∈ s.myList, (s.addFront key value a).nodePtr c = s.nodePtr c :=
    fun c mem => represents.nodePtr_addFront mem
  have pointer : (s.addFront key value a).nodePtr s.made = some a := Function.update_self _ _ _
  have elsewhere : ∀ c ∈ s.myList, s.nodePtr c ≠ some a := fun c mem =>
    represents.nodePtr_ne_of_free free mem
  refine ⟨⟨?_, ?_, ?_, represents.found_addFront missing free⟩, represents.capacity, ?_⟩
  · exact List.nodup_cons.mpr ⟨fun mem => fresh s.made mem rfl, represents.cells⟩
  · intro c mem
    show c < s.made + 1
    rcases List.mem_cons.mp mem with rfl | mem
    · exact Nat.lt_succ_self _
    · exact Nat.lt_succ_of_lt (represents.older c mem)
  · intro c mem c' mem' same
    rcases List.mem_cons.mp mem with rfl | mem <;> rcases List.mem_cons.mp mem' with rfl | mem'
    · rfl
    · rw [pointer, pointers c' mem'] at same
      exact absurd same.symm (elsewhere c' mem')
    · rw [pointer, pointers c mem] at same
      exact absurd same (elsewhere c mem)
    · rw [pointers c mem, pointers c' mem'] at same
      exact represents.apart c mem c' mem' same
  · exact .cons contents_made (forall₂_congr represents.nodes fun c mem node entry =>
      (represents.contents_addFront free mem).trans entry)

/-- `push` does what `LruCache.push` does. -/
theorem push (represents : s.Represents cache) (value : V) (allocates : s.Allocates key a) :
    ∃ t, s.push key value a = some t ∧ t.Represents (cache.push key value) := by
  unfold LruNodes.push
  cases found : s.map key with
  | some it =>
    obtain ⟨mem, old, here, stored⟩ := represents.found_some found
    obtain ⟨t, spliced, -, represents'⟩ := represents.splice found here
    obtain ⟨u, written, -, represents''⟩ := represents'.writeFront value
    refine ⟨u, ?_, ?_⟩
    · show (s.splice it).bind (fun s => s.writeFront value) = some u
      rw [spliced, Option.bind_some, written]
    · unfold LruCache.push
      rw [dif_neg (by rw [stored]; exact Option.some_ne_none old)]
      exact represents''
  | none =>
    have absent := represents.found_none found
    obtain ⟨t, roomy, missing, represents'⟩ := represents.makeRoom
    refine ⟨t.addFront key value a, ?_, ?_⟩
    · show s.makeRoom.bind (fun s => some (s.addFront key value a)) = _
      rw [roomy, Option.bind_some]
    · unfold LruCache.push
      rw [dif_pos absent]
      exact represents'.addFront (missing key found) (allocates found t roomy) _

end Represents

end Represents

end LruNodes

/-! ### Sequences of operations -/

/-- The operations; `push` with the address that `allocate` gives for a new node. -/
inductive LruMove (K V A : Type)
  | push (key : K) (value : V) (a : A)
  | get (key : K)

variable {K V A : Type}

/-- The capacity, `-1` for none. -/
def limit (capacity : ℤ) : Option ℕ := if capacity = -1 then none else some capacity.toNat

theorem represents_new {capacity : ℤ} (proper : capacity = -1 ∨ 1 ≤ capacity ∧ capacity < 2 ^ 31) :
    (LruNodes.new capacity : LruNodes K V A).Represents (.fresh (limit capacity)) := by
  refine ⟨⟨List.nodup_nil, ?_, ?_, ?_⟩, ?_, .nil⟩
  · exact fun c mem => absurd mem List.not_mem_nil
  · exact fun c mem => absurd mem List.not_mem_nil
  · intro key it
    exact iff_of_false (Option.some_ne_none it).symm fun found => List.not_mem_nil found.1
  · show capacity = -1 ∧ limit capacity = none ∨
      ∃ n : ℕ, 1 ≤ n ∧ n < 2 ^ 31 ∧ capacity = n ∧ limit capacity = some n
    rcases proper with unlimited | ⟨positive, small⟩
    · exact .inl ⟨unlimited, if_pos unlimited⟩
    · refine .inr ⟨capacity.toNat, ?_, ?_, ?_, if_neg (by omega)⟩ <;> omega

variable [DecidableEq K] [DecidableEq A] [Inhabited V]

/-- The operations on a cache, beginning with an empty one. After something undefined nothing
is known. -/
def lruMachine (capacity : ℤ) : Machine (Option (LruNodes K V A)) (LruMove K V A) where
  init s := s = some (.new capacity)
  enabled s
    | .push key _ a => ∀ t ∈ s, t.Allocates key a
    | .get _ => True
  next s
    | .push key value a => s.bind fun s => s.push key value a
    | .get key => s.bind fun s => (s.get key).map Prod.snd

instance (capacity : ℤ) (s : Option (LruNodes K V A)) (a : LruMove K V A) :
    Decidable ((lruMachine capacity).enabled s a) := by
  induction a using LruMove.casesOn <;> (dsimp only [lruMachine]; infer_instance)

/-- The same operations on the entries alone. -/
def reference (_ : Option (LruNodes K V A)) (a : LruMove K V A) (cache : LruCache K V) :
    LruCache K V :=
  match a with
  | .push key value _ => cache.push key value
  | .get key => (cache.get key).2

/-- However a cache is used, nothing undefined happens, map and list hold the same keys, the
list shows the entries in the order of their last use, and `get` answers what is there. -/
theorem represents_of_reachable (capacity : ℤ)
    (proper : capacity = -1 ∨ 1 ≤ capacity ∧ capacity < 2 ^ 31)
    (p : Option (LruNodes K V A) × LruCache K V)
    (reached : ((lruMachine capacity).observe (.fresh (limit capacity)) reference).Reachable p) :
    ∃ s, p.1 = some s ∧ s.Represents p.2 ∧ ∀ key, ∃ t,
      s.get key = some (((p.2.get key).1.isSome, (p.2.get key).1.getD default), t) := by
  have represented : ∃ s, p.1 = some s ∧ s.Represents p.2 := by
    refine reached.invariant (I := fun p => ∃ s, p.1 = some s ∧ s.Represents p.2) ?_ ?_
    · rintro ⟨_, _⟩ ⟨rfl, rfl⟩
      exact ⟨_, rfl, represents_new proper⟩
    · rintro ⟨_, cache⟩ a ⟨s, rfl, represents⟩ available -
      cases a with
      | push key value a =>
        obtain ⟨t, result, represents'⟩ := represents.push value (available s rfl)
        exact ⟨t, result, represents'⟩
      | get key =>
        obtain ⟨t, result, represents'⟩ := represents.get key
        refine ⟨t, ?_, represents'⟩
        show (s.get key).map Prod.snd = some t
        rw [result]
        rfl
  obtain ⟨s, here, represents⟩ := represented
  refine ⟨s, here, represents, fun key => ?_⟩
  obtain ⟨t, result, -⟩ := represents.get key
  exact ⟨t, result⟩

/-- A cache of two entries, and the entries alone. -/
def twoEntries : Option (LruNodes ℕ ℕ ℕ) × LruCache ℕ ℕ := (some (.new 2), .fresh (limit 2))

/-- The key that was looked up stays; the other makes room, and its address is used again. -/
theorem represents_recent :
    let p := ((lruMachine 2).observe (.fresh (limit 2)) reference).after twoEntries
      [.push 1 10 0, .push 2 20 1, .get 1, .push 3 30 1, .push 1 11 0, .get 2]
    p.2.nodes = [(1, 11), (3, 30)] ∧ ∃ s, p.1 = some s ∧ s.Represents p.2 ∧ ∀ key, ∃ t,
      s.get key = some (((p.2.get key).1.isSome, (p.2.get key).1.getD default), t) := by
  have starts : ((lruMachine 2).observe (.fresh (limit 2)) reference).init twoEntries := ⟨rfl, rfl⟩
  have follows : ((lruMachine 2).observe (.fresh (limit 2)) reference).Follows (fun _ _ => True)
      twoEntries [.push 1 10 0, .push 2 20 1, .get 1, .push 3 30 1, .push 1 11 0, .get 2] := by
    decide +kernel
  exact ⟨by decide +kernel, represents_of_reachable 2 (by decide) _
    ((Machine.Reaches.start starts).follow follows)⟩

end CoroutineService.Containers
