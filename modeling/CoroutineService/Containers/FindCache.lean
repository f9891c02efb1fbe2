import CoroutineService.Containers.AssocList
import CoroutineService.Http.Response
import CoroutineService.Memory.Linked
import CoroutineService.Transition.Machine
import Mathlib.Algebra.Order.Ring.Int
import Mathlib.Data.List.Perm.Basic

/-!
# The list of a `FindCache`

`FindCache` keeps its entries in nodes that are linked through their own memory, behind a node
without an entry. Two pointers lead to the first entry, and a counter has the number of entries;
the operations change all of them by hand.

Whatever the source leaves undefined is `none`: a pointer to a node that has been destroyed, an
`int` that overflows, a loop without an end.

## Main definitions

* `FindCache`: the nodes, the pointers and the counter
* `FindCache.push`, `FindCache.pop`, `FindCache.update`, `FindCache.find`: the operations
* `Represents`: the nodes show the entries of an `AssocList`

## Main results

* `Represents.push`, `Represents.pop`, `Represents.update`, `Represents.find`: the operations do
  what those of `AssocList` do
* `refines_of_reachable`: and so do all sequences of them
-/

set_option autoImplicit false

namespace CoroutineService.Containers

open CoroutineService.Http (addressSpace)
open CoroutineService.Memory CoroutineService.Transition

/-- `f_end`. -/
def fEnd : ℤ := -1

/-- `BackNode`; `passwd` is `none` where it has not been assigned to. -/
structure BackNode (T : Type) where
  index : ℤ
  passwd : Option T
  deriving DecidableEq, Repr

/-- `FindCache`. A pointer is an address, or `0` for `nullptr`. `live` are the nodes that have
been constructed and not yet destroyed, and `key`, `value` and `next` their members. -/
structure FindCache (T : Type) where
  head : ℕ
  aider : ℕ
  size : ℤ
  live : List ℕ
  key : ℕ → T
  value : ℕ → T
  next : ℕ → ℕ

namespace FindCache

variable {T : Type}

/-- The constructor, where `allocate` gives the address `aider`. The members of this node are not
initialized, apart from `next`. -/
def new (aider : ℕ) (key value : ℕ → T) (next : ℕ → ℕ) : FindCache T where
  head := 0
  aider := aider
  size := 0
  live := [aider]
  key := key
  value := value
  next := Function.update next aider 0

variable (s : FindCache T)

/-- `p->next = q`. -/
def setNext (p q : ℕ) : Option (FindCache T) :=
  if p ∈ s.live then some { s with next := Function.update s.next p q } else none

/-- `Node(key,value)` is constructed at `p`. -/
def construct (p : ℕ) (key value : T) : FindCache T :=
  { s with
    live := p :: s.live
    key := Function.update s.key p key
    value := Function.update s.value p value
    next := Function.update s.next p 0 }

/-- A node is destroyed. -/
def destroy (p : ℕ) : FindCache T := { s with live := s.live.erase p }

/-- A loop that has met more nodes than there are does not end. -/
def fuel : ℕ := s.live.length + 1

variable [DecidableEq T] (key value : T)

/-- The loop of `find`. -/
def findLoop : ℕ → ℕ → ℤ → Option (BackNode T)
  | 0, _, _ => none
  | fuel + 1, temp, index =>
    if temp = 0 then some ⟨fEnd, none⟩
    else if temp ∉ s.live then none
    else if s.key temp = key then some ⟨index, some (s.value temp)⟩
    -- `index++`
    else if index = 2 ^ 31 - 1 then none
    else findLoop fuel (s.next temp) (index + 1)

/-- `find`. -/
def find : Option (BackNode T) :=
  if s.aider ∈ s.live then s.findLoop key s.fuel (s.next s.aider) 1 else none

/-- `push`, where `allocate` gives the address `newnode`. -/
def push (newnode : ℕ) : Option (Bool × FindCache T) := do
  let back ← s.find key
  if back.index ≠ fEnd then return (false, s)
  let s := s.construct newnode key value
  let s ← s.setNext newnode s.head
  let s ← s.setNext s.aider newnode
  return (true, { s with head := newnode, size := s.size + 1 })

/-- The loop of `pop`. -/
def popLoop : ℕ → ℕ → ℕ → Option (Bool × FindCache T)
  | 0, _, _ => none
  | fuel + 1, temp, lastTemp =>
    if temp = 0 then some (false, s)
    else if temp ∉ s.live then none
    else if s.key temp = key ∧ s.value temp = value then do
      let s ← s.setNext lastTemp (s.next temp)
      let s := { s with size := s.size - 1 }
      let s := { s with head := if s.head = temp then s.next lastTemp else s.head }
      some (true, s.destroy temp)
    else if lastTemp ∉ s.live then none
    else popLoop fuel (s.next temp) (s.next lastTemp)

/-- `pop`. -/
def pop : Option (Bool × FindCache T) :=
  if s.aider ∈ s.live then s.popLoop key value s.fuel (s.next s.aider) s.aider else none

/-- The loop of `update`. -/
def updateLoop : ℕ → ℕ → Option (Bool × FindCache T)
  | 0, _ => none
  | fuel + 1, temp =>
    if temp = 0 then some (false, s)
    else if temp ∉ s.live then none
    else if s.key temp = key then
      some (true, { s with value := Function.update s.value temp value })
    else updateLoop fuel (s.next temp)

/-- `update`. -/
def update : Option (Bool × FindCache T) :=
  if s.aider ∈ s.live then s.updateLoop key value s.fuel (s.next s.aider) else none

/-- What `allocate` gives when a node is pushed: memory where no node stands. The nodes have at
least a byte each in the address space. -/
def Allocates (newnode : ℕ) : Prop :=
  ∀ back ∈ s.find key, back.index = fEnd →
    newnode ≠ 0 ∧ newnode ∉ s.live ∧ s.live.length < addressSpace

end FindCache

instance {T : Type} [DecidableEq T] (s : FindCache T) (key : T) (newnode : ℕ) :
    Decidable (s.Allocates key newnode) :=
  inferInstanceAs (Decidable (∀ back ∈ s.find key, _))

/-- What `find` answers for the number and the value of an entry. -/
def BackNode.of {T : Type} : Option (ℕ × T) → BackNode T
  | none => ⟨fEnd, none⟩
  | some (n, value) => ⟨n, some value⟩

theorem BackNode.index_of_eq {T : Type} {found : Option (ℕ × T)} :
    (BackNode.of found).index = fEnd ↔ found = none := by
  cases found with
  | none => exact iff_of_true rfl rfl
  | some entry =>
    refine iff_of_false (fun same => ?_) nofun
    have nonneg : (entry.1 : ℤ) = -1 := same
    omega

namespace FindCache

variable {T : Type}

/-- The entry of a node. -/
def entry (s : FindCache T) (p : ℕ) : T × T := (s.key p, s.value p)

/-- The nodes are linked behind the one without an entry, and show the entries of the list. There
are no others. -/
structure Represents (s : FindCache T) (list : AssocList T T) (nodes : List ℕ) : Prop where
  linked : Linked s.next 0 s.aider (s.aider :: nodes)
  head : s.head = s.next s.aider
  live : s.live.Perm (s.aider :: nodes)
  entries : nodes.map s.entry = list.entries
  size : s.size = list.entries.length
  fits : s.live.length ≤ addressSpace

namespace Represents

variable {s : FindCache T} {list : AssocList T T} {nodes : List ℕ} {key value : T}
variable (represents : s.Represents list nodes)
include represents

theorem aider_mem : s.aider ∈ s.live := represents.live.mem_iff.mpr List.mem_cons_self

theorem mem_live {p : ℕ} (mem : p ∈ nodes) : p ∈ s.live :=
  represents.live.mem_iff.mpr (List.mem_cons_of_mem _ mem)

theorem length_live : s.live.length = nodes.length + 1 := represents.live.length_eq

/-- No loop meets more nodes than there are. -/
theorem enough : nodes.length < s.fuel := by
  unfold fuel
  rw [represents.length_live]
  omega

theorem keys : nodes.map s.key = list.entries.map Prod.fst := by
  rw [← represents.entries, List.map_map]
  rfl

/-- Nodes with the same key are the same. -/
theorem eq_of_key {p q : ℕ} (mem : p ∈ nodes) (mem' : q ∈ nodes) (same : s.key p = s.key q) :
    p = q :=
  List.inj_on_of_nodup_map (represents.keys ▸ list.distinct) mem mem' same

end Represents

/-! ### Nodes that come and go -/

/-- A node is constructed in front of the others. -/
def linkFront (s : FindCache T) (p : ℕ) (key value : T) : FindCache T where
  head := p
  aider := s.aider
  size := s.size + 1
  live := p :: s.live
  key := Function.update s.key p key
  value := Function.update s.value p value
  next := Function.update (Function.update s.next p s.head) s.aider p

/-- A node behind another is taken out and destroyed. -/
def unlink (s : FindCache T) (lastTemp temp : ℕ) : FindCache T :=
  { s with
    next := Function.update s.next lastTemp (s.next temp)
    size := s.size - 1
    head := if s.head = temp then s.next temp else s.head
    live := s.live.erase temp }

namespace Represents

variable {s : FindCache T} {list : AssocList T T} {nodes : List ℕ}
variable (represents : s.Represents list nodes)
include represents

/-- A new node in front of the others. -/
theorem linkFront {p : ℕ} {key value : T} (proper : p ≠ 0) (fresh : p ∉ s.live)
    (room : s.live.length < addressSpace)
    (distinct : (((key, value) :: list.entries).map Prod.fst).Nodup) :
    (s.linkFront p key value).Represents ⟨(key, value) :: list.entries, distinct⟩ (p :: nodes) := by
  obtain ⟨-, proper', onward⟩ := represents.linked
  have aider : s.aider ≠ p := ne_of_mem_of_not_mem represents.aider_mem fresh
  have away : p ∉ nodes := fun mem => fresh (represents.mem_live mem)
  have pointer : (s.linkFront p key value).next s.aider = p := by
    show Function.update (Function.update s.next p s.head) s.aider p s.aider = p
    exact Function.update_self ..
  have live : (p :: s.live).Perm (s.aider :: p :: nodes) :=
    (represents.live.cons p).trans (.swap ..)
  refine ⟨⟨rfl, proper', ?_⟩, pointer.symm, live, ?_, ?_, room⟩
  · -- the new node points to the others, and the one without an entry to the new node
    have front : Linked (Function.update s.next p s.head) 0 p (p :: nodes) :=
      (represents.head ▸ onward).push away proper
    have behind : s.aider ∉ p :: nodes :=
      List.not_mem_cons_of_ne_of_not_mem aider (List.nodup_cons.mp represents.linked.nodup).1
    show Linked _ 0 ((s.linkFront p key value).next s.aider) (p :: nodes)
    rw [pointer]
    exact front.update behind p
  · show (_, _) :: nodes.map _ = (key, value) :: list.entries
    rw [← represents.entries]
    congr 1
    · simp [FindCache.linkFront]
    · refine List.map_congr_left fun q mem => ?_
      have differs : q ≠ p := ne_of_mem_of_not_mem mem away
      simp [entry, FindCache.linkFront, differs]
  · show s.size + 1 = ((key, value) :: list.entries).length
    rw [represents.size, List.length_cons]
    rfl

/-- A node is taken out. -/
theorem unlink {front back : List ℕ} {p : ℕ} (whole : nodes = front ++ p :: back)
    (distinct : (((front ++ back).map s.entry).map Prod.fst).Nodup) :
    (s.unlink ((s.aider :: front).getLast (List.cons_ne_nil _ _)) p).Represents
      ⟨(front ++ back).map s.entry, distinct⟩ (front ++ back) := by
  subst whole
  have nodup := represents.linked.nodup
  have aider : s.aider ∉ front ++ p :: back := (List.nodup_cons.mp nodup).1
  have linked := represents.linked.unlink
  refine ⟨linked, ?_, ?_, rfl, ?_, ?_⟩
  · show (if s.head = p then s.next p else s.head) = Function.update s.next _ (s.next p) s.aider
    cases front with
    | nil =>
      have first : s.head = p := represents.head.trans represents.linked.2.2.1
      rw [if_pos first, List.getLast_singleton, Function.update_self]
    | cons q front =>
      have first : s.head = q := represents.head.trans represents.linked.2.2.1
      have other : q ≠ p := by
        rintro rfl
        have fresh := (List.nodup_cons.mp (List.nodup_cons.mp nodup).2).1
        exact fresh (List.mem_append_right _ List.mem_cons_self)
      have last := List.getLast_mem (List.cons_ne_nil q front)
      have elsewhere : s.aider ≠ (q :: front).getLast (List.cons_ne_nil _ _) :=
        (ne_of_mem_of_not_mem (List.mem_append_left _ last) aider).symm
      rw [if_neg (first ▸ other), List.getLast_cons (List.cons_ne_nil _ _),
        Function.update_of_ne elsewhere]
      exact represents.head
  · have middle : (s.aider :: front ++ p :: back).Perm (p :: (s.aider :: front ++ back)) :=
      List.perm_middle
    have moved : s.live.Perm (p :: s.aider :: (front ++ back)) := represents.live.trans middle
    have erased := moved.erase p
    rwa [List.erase_cons_head] at erased
  · show s.size - 1 = _
    have length := congrArg List.length represents.entries
    rw [represents.size, ← length]
    simp
    omega
  · exact List.length_erase_le.trans represents.fits

end Represents

/-! ### Looking up an entry -/

section Loops

variable {s : FindCache T} [DecidableEq T] (key value : T) {nodes : List ℕ} {temp fuel : ℕ}

/-- The loop of `find` finds what there is, as long as the numbers are of type `int`. -/
theorem findLoop_eq (linked : Linked s.next 0 temp nodes) (live : ∀ p ∈ nodes, p ∈ s.live)
    (enough : nodes.length < fuel) {n : ℕ} (small : n + nodes.length ≤ 2 ^ 31 - 1) :
    s.findLoop key fuel temp n = some (.of (AssocList.search key n (nodes.map s.entry))) := by
  induction nodes generalizing temp fuel n with
  | nil =>
    obtain ⟨fuel, rfl⟩ := Nat.exists_eq_add_one.mpr (Nat.zero_lt_of_lt enough)
    obtain rfl : temp = 0 := linked
    rfl
  | cons p rest ih =>
    obtain ⟨fuel, rfl⟩ := Nat.exists_eq_add_one.mpr (Nat.zero_lt_of_lt enough)
    obtain ⟨rfl, proper, onward⟩ := linked
    obtain ⟨here, behind⟩ := List.forall_mem_cons.mp live
    rw [List.length_cons] at small enough
    rw [findLoop, if_neg proper, if_neg (not_not.mpr here), List.map_cons, AssocList.search_cons]
    by_cases found : s.key temp = key
    · rw [if_pos found, if_pos (show (s.entry temp).1 = key from found)]
      rfl
    · rw [if_neg found, if_neg (show ¬(s.entry temp).1 = key from found), if_neg (by omega)]
      exact ih onward behind (Nat.lt_of_succ_lt_succ enough) (n := n + 1) (by omega)

/-- The loop of `update` gives a node of the key another value, if there is one. -/
theorem updateLoop_eq (linked : Linked s.next 0 temp nodes) (live : ∀ p ∈ nodes, p ∈ s.live)
    (enough : nodes.length < fuel) :
    (∀ p ∈ nodes, s.key p ≠ key) ∧ s.updateLoop key value fuel temp = some (false, s) ∨
      ∃ p ∈ nodes, s.key p = key ∧ s.updateLoop key value fuel temp =
        some (true, { s with value := Function.update s.value p value }) := by
  induction nodes generalizing temp fuel with
  | nil =>
    obtain ⟨fuel, rfl⟩ := Nat.exists_eq_add_one.mpr (Nat.zero_lt_of_lt enough)
    obtain rfl : temp = 0 := linked
    exact .inl ⟨fun p mem => absurd mem List.not_mem_nil, rfl⟩
  | cons p rest ih =>
    obtain ⟨fuel, rfl⟩ := Nat.exists_eq_add_one.mpr (Nat.zero_lt_of_lt enough)
    obtain ⟨rfl, proper, onward⟩ := linked
    obtain ⟨here, behind⟩ := List.forall_mem_cons.mp live
    rw [updateLoop, if_neg proper, if_neg (not_not.mpr here)]
    by_cases found : s.key temp = key
    · rw [if_pos found]
      exact .inr ⟨temp, List.mem_cons_self, found, rfl⟩
    · rw [if_neg found]
      rcases ih onward behind (Nat.lt_of_succ_lt_succ enough) with
        ⟨others, result⟩ | ⟨q, mem, same, result⟩
      · exact .inl ⟨List.forall_mem_cons.mpr ⟨found, others⟩, result⟩
      · exact .inr ⟨q, List.mem_cons_of_mem _ mem, same, result⟩

/-- The loop of `pop` takes out the first node with this entry, if there is one. -/
theorem popLoop_eq {lastTemp : ℕ} (linked : Linked s.next 0 temp nodes)
    (live : ∀ p ∈ nodes, p ∈ s.live) (before : lastTemp ∈ s.live ∧ s.next lastTemp = temp)
    (enough : nodes.length < fuel) :
    (key, value) ∉ nodes.map s.entry ∧
        s.popLoop key value fuel temp lastTemp = some (false, s) ∨
      ∃ front p back, nodes = front ++ p :: back ∧ s.entry p = (key, value) ∧
        (key, value) ∉ front.map s.entry ∧ s.popLoop key value fuel temp lastTemp =
          some (true, s.unlink ((lastTemp :: front).getLast (List.cons_ne_nil _ _)) p) := by
  induction nodes generalizing temp lastTemp fuel with
  | nil =>
    obtain ⟨fuel, rfl⟩ := Nat.exists_eq_add_one.mpr (Nat.zero_lt_of_lt enough)
    obtain rfl : temp = 0 := linked
    exact .inl ⟨List.not_mem_nil, rfl⟩
  | cons p rest ih =>
    obtain ⟨fuel, rfl⟩ := Nat.exists_eq_add_one.mpr (Nat.zero_lt_of_lt enough)
    obtain ⟨rfl, proper, onward⟩ := linked
    obtain ⟨here, behind⟩ := List.forall_mem_cons.mp live
    obtain ⟨last, pointer⟩ := before
    rw [popLoop, if_neg proper, if_neg (not_not.mpr here)]
    by_cases found : s.key temp = key ∧ s.value temp = value
    · rw [if_pos found]
      refine .inr ⟨[], temp, rest, rfl, Prod.ext found.1 found.2, List.not_mem_nil, ?_⟩
      simp [setNext, last, unlink, destroy]
    · have other : s.entry temp ≠ (key, value) := fun same => found (Prod.ext_iff.mp same)
      rw [if_neg found, if_neg (not_not.mpr last), pointer]
      rcases ih onward behind ⟨here, rfl⟩ (Nat.lt_of_succ_lt_succ enough) with
        ⟨others, result⟩ | ⟨front, q, back, rfl, same, others, result⟩
      · exact .inl ⟨List.not_mem_cons_of_ne_of_not_mem other.symm others, result⟩
      · refine .inr ⟨temp :: front, q, back, rfl, same, ?_, ?_⟩
        · exact List.not_mem_cons_of_ne_of_not_mem other.symm others
        · rw [List.getLast_cons (List.cons_ne_nil _ _)]
          exact result

end Loops

namespace Represents

variable {s : FindCache T} {list : AssocList T T} {nodes : List ℕ} [DecidableEq T]
variable (represents : s.Represents list nodes) (key value : T)
include represents

/-- `find` does what `AssocList.find` does. -/
theorem find : s.find key = some (.of (list.find key)) := by
  obtain ⟨-, -, onward⟩ := represents.linked
  have length := represents.length_live
  have fits := represents.fits
  unfold addressSpace at fits
  rw [FindCache.find, if_pos represents.aider_mem]
  have found := findLoop_eq key onward (fun p => represents.mem_live) represents.enough (n := 1)
    (by omega)
  rw [represents.entries] at found
  exact found

/-- `update` does what `AssocList.update` does. -/
theorem update : ∃ t, s.update key value = some ((list.update key value).1, t) ∧
    t.Represents (list.update key value).2 nodes := by
  obtain ⟨-, -, onward⟩ := represents.linked
  rw [FindCache.update, if_pos represents.aider_mem]
  unfold AssocList.update
  rw [← represents.keys]
  rcases updateLoop_eq key value onward (fun p => represents.mem_live) represents.enough
    with ⟨others, result⟩ | ⟨p, mem, same, result⟩
  · have missing : key ∉ nodes.map s.key := fun present => by
      obtain ⟨p, mem, same⟩ := List.mem_map.mp present
      exact others p mem same
    rw [if_neg missing]
    exact ⟨s, result, represents⟩
  · rw [if_pos (List.mem_map.mpr ⟨p, mem, same⟩)]
    refine ⟨_, result, represents.linked, represents.head, represents.live, ?_, ?_,
      represents.fits⟩
    · show nodes.map _ = list.entries.map (AssocList.assign key value)
      rw [← represents.entries, List.map_map]
      refine List.map_congr_left fun q mem' => ?_
      -- only the node `p` has this key
      by_cases here : q = p
      · subst here
        simp [entry, AssocList.assign, same]
      · have differs : s.key q ≠ key := fun same' =>
          here (represents.eq_of_key mem' mem (same'.trans same.symm))
        simp [entry, AssocList.assign, differs, here]
    · show s.size = (list.entries.map _).length
      rw [List.length_map]
      exact represents.size

/-- `push` does what `AssocList.push` does. -/
theorem push {newnode : ℕ} (allocates : s.Allocates key newnode) :
    ∃ t nodes', s.push key value newnode = some ((list.push key value).1, t) ∧
      t.Represents (list.push key value).2 nodes' := by
  have found := represents.find key
  unfold AssocList.push
  by_cases present : key ∈ list.entries.map Prod.fst
  · have met : (BackNode.of (list.find key)).index ≠ fEnd := fun none =>
      AssocList.find_eq_none_iff.mp (BackNode.index_of_eq.mp none) present
    rw [dif_pos present]
    refine ⟨s, nodes, ?_, represents⟩
    simp [FindCache.push, found, met]
  · have missing : (BackNode.of (list.find key)).index = fEnd :=
      BackNode.index_of_eq.mpr (AssocList.find_eq_none_iff.mpr present)
    obtain ⟨proper, fresh, room⟩ := allocates _ found missing
    rw [dif_neg present]
    refine ⟨s.linkFront newnode key value, newnode :: nodes, ?_,
      represents.linkFront proper fresh room _⟩
    simp [FindCache.push, found, missing, setNext, construct, represents.aider_mem,
      FindCache.linkFront]

/-- `pop` does what `AssocList.pop` does. -/
theorem pop : ∃ t nodes', s.pop key value = some ((list.pop key value).1, t) ∧
    t.Represents (list.pop key value).2 nodes' := by
  obtain ⟨-, -, onward⟩ := represents.linked
  rw [FindCache.pop, if_pos represents.aider_mem]
  unfold AssocList.pop
  rcases popLoop_eq key value onward (fun p => represents.mem_live)
    ⟨represents.aider_mem, rfl⟩ represents.enough with
    ⟨missing, result⟩ | ⟨front, p, back, whole, same, others, result⟩
  · rw [represents.entries] at missing
    rw [if_neg missing]
    exact ⟨s, nodes, result, represents⟩
  · have entries : list.entries = front.map s.entry ++ (key, value) :: back.map s.entry := by
      rw [← represents.entries, whole, List.map_append, List.map_cons, same]
    have present : (key, value) ∈ list.entries := by
      rw [entries]
      exact List.mem_append_right _ List.mem_cons_self
    have erased : (list.entries.eraseP fun entry => entry = (key, value)) =
        (front ++ back).map s.entry := by
      rw [entries, List.eraseP_append_right _ fun entry mem => ?_,
        List.eraseP_cons_of_pos (by simp), List.map_append]
      simpa using ne_of_mem_of_not_mem mem others
    rw [if_pos present]
    refine ⟨_, front ++ back, result, ?_⟩
    have distinct := list.distinct.sublist
      ((List.eraseP_sublist (p := fun entry => entry = (key, value))).map Prod.fst)
    simp only [erased] at distinct ⊢
    exact represents.unlink whole distinct

end Represents

end FindCache

/-! ### Sequences of operations -/

/-- The operations; `push` with the address that `allocate` gives for a new node. -/
inductive FindMove (T : Type)
  | push (key value : T) (newnode : ℕ)
  | pop (key value : T)
  | update (key value : T)
  | find (key : T)

/-- What the operations return. -/
inductive FindAnswer (T : Type)
  | done (success : Bool)
  | found (back : BackNode T)
  deriving DecidableEq, Repr

variable {T : Type} [DecidableEq T]

/-- An operation on a `FindCache`. -/
def FindCache.perform (s : FindCache T) : FindMove T → Option (FindAnswer T × FindCache T)
  | .push key value newnode => (s.push key value newnode).map fun (b, t) => (.done b, t)
  | .pop key value => (s.pop key value).map fun (b, t) => (.done b, t)
  | .update key value => (s.update key value).map fun (b, t) => (.done b, t)
  | .find key => (s.find key).map fun back => (.found back, s)

/-- The same operation on the entries alone. -/
def AssocList.perform (list : AssocList T T) : FindMove T → FindAnswer T × AssocList T T
  | .push key value _ => (.done (list.push key value).1, (list.push key value).2)
  | .pop key value => (.done (list.pop key value).1, (list.pop key value).2)
  | .update key value => (.done (list.update key value).1, (list.update key value).2)
  | .find key => (.found (.of (list.find key)), list)

/-- The operations on a `FindCache`, beginning with an empty one. After something undefined
nothing is known. -/
def findMachine : Machine (Option (FindCache T)) (FindMove T) where
  init s := ∃ aider key value next, aider ≠ 0 ∧ s = some (.new aider key value next)
  enabled s
    | .push key _ newnode => ∀ t ∈ s, t.Allocates key newnode
    | .pop _ _ | .update _ _ | .find _ => True
  next s a := s.bind fun s => (s.perform a).map Prod.snd

instance (s : Option (FindCache T)) (a : FindMove T) : Decidable (findMachine.enabled s a) := by
  induction a using FindMove.casesOn <;> (dsimp only [findMachine]; infer_instance)

/-- The entries alone, after an operation. -/
def listed (_ : Option (FindCache T)) (a : FindMove T) (list : AssocList T T) : AssocList T T :=
  (list.perform a).2

namespace FindCache

omit [DecidableEq T] in
theorem represents_new {aider : ℕ} (proper : aider ≠ 0) (key value : ℕ → T) (next : ℕ → ℕ) :
    (new aider key value next).Represents .empty [] := by
  have pointer : Function.update next aider 0 aider = 0 := Function.update_self ..
  have fits : 1 ≤ addressSpace := by decide
  exact ⟨⟨rfl, proper, pointer⟩, pointer.symm, .refl _, rfl, rfl, fits⟩

/-- Every operation returns what it returns for the entries alone, and changes them alike. -/
theorem Represents.perform {s : FindCache T} {list : AssocList T T} {nodes : List ℕ}
    (represents : s.Represents list nodes) {a : FindMove T}
    (available : findMachine.enabled (some s) a) :
    ∃ t nodes', s.perform a = some ((list.perform a).1, t) ∧
      t.Represents (list.perform a).2 nodes' := by
  cases a with
  | push key value newnode =>
    obtain ⟨t, nodes', result, represents'⟩ := represents.push key value (available s rfl)
    exact ⟨t, nodes', by rw [FindCache.perform, result]; rfl, represents'⟩
  | pop key value =>
    obtain ⟨t, nodes', result, represents'⟩ := represents.pop key value
    exact ⟨t, nodes', by rw [FindCache.perform, result]; rfl, represents'⟩
  | update key value =>
    obtain ⟨t, result, represents'⟩ := represents.update key value
    exact ⟨t, nodes, by rw [FindCache.perform, result]; rfl, represents'⟩
  | find key =>
    exact ⟨s, nodes, by rw [FindCache.perform, represents.find]; rfl, represents⟩

end FindCache

/-- However a `FindCache` is used, nothing undefined happens, both pointers lead to the first of
finitely many nodes, which are as many as `size_` says and show the entries of the list; and every
operation returns what it returns for the list. -/
theorem refines_of_reachable (p : Option (FindCache T) × AssocList T T)
    (reached : (findMachine.observe .empty listed).Reachable p) :
    ∃ s nodes, p.1 = some s ∧
      (s.head = s.next s.aider ∧ Linked s.next 0 s.head nodes ∧ s.size = nodes.length) ∧
      nodes.map s.entry = p.2.entries ∧
      ∀ a, findMachine.enabled p.1 a → ∃ t, s.perform a = some ((p.2.perform a).1, t) := by
  have represented : ∃ s nodes, p.1 = some s ∧ s.Represents p.2 nodes := by
    refine reached.invariant (I := fun p => ∃ s nodes, p.1 = some s ∧ s.Represents p.2 nodes) ?_ ?_
    · rintro ⟨_, _⟩ ⟨⟨aider, key, value, next, proper, rfl⟩, rfl⟩
      exact ⟨_, [], rfl, FindCache.represents_new proper key value next⟩
    · rintro ⟨_, list⟩ a ⟨s, nodes, rfl, represents⟩ available -
      obtain ⟨t, nodes', result, represents'⟩ := represents.perform available
      refine ⟨t, nodes', ?_, represents'⟩
      show (s.perform a).map Prod.snd = some t
      rw [result]
      rfl
  obtain ⟨s, nodes, here, represents⟩ := represented
  obtain ⟨-, -, onward⟩ := represents.linked
  refine ⟨s, nodes, here, ⟨represents.head, represents.head ▸ onward, ?_⟩, represents.entries,
    fun a available => ?_⟩
  · rw [represents.size, ← represents.entries, List.length_map]
  · obtain ⟨t, -, result, -⟩ := represents.perform (here ▸ available)
    exact ⟨t, result⟩

/-- A new `FindCache`. -/
def newCache : Option (FindCache ℕ) × AssocList ℕ ℕ :=
  (some (.new 8 (fun _ => 0) (fun _ => 0) fun _ => 0), .empty)

/-- Three entries are pushed, the one in the middle is taken out and its memory used again, and a
key is refused while it is present. -/
def threeEntries : List (FindMove ℕ) :=
  [.push 1 10 16, .push 2 20 32, .push 3 30 48, .pop 2 21, .pop 2 20, .push 2 22 32, .push 1 11 0,
    .update 1 12]

theorem refines_threeEntries :
    let p := (findMachine.observe .empty listed).after newCache threeEntries
    p.2.entries = [(2, 22), (3, 30), (1, 12)] ∧ ∃ s nodes, p.1 = some s ∧
      (s.head = s.next s.aider ∧ Linked s.next 0 s.head nodes ∧ s.size = nodes.length) ∧
      nodes.map s.entry = p.2.entries ∧
      ∀ a, findMachine.enabled p.1 a → ∃ t, s.perform a = some ((p.2.perform a).1, t) := by
  have starts : (findMachine.observe .empty listed).init newCache :=
    ⟨⟨8, _, _, _, by decide, rfl⟩, rfl⟩
  have follows : (findMachine.observe .empty listed).Follows (fun _ _ => True) newCache
      threeEntries := by
    decide +kernel
  exact ⟨by decide +kernel, refines_of_reachable _ ((Machine.Reaches.start starts).follow follows)⟩

end CoroutineService.Containers
