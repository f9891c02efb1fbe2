import Mathlib.Data.List.Nodup

/-!
# A cache that forgets what was used longest ago

The entries stand in the order of their last use. A cache with a capacity drops the
last one to make room; one without a capacity is a map.

## Main definitions

* `LruCache`: the entries, each key at most once
* `LruCache.push`, `LruCache.get`: the operations

## Main results

* `lookup_push`, `lookup_get`: a cache without a capacity is a map
-/

set_option autoImplicit false

namespace CoroutineService.Containers

/-- `LRUCache`. The nodes of `my_list` from its front on; `map` finds a node by its key.
A capacity of `-1` is `none`. -/
structure LruCache (K V : Type*) where
  capacity : Option ℕ
  nodes : List (K × V)
  distinct : (nodes.map Prod.fst).Nodup

namespace LruCache

variable {K V : Type*}

/-- A new cache. -/
def fresh (capacity : Option ℕ) : LruCache K V := ⟨capacity, [], List.nodup_nil⟩

/-- Whether `push` has to make room first. -/
def full (cache : LruCache K V) : Bool :=
  match cache.capacity with
  | none => false
  | some capacity => capacity ≤ cache.nodes.length

section Kept

variable (cache : LruCache K V)

/-- The nodes that stay when a new one is pushed. -/
def kept : List (K × V) := if cache.full then cache.nodes.dropLast else cache.nodes

theorem kept_sublist : cache.kept.Sublist cache.nodes := by
  unfold kept
  split
  · exact cache.nodes.dropLast_sublist
  · exact List.Sublist.refl _

end Kept

variable [DecidableEq K] (cache : LruCache K V) (key : K) (value : V)

/-- The value stored under a key. -/
def lookup : Option V := (cache.nodes.find? fun node => node.1 = key).map Prod.snd

/-- The nodes without that of a key. -/
def others : List (K × V) := cache.nodes.eraseP fun node => node.1 = key

variable {cache key value}

theorem keys_others : (cache.others key).map Prod.fst = (cache.nodes.map Prod.fst).erase key := by
  unfold others
  induction cache.nodes with
  | nil => rfl
  | cons node rest ih =>
    by_cases here : node.1 = key
    · rw [List.eraseP_cons_of_pos (by simpa using here), List.map_cons, here,
        List.erase_cons_head]
    · rw [List.eraseP_cons_of_neg (by simpa using here), List.map_cons, List.map_cons, ih,
        List.erase_cons_tail (by simpa using here)]

/-- A node at the front, before the nodes of other keys. -/
theorem distinct_front :
    (((key, value) :: cache.others key).map Prod.fst).Nodup := by
  rw [List.map_cons, keys_others]
  exact List.nodup_cons.mpr ⟨cache.distinct.not_mem_erase, cache.distinct.erase key⟩

/-- A key without a value is the key of no node. -/
theorem notMem_of_lookup (missing : cache.lookup key = none) :
    key ∉ cache.nodes.map Prod.fst := by
  intro mem
  obtain ⟨node, inNodes, here⟩ := List.mem_map.mp mem
  have none := List.find?_eq_none.mp (Option.map_eq_none_iff.mp missing) node inNodes
  exact none (by simpa using here)

/-- The entry that is found for a key, and is the only one. -/
theorem mem_of_lookup (found : cache.lookup key = some value) : (key, value) ∈ cache.nodes := by
  obtain ⟨node, inNodes, rfl⟩ := Option.map_eq_some_iff.mp found
  have here : node.1 = key := by simpa using List.find?_some inNodes
  rw [← here]
  exact List.mem_of_find?_eq_some inNodes

theorem lookup_of_mem (mem : (key, value) ∈ cache.nodes) : cache.lookup key = some value := by
  have distinct := cache.distinct
  unfold lookup
  generalize cache.nodes = nodes at mem distinct ⊢
  induction nodes with
  | nil => cases mem
  | cons node rest ih =>
    obtain ⟨fresh, distinct'⟩ := List.nodup_cons.mp distinct
    rcases List.mem_cons.mp mem with rfl | later
    · rw [List.find?_cons_of_pos (by simp), Option.map_some]
    · have differs : node.1 ≠ key := fun same =>
        fresh (same ▸ List.mem_map_of_mem (f := Prod.fst) later)
      rw [List.find?_cons_of_neg (by simpa using differs)]
      exact ih later distinct'

theorem distinct_push (missing : cache.lookup key = none) {kept : List (K × V)}
    (some : kept.Sublist cache.nodes) : (((key, value) :: kept).map Prod.fst).Nodup := by
  have sublist : (kept.map Prod.fst).Sublist (cache.nodes.map Prod.fst) := some.map Prod.fst
  exact List.nodup_cons.mpr
    ⟨fun mem => notMem_of_lookup missing (sublist.subset mem), cache.distinct.sublist sublist⟩

variable (cache key value)

/-- `push`. -/
def push : LruCache K V :=
  if missing : cache.lookup key = none then
    ⟨cache.capacity, (key, value) :: cache.kept, distinct_push missing cache.kept_sublist⟩
  else ⟨cache.capacity, (key, value) :: cache.others key, distinct_front⟩

/-- `get`: the value, if there is one, and the cache after the node has come to the front. -/
def get : Option V × LruCache K V :=
  match cache.lookup key with
  | none => (none, cache)
  | some value =>
    (some value, ⟨cache.capacity, (key, value) :: cache.others key, distinct_front⟩)

variable {cache key value} {other : K}

@[simp]
theorem lookup_fresh (capacity : Option ℕ) : (fresh capacity : LruCache K V).lookup key = none :=
  rfl

theorem find?_others (differs : other ≠ key) :
    (cache.others key).find? (fun node => node.1 = other) =
      cache.nodes.find? fun node => node.1 = other := by
  unfold others
  induction cache.nodes with
  | nil => rfl
  | cons node rest ih =>
    by_cases here : node.1 = key
    · have elsewhere : ¬ node.1 = other := fun same => differs (same.symm.trans here)
      rw [List.eraseP_cons_of_pos (by simpa using here),
        List.find?_cons_of_neg (by simpa using elsewhere)]
    · rw [List.eraseP_cons_of_neg (by simpa using here), List.find?_cons, List.find?_cons, ih]

/-- What is found in a cache with one node at the front. -/
theorem lookup_front {nodes : List (K × V)} {capacity : Option ℕ}
    (distinct : (((key, value) :: nodes).map Prod.fst).Nodup)
    (same : other ≠ key → (nodes.find? fun node => node.1 = other) =
      cache.nodes.find? fun node => node.1 = other) :
    (⟨capacity, (key, value) :: nodes, distinct⟩ : LruCache K V).lookup other =
      if other = key then some value else cache.lookup other := by
  unfold lookup
  split
  case isTrue here => rw [here, List.find?_cons_of_pos (by simp), Option.map_some]
  case isFalse differs =>
    rw [List.find?_cons_of_neg (by simpa using Ne.symm differs), same differs]

/-- Without a capacity, a value that is pushed joins the others. -/
theorem lookup_push (unlimited : cache.capacity = none) :
    (cache.push key value).lookup other =
      if other = key then some value else cache.lookup other := by
  unfold push
  split
  case isTrue missing =>
    have whole : cache.kept = cache.nodes := by
      unfold kept full
      rw [unlimited, if_neg nofun]
    exact lookup_front _ fun _ => by rw [whole]
  case isFalse => exact lookup_front _ find?_others

/-- Looking up a value moves it to the front, and does nothing else. -/
theorem lookup_get : (cache.get key).2.lookup other = cache.lookup other := by
  unfold get
  split
  case h_1 => rfl
  case h_2 value found =>
    rw [lookup_front _ find?_others]
    split
    case isTrue here => rw [here, found]
    case isFalse => rfl

@[simp]
theorem get_fst : (cache.get key).1 = cache.lookup key := by
  unfold get
  split
  · next missing => exact missing.symm
  · next found => exact found.symm

@[simp]
theorem capacity_push : (cache.push key value).capacity = cache.capacity := by
  unfold push
  split
  · rfl
  · rfl

@[simp]
theorem capacity_get : (cache.get key).2.capacity = cache.capacity := by
  unfold get
  split
  · rfl
  · rfl

end LruCache

end CoroutineService.Containers
