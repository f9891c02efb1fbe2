import CoroutineService.Containers.LruNodes
import CoroutineService.Memory.MemoryPool

/-!
# The cache in its memory pool

The cache of users has a `MemoryPool` as its allocator: a new entry is constructed in a slot that
`allocate` gives, the entry that makes room for it gives its slot back, and its destructor gives
back all of them before that of the pool deletes the blocks. What is constructed or assigned in a
slot overwrites any part of it, and so may reach into the memory the pool keeps its own pointers
in, if slots and pointers lay badly.

## Main definitions

* `PooledCache`: an `LRUCache` with its pool
* `PooledCache.push`, `PooledCache.get`, `PooledCache.clear`: the operations
* `MemoryPool.destruct`: the blocks that `~MemoryPool` deletes
* `Backed`: the slots in use are those of the entries

## Main results

* `Pooled.fill`: what is written to a slot does not reach the pool
* `Backed.push`, `Backed.get`, `Backed.clear`: the operations keep it so
* `backed_of_reachable`: all that is assumed of memory is that `operator new` gives new blocks
-/

set_option autoImplicit false

namespace CoroutineService.Memory

namespace MemoryPool

/-- Something is constructed or assigned in the slot `p`: any memory of the slot may change, and
with it what would be read at an address that overlaps it. -/
def fill (L : SlotLayout) (s : MemoryPool) (p : ℕ) (words : ℕ → ℕ) : MemoryPool :=
  { s with next := fun a => if a + 8 ≤ p ∨ p + L.size ≤ a then s.next a else words a }

/-- The loop of `~MemoryPool`: the blocks deleted, in their order. The first argument bounds the
number of rounds. -/
def deleteFrom (next : ℕ → ℕ) : ℕ → ℕ → List ℕ
  | 0, _ => []
  | rounds + 1, curr => if curr = 0 then [] else curr :: deleteFrom next rounds (next curr)

/-- `~MemoryPool`. There are no more rounds than blocks. -/
def destruct (s : MemoryPool) : List ℕ := deleteFrom s.next s.blocks.length s.currentBlock

theorem deleteFrom_eq {next : ℕ → ℕ} {head : ℕ} {l : List ℕ} (linked : Linked next 0 head l) :
    deleteFrom next l.length head = l := by
  induction l generalizing head with
  | nil => rfl
  | cons x rest ih =>
    obtain ⟨rfl, proper, onward⟩ := linked
    rw [List.length_cons, deleteFrom, if_neg proper, ih onward]

end MemoryPool

section Pooled

variable {L : SlotLayout} {s : MemoryPool} {p block : ℕ}

/-- What is written to a slot in use does not reach the pointers of the pool. -/
theorem Pooled.fill (pooled : Pooled L s) (live : p ∈ s.live) (words : ℕ → ℕ) :
    Pooled L (s.fill L p words) := by
  have mem : p ∈ s.live ++ s.freed := List.mem_append_left _ live
  have pointer := L.pointer
  have large := L.align_le_size
  have away : ∀ a, a + 8 ≤ p ∨ p + L.size ≤ a → (s.fill L p words).next a = s.next a :=
    fun a outside => if_pos outside
  refine ⟨pooled.aligned, pooled.blocks, pooled.chained.frame fun b inside => away b ?_,
    pooled.current, pooled.slots, pooled.used, pooled.nodup,
    pooled.free.frame fun q free => away q ?_⟩
  · -- the pointer of a block stands before its slots
    obtain ⟨b', inside', slot⟩ := pooled.slots p mem
    have behind := slot.behind
    have within := slot.2
    by_cases same : b = b'
    · omega
    · have blocks := pooled.blocks.forall inside inside' same
      unfold Apart blockSize at *
      omega
  · -- the slots of the list are none in use
    have disjoint := List.disjoint_of_nodup_append pooled.nodup
    have differ : p ≠ q := fun same => disjoint live (same ▸ free)
    have apart := pooled.apart mem (List.mem_append_right _ free) differ
    unfold Apart at apart
    omega

/-- Every block is deleted, once. -/
theorem Pooled.destruct (pooled : Pooled L s) : s.destruct = s.blocks ∧ s.blocks.Nodup :=
  ⟨MemoryPool.deleteFrom_eq pooled.chained, pooled.chained.nodup⟩

theorem live_allocate : ((memoryMachine L).next s (.allocate block)).live =
    (s.allocate L block).1 :: s.live := by
  show (s.allocate L block).1 :: (s.allocate L block).2.live = _
  unfold MemoryPool.allocate
  split
  · rfl
  · split <;> rfl

theorem live_deallocate : ((memoryMachine L).next s (.deallocate p)).live = s.live.erase p := by
  show (s.deallocate p).live.erase p = _
  unfold MemoryPool.deallocate
  split <;> rfl

/-- The slot that is given has not been in use. -/
theorem Pooled.fresh (pooled : Pooled L s)
    (provides : s.freeSlots = 0 → s.lastSlot ≤ s.currentSlot → s.Provides block) :
    (s.allocate L block).1 ∉ s.live := by
  have nodup := (pooled.allocate provides).nodup
  rw [live_allocate, List.cons_append, List.nodup_cons] at nodup
  exact fun mem => nodup.1 (List.mem_append_left _ mem)

/-- The slots in use stay different when one is given back. -/
theorem Pooled.mem_erase (pooled : Pooled L s) {q : ℕ} :
    q ∈ s.live.erase p ↔ q ≠ p ∧ q ∈ s.live :=
  (List.nodup_append.mp pooled.nodup).1.mem_erase_iff

end Pooled

end CoroutineService.Memory

namespace CoroutineService.Containers

open CoroutineService.Memory
open CoroutineService.Transition

/-- `LRUCache` with a `MemoryPool` for its allocator. -/
structure PooledCache (K V : Type) where
  cache : LruNodes K V ℕ
  pool : MemoryPool

namespace LruNodes

variable {K V A : Type} (s : LruNodes K V A)

/-- The address of the node that makes room for another. -/
def victim : Option A :=
  if s.capacity ≠ -1 ∧ (s.capacity % 2 ^ 64).toNat ≤ s.myList.length then
    s.myList.getLast?.bind s.nodePtr
  else none

end LruNodes

namespace PooledCache

variable {K V : Type} (L : SlotLayout) (s : PooledCache K V)

/-- The constructors. -/
def new (capacity : ℤ) (next : ℕ → ℕ) : PooledCache K V := ⟨.new capacity, .new next⟩

/-- The pool after the last node has been given back to make room. -/
def roomy : MemoryPool :=
  match s.cache.victim with
  | some a => (memoryMachine L).next s.pool (.deallocate a)
  | none => s.pool

section Operations

variable [DecidableEq K]

/-- `push`. `block` is what `operator new` returns, and `words` what is found in the memory of
the slot afterwards. -/
def push (key : K) (value : V) (block : ℕ) (words : ℕ → ℕ) : Option (PooledCache K V) :=
  match s.cache.map key with
  | some _ => do
    let cache ← s.cache.push key value 0
    let c ← cache.myList.head?
    let a ← cache.nodePtr c
    some ⟨cache, s.pool.fill L a words⟩
  | none => do
    let a := ((s.roomy L).allocate L block).1
    let cache ← s.cache.push key value a
    some ⟨cache, ((memoryMachine L).next (s.roomy L) (.allocate block)).fill L a words⟩

/-- `get`. -/
def get [Inhabited V] (key : K) : Option ((Bool × V) × PooledCache K V) := do
  let (answer, cache) ← s.cache.get key
  some (answer, ⟨cache, s.pool⟩)

end Operations

/-- The loop of `clear`, with the entries it prints. -/
def clearNodes : List ℕ → LruNodes K V ℕ → MemoryPool → Option (List (K × V) × PooledCache K V)
  | [], cache, pool => some ([], ⟨cache, pool⟩)
  | c :: rest, cache, pool => do
    let a ← cache.nodePtr c
    let entry ← cache.node a
    let (printed, s) ← clearNodes rest
      { cache with node := Function.update cache.node a none, myList := rest }
      ((memoryMachine L).next pool (.deallocate a))
    some (entry :: printed, s)

/-- `clear`. -/
def clear : Option (List (K × V) × PooledCache K V) :=
  clearNodes L s.cache.myList { s.cache with map := fun _ => none } s.pool

/-- `operator new` gives `push` a new block, should `allocate` call it. -/
def Provides (key : K) (block : ℕ) : Prop :=
  s.cache.map key = none → (s.roomy L).freeSlots = 0 →
    (s.roomy L).lastSlot ≤ (s.roomy L).currentSlot → (s.roomy L).Provides block

end PooledCache

/-- The slots in use are those of the nodes that the cells of the list point to. -/
structure Owns {K V : Type} (cache : LruNodes K V ℕ) (pool : MemoryPool) : Prop where
  cells : ∀ a, a ∈ pool.live ↔ ∃ c ∈ cache.myList, cache.nodePtr c = some a
  nodes : ∀ a, cache.node a ≠ none → a ∈ pool.live

/-- The cache shows the entries, the pool is in order, and the one owns what the other gave. -/
structure Backed {K V : Type} (L : SlotLayout) (s : PooledCache K V) (entries : LruCache K V) :
    Prop where
  represents : s.cache.Represents entries
  pooled : Pooled L s.pool
  owns : Owns s.cache s.pool

namespace LruNodes

variable {K V A : Type} {s t : LruNodes K V A} {key : K} {value : V} {it : ℕ}

theorem splice_eq_some (spliced : s.splice it = some t) :
    it ∈ s.myList ∧ t = { s with myList := it :: s.myList.erase it } := by
  unfold LruNodes.splice at spliced
  split at spliced
  · exact ⟨‹_›, (Option.some.inj spliced).symm⟩
  · cases spliced

section Inversion

variable [DecidableEq A]

theorem writeFront_eq_some (written : s.writeFront value = some t) :
    ∃ c a key old, s.myList.head? = some c ∧ s.nodePtr c = some a ∧ s.node a = some (key, old) ∧
      t = { s with node := Function.update s.node a (some (key, value)) } := by
  unfold LruNodes.writeFront at written
  simp only [Option.bind_eq_bind, Option.bind_eq_some_iff] at written
  obtain ⟨c, first, a, pointer, ⟨key, old⟩, stored, result⟩ := written
  exact ⟨c, a, key, old, first, pointer, stored, (Option.some.inj result).symm⟩

theorem dropBack_eq_some [DecidableEq K] (dropped : s.dropBack = some t) :
    ∃ c a key old, s.myList.getLast? = some c ∧ s.nodePtr c = some a ∧
      s.node a = some (key, old) ∧ t = { s with
        map := Function.update s.map key none
        node := Function.update s.node a none
        myList := s.myList.dropLast } := by
  unfold LruNodes.dropBack at dropped
  simp only [Option.bind_eq_bind, Option.bind_eq_some_iff] at dropped
  obtain ⟨c, last, a, pointer, ⟨key, old⟩, stored, result⟩ := dropped
  exact ⟨c, a, key, old, last, pointer, stored, (Option.some.inj result).symm⟩

end Inversion

end LruNodes

section Owns

variable {K V : Type} {L : SlotLayout} {cache cache' : LruNodes K V ℕ} {pool pool' : MemoryPool}
variable {entries : LruCache K V} {s : PooledCache K V}
variable {key : K} {value : V} {it a block : ℕ} {words : ℕ → ℕ}

/-- The cells of the list change their order. -/
theorem Owns.splice (owns : Owns cache pool) (spliced : cache.splice it = some cache') :
    Owns cache' pool := by
  obtain ⟨mem, rfl⟩ := LruNodes.splice_eq_some spliced
  refine ⟨fun a => (owns.cells a).trans ?_, owns.nodes⟩
  have same : ∀ c, c ∈ it :: cache.myList.erase it ↔ c ∈ cache.myList := fun c =>
    (List.perm_cons_erase mem).symm.mem_iff
  simp only [same]

/-- A node in use is written to. -/
theorem Owns.writeFront (owns : Owns cache pool) (written : cache.writeFront value = some cache') :
    Owns cache' pool ∧ ∃ c a, cache'.myList.head? = some c ∧ cache'.nodePtr c = some a ∧
      a ∈ pool.live := by
  obtain ⟨c, a, key, old, first, pointer, stored, rfl⟩ := LruNodes.writeFront_eq_some written
  have live : a ∈ pool.live := owns.nodes a (by simp [stored])
  refine ⟨⟨owns.cells, fun a' there => ?_⟩, c, a, first, pointer, live⟩
  by_cases same : a' = a
  · exact same ▸ live
  · exact owns.nodes a' (by simpa [same] using there)

/-- A node gives its slot back, and its cell leaves the list. -/
theorem Owns.remove {c : ℕ} {rest : List ℕ} {map : K → Option ℕ} (owns : Owns cache pool)
    (pooled : Pooled L pool) (mem : c ∈ cache.myList) (pointer : cache.nodePtr c = some a)
    (apart : ∀ c' ∈ cache.myList, cache.nodePtr c' = cache.nodePtr c → c' = c)
    (left : ∀ c', c' ∈ rest ↔ c' ∈ cache.myList ∧ c' ≠ c) :
    Owns { cache with map := map, node := Function.update cache.node a none, myList := rest }
      ((memoryMachine L).next pool (.deallocate a)) := by
  refine ⟨fun a' => ?_, fun a' there => ?_⟩
  · rw [live_deallocate, pooled.mem_erase, owns.cells]
    constructor
    · rintro ⟨differs, c', mem', pointer'⟩
      refine ⟨c', (left c').mpr ⟨mem', ?_⟩, pointer'⟩
      rintro rfl
      exact differs (Option.some.inj (pointer'.symm.trans pointer))
    · rintro ⟨c', mem', pointer'⟩
      obtain ⟨older, differs⟩ := (left c').mp mem'
      refine ⟨?_, c', older, pointer'⟩
      -- two cells do not point to one node
      rintro rfl
      exact differs (apart c' older (Eq.trans pointer' pointer.symm))
  · rw [live_deallocate, pooled.mem_erase]
    by_cases same : a' = a
    · simp [same] at there
    · exact ⟨same, owns.nodes a' (by simpa [same] using there)⟩

/-- The last node gives its slot back. -/
theorem Owns.dropBack [DecidableEq K] (owns : Owns cache pool) (pooled : Pooled L pool)
    (represents : cache.Represents entries) (dropped : cache.dropBack = some cache') :
    ∃ a ∈ pool.live, cache.myList.getLast?.bind cache.nodePtr = some a ∧
      Owns cache' ((memoryMachine L).next pool (.deallocate a)) := by
  obtain ⟨c, a, key, old, last, pointer, stored, rfl⟩ := LruNodes.dropBack_eq_some dropped
  have whole : cache.myList = cache.myList.dropLast ++ [c] :=
    (List.dropLast_append_getLast? c last).symm
  have mem : c ∈ cache.myList := List.mem_of_getLast? last
  have cells := represents.cells
  rw [whole, List.nodup_append] at cells
  refine ⟨a, owns.nodes a (by simp [stored]), by rw [last, Option.bind_some, pointer], ?_⟩
  refine owns.remove pooled mem pointer (fun c' mem' => represents.apart c' mem' c mem) fun c' => ?_
  constructor
  · exact fun mem' => ⟨List.dropLast_subset _ mem',
      cells.2.2 c' mem' c (List.mem_singleton_self _)⟩
  · rintro ⟨mem', differs⟩
    rw [whole] at mem'
    exact (List.mem_append.mp mem').resolve_right fun atEnd =>
      differs (List.mem_singleton.mp atEnd)

/-- A new node in a slot that was free. -/
theorem Owns.addFront [DecidableEq K] (owns : Owns cache pool)
    (represents : cache.Represents entries) (live : pool'.live = a :: pool.live) :
    Owns (cache.addFront key value a) pool' := by
  have made : (cache.addFront key value a).nodePtr cache.made = some a := Function.update_self _ _ _
  have older : ∀ c ∈ cache.myList, (cache.addFront key value a).nodePtr c = cache.nodePtr c :=
    fun c mem => represents.nodePtr_addFront mem
  refine ⟨fun a' => ?_, fun a' there => ?_⟩
  · rw [live, List.mem_cons, owns.cells]
    constructor
    · rintro (rfl | ⟨c, mem, pointer⟩)
      · exact ⟨cache.made, List.mem_cons_self, made⟩
      · exact ⟨c, List.mem_cons_of_mem _ mem, (older c mem).trans pointer⟩
    · rintro ⟨c, mem, pointer⟩
      rcases List.mem_cons.mp mem with rfl | mem
      · exact .inl (Option.some.inj (pointer.symm.trans made))
      · exact .inr ⟨c, mem, (older c mem).symm.trans pointer⟩
  · rw [live, List.mem_cons]
    by_cases same : a' = a
    · exact .inl same
    · refine .inr (owns.nodes a' ?_)
      simpa [LruNodes.addFront, same] using there

/-! ### The operations -/

variable [DecidableEq K]

/-- Once there is room, list and pool still agree. -/
theorem Backed.roomy (backed : Backed L s entries) :
    ∃ t, s.cache.makeRoom = some t ∧ Pooled L (s.roomy L) ∧ Owns t (s.roomy L) := by
  obtain ⟨t, made, -, -⟩ := backed.represents.makeRoom
  refine ⟨t, made, ?_⟩
  unfold LruNodes.makeRoom at made
  unfold PooledCache.roomy LruNodes.victim
  split at made
  · rename_i full
    obtain ⟨a, live, address, owns⟩ := backed.owns.dropBack backed.pooled backed.represents made
    rw [if_pos full, address]
    exact ⟨backed.pooled.deallocate live, owns⟩
  · rename_i space
    obtain rfl := Option.some.inj made
    rw [if_neg space]
    exact ⟨backed.pooled, backed.owns⟩

/-- `get` changes the order of the list only. -/
theorem Backed.get [Inhabited V] (backed : Backed L s entries) (key : K) :
    ∃ t, s.get key = some (((entries.get key).1.isSome, (entries.get key).1.getD default), t) ∧
      Backed L t (entries.get key).2 := by
  obtain ⟨t, result, represents⟩ := backed.represents.get key
  refine ⟨⟨t, s.pool⟩, ?_, represents, backed.pooled, ?_⟩
  · simp [PooledCache.get, result]
  · have shown := result
    unfold LruNodes.get at shown
    cases found : s.cache.map key with
    | none =>
      simp only [found] at shown
      exact (Prod.mk.inj (Option.some.inj shown)).2 ▸ backed.owns
    | some it =>
      simp only [found, Option.bind_eq_bind, Option.bind_eq_some_iff] at shown
      obtain ⟨t', spliced, c, -, ⟨_, value⟩, -, last⟩ := shown
      exact (Prod.mk.inj (Option.some.inj last)).2 ▸ backed.owns.splice spliced

/-- `push` of a key that is there writes to its node, and of another takes a slot of its own. -/
theorem Backed.push (backed : Backed L s entries) (value : V) (words : ℕ → ℕ)
    (provides : s.Provides L key block) :
    ∃ t, s.push L key value block words = some t ∧ Backed L t (entries.push key value) := by
  unfold PooledCache.push
  cases found : s.cache.map key with
  | some it =>
    have unused : s.cache.Allocates key 0 := fun missing => by
      rw [found] at missing
      cases missing
    obtain ⟨t, pushed, represents⟩ := backed.represents.push value unused
    have steps := pushed
    simp only [LruNodes.push, found, Option.bind_eq_bind, Option.bind_eq_some_iff] at steps
    obtain ⟨t', spliced, written⟩ := steps
    obtain ⟨owns, c, a, first, pointer, live⟩ := (backed.owns.splice spliced).writeFront written
    refine ⟨⟨t, s.pool.fill L a words⟩, by simp [pushed, first, pointer], represents,
      backed.pooled.fill live words, ?_⟩
    exact ⟨owns.cells, owns.nodes⟩
  | none =>
    obtain ⟨t, made, pooled, owns⟩ := backed.roomy
    have fresh := pooled.fresh (provides found)
    have free : s.cache.Allocates key ((s.roomy L).allocate L block).1 := fun _ room made' => by
      obtain rfl := Option.some.inj (made.symm.trans made')
      by_contra there
      exact fresh (owns.nodes _ there)
    obtain ⟨t', pushed, represents⟩ := backed.represents.push value free
    have steps := pushed
    simp only [LruNodes.push, found, made, Option.bind_eq_bind, Option.bind_some,
      Option.some.injEq] at steps
    obtain ⟨room, made', -, represents'⟩ := backed.represents.makeRoom
    obtain rfl := Option.some.inj (made.symm.trans made')
    have live : ((memoryMachine L).next (s.roomy L) (.allocate block)).live = _ := live_allocate
    have given := pooled.allocate (provides found)
    refine ⟨_, by simp only [pushed, Option.bind_eq_bind, Option.bind_some]; rfl, represents,
      given.fill (by rw [live]; exact List.mem_cons_self) words, ?_⟩
    rw [← steps]
    exact owns.addFront represents' live

omit [DecidableEq K] in
/-- The loop of `clear` prints the entries and gives all slots back. -/
theorem clearNodes_eq {cells : List ℕ} {nodes : List (K × V)} (owns : Owns cache pool)
    (whole : cache.myList = cells)
    (shown : List.Forall₂ (fun c node => cache.contents c = some node) cells nodes)
    (distinct : cells.Nodup)
    (apart : ∀ c ∈ cells, ∀ c' ∈ cells, cache.nodePtr c = cache.nodePtr c' → c = c')
    (pooled : Pooled L pool) :
    ∃ t, PooledCache.clearNodes L cells cache pool = some (nodes, t) ∧ Pooled L t.pool ∧
      t.pool.live = [] ∧ t.cache.myList = [] ∧ t.cache.map = cache.map ∧
      ∀ a, t.cache.node a = none := by
  induction cells generalizing cache pool nodes with
  | nil =>
    obtain rfl := List.forall₂_nil_left_iff.mp shown
    have empty : pool.live = [] := by
      refine List.eq_nil_iff_forall_not_mem.mpr fun a mem => ?_
      obtain ⟨c, inside, -⟩ := (owns.cells a).mp mem
      rw [whole] at inside
      cases inside
    refine ⟨⟨cache, pool⟩, rfl, pooled, empty, whole, rfl, fun a => ?_⟩
    by_contra there
    have mem := owns.nodes a there
    rw [empty] at mem
    cases mem
  | cons c rest ih =>
    obtain ⟨node, nodes', here, shown', rfl⟩ := List.forall₂_cons_left_iff.mp shown
    obtain ⟨a, pointer, stored⟩ := LruNodes.contents_eq_some here
    obtain ⟨gone, distinct'⟩ := List.nodup_cons.mp distinct
    have mem : c ∈ cache.myList := whole ▸ List.mem_cons_self
    have live : a ∈ pool.live := owns.nodes a (by simp [stored])
    have owns' : Owns { cache with node := Function.update cache.node a none, myList := rest }
        ((memoryMachine L).next pool (.deallocate a)) := by
      refine owns.remove pooled mem pointer (fun c' mem' => ?_) fun c' => ?_
      · rw [whole] at mem'
        exact apart c' mem' c List.mem_cons_self
      · rw [whole, List.mem_cons]
        constructor
        · exact fun later => ⟨.inr later, ne_of_mem_of_not_mem later gone⟩
        · exact fun ⟨either, differs⟩ => either.resolve_left differs
    have shown'' : List.Forall₂ (fun c' node' =>
        ({ cache with node := Function.update cache.node a none, myList := rest } :
          LruNodes K V ℕ).contents c' = some node') rest nodes' := by
      refine LruNodes.forall₂_congr shown' fun c' mem' node' entry => ?_
      rw [← entry]
      refine LruNodes.contents_update none pointer fun same => ?_
      have back := apart c' (List.mem_cons_of_mem c mem') c List.mem_cons_self same
      exact gone (back ▸ mem')
    obtain ⟨t, cleared, after⟩ := ih owns' rfl shown'' distinct' (fun c' mem' c'' mem'' =>
      apart c' (List.mem_cons_of_mem c mem') c'' (List.mem_cons_of_mem c mem''))
      (pooled.deallocate live)
    refine ⟨t, ?_, after⟩
    simp [PooledCache.clearNodes, pointer, stored, cleared]

omit [DecidableEq K] in
/-- `clear`, and what the destructor of the pool does then. -/
theorem Backed.clear (backed : Backed L s entries) :
    ∃ t, s.clear L = some (entries.nodes, t) ∧ t.pool.live = [] ∧
      t.pool.destruct = t.pool.blocks ∧ t.pool.blocks.Nodup := by
  have owns : Owns { s.cache with map := fun _ => none } s.pool :=
    ⟨backed.owns.cells, backed.owns.nodes⟩
  obtain ⟨t, cleared, pooled, live, -⟩ := clearNodes_eq owns rfl backed.represents.nodes
    backed.represents.cells backed.represents.apart backed.pooled
  exact ⟨t, cleared, live, pooled.destruct⟩

end Owns

/-! ### The cache in use -/

/-- The operations. -/
inductive PooledMove (K V : Type)
  | push (key : K) (value : V) (block : ℕ) (words : ℕ → ℕ)
  | get (key : K)

variable {K V : Type} [DecidableEq K] [Inhabited V]

/-- The operations on a cache of nodes with the layout `L`, beginning with an empty one. After
something undefined nothing is known. -/
def pooledMachine (L : SlotLayout) (capacity : ℤ) :
    Machine (Option (PooledCache K V)) (PooledMove K V) where
  init s := ∃ next, s = some (.new capacity next)
  enabled s
    | .push key _ block _ => ∀ t ∈ s, t.Provides L key block
    | .get _ => True
  next s
    | .push key value block words => s.bind fun s => s.push L key value block words
    | .get key => s.bind fun s => (s.get key).map Prod.snd

instance (L : SlotLayout) (s : PooledCache K V) (key : K) (block : ℕ) :
    Decidable (s.Provides L key block) :=
  inferInstanceAs (Decidable (_ → _ → _ → _))

instance (L : SlotLayout) (capacity : ℤ) (s : Option (PooledCache K V)) (a : PooledMove K V) :
    Decidable ((pooledMachine L capacity).enabled s a) := by
  induction a using PooledMove.casesOn <;> (dsimp only [pooledMachine]; infer_instance)

/-- The same operations on the entries alone. -/
def pooledReference (_ : Option (PooledCache K V)) (a : PooledMove K V) (entries : LruCache K V) :
    LruCache K V :=
  match a with
  | .push key value _ _ => entries.push key value
  | .get key => (entries.get key).2

/-- What holds of a cache that should have these entries. -/
structure CacheSound (L : SlotLayout) (s : PooledCache K V) (entries : LruCache K V) : Prop where
  /-- Nothing undefined happens, and `get` answers what has been pushed. -/
  answers : ∀ key, ∃ t,
    s.get key = some (((entries.get key).1.isSome, (entries.get key).1.getD default), t)
  /-- The nodes of the list have the slots in use, and nobody else has. -/
  owned : ∀ a, a ∈ s.pool.live ↔ ∃ c ∈ s.cache.myList, s.cache.nodePtr c = some a
  /-- Slots are aligned, inside their blocks, and do not overlap. -/
  apart : s.pool.live.Pairwise (Apart L.size)
  inside : ∀ a ∈ s.pool.live,
    L.align ∣ a ∧ ∃ b ∈ s.pool.blocks, b + 8 ≤ a ∧ a + L.size ≤ b + blockSize
  /-- The destructors give back every slot and delete every block, once. -/
  destroyed : ∃ t, s.clear L = some (entries.nodes, t) ∧ t.pool.live = [] ∧
    t.pool.destruct = t.pool.blocks ∧ t.pool.blocks.Nodup

omit [DecidableEq K] [Inhabited V] in
theorem backed_new {L : SlotLayout} {capacity : ℤ} {next : ℕ → ℕ}
    (proper : capacity = -1 ∨ 1 ≤ capacity ∧ capacity < 2 ^ 31) :
    Backed L (.new capacity next : PooledCache K V) (.fresh (limit capacity)) where
  represents := represents_new proper
  pooled := pooled_new L next
  owns := ⟨fun a => by simp [PooledCache.new, MemoryPool.new, LruNodes.new], fun _ there =>
    absurd rfl there⟩

theorem Backed.sound {L : SlotLayout} {s : PooledCache K V} {entries : LruCache K V}
    (backed : Backed L s entries) : CacheSound L s entries := by
  have distinct := List.nodup_append.mp backed.pooled.nodup
  refine ⟨fun key => ?_, backed.owns.cells, ?_, fun a mem => ?_, backed.clear⟩
  · obtain ⟨t, result, -⟩ := backed.get key
    exact ⟨t, result⟩
  · refine distinct.1.imp_of_mem fun mem mem' differ => ?_
    exact backed.pooled.apart (List.mem_append_left _ mem) (List.mem_append_left _ mem') differ
  · obtain ⟨b, inside, slot⟩ := backed.pooled.slots a (List.mem_append_left _ mem)
    exact ⟨slot.align_dvd, b, inside, slot.behind, slot.2⟩

/-- However the cache is used, and whatever is stored in its nodes, it works as the list of its
entries does, its nodes have slots of their own, and nothing is leaked. -/
theorem backed_of_reachable (L : SlotLayout) (capacity : ℤ)
    (proper : capacity = -1 ∨ 1 ≤ capacity ∧ capacity < 2 ^ 31)
    (p : Option (PooledCache K V) × LruCache K V)
    (reached : ((pooledMachine L capacity).observe (.fresh (limit capacity))
      pooledReference).Reachable p) :
    ∃ s, p.1 = some s ∧ CacheSound L s p.2 := by
  have kept : ∃ s, p.1 = some s ∧ Backed L s p.2 := by
    refine reached.invariant (I := fun p => ∃ s, p.1 = some s ∧ Backed L s p.2) ?_ ?_
    · rintro ⟨_, _⟩ ⟨⟨next, rfl⟩, rfl⟩
      exact ⟨_, rfl, backed_new proper⟩
    · rintro ⟨_, entries⟩ a ⟨s, rfl, backed⟩ available -
      cases a with
      | push key value block words =>
        obtain ⟨t, result, backed'⟩ := backed.push value words (available s rfl)
        exact ⟨t, result, backed'⟩
      | get key =>
        obtain ⟨t, result, backed'⟩ := backed.get key
        refine ⟨t, ?_, backed'⟩
        show (s.get key).map Prod.snd = some t
        rw [result]
        rfl
  obtain ⟨s, here, backed⟩ := kept
  exact ⟨s, here, backed.sound⟩

/-- A cache of two entries in the pool of the server, and the entries alone. -/
def pooledPair : Option (PooledCache ℕ ℕ) × LruCache ℕ ℕ :=
  (some (.new 2 fun _ => 0), .fresh (limit 2))

/-- Three keys are pushed, what is stored being all ones. -/
def pooledRun : List (PooledMove ℕ ℕ) :=
  [.push 1 10 65536 fun _ => 1, .push 2 20 0 fun _ => 1, .get 1, .push 3 30 0 fun _ => 1,
    .push 1 11 0 fun _ => 1]

/-- The third takes the slot of the second. -/
theorem backed_pooledRun :
    (((pooledMachine nodeLayout 2).observe (.fresh (limit 2)) pooledReference).after pooledPair
      pooledRun).2.nodes = [(1, 11), (3, 30)] ∧
    ∃ s, (((pooledMachine nodeLayout 2).observe (.fresh (limit 2)) pooledReference).after pooledPair
      pooledRun).1 = some s ∧ CacheSound nodeLayout s
        (((pooledMachine nodeLayout 2).observe (.fresh (limit 2)) pooledReference).after pooledPair
          pooledRun).2 := by
  have starts : ((pooledMachine nodeLayout 2).observe (.fresh (limit 2)) pooledReference).init
      pooledPair := ⟨⟨_, rfl⟩, rfl⟩
  have follows : ((pooledMachine nodeLayout 2).observe (.fresh (limit 2)) pooledReference).Follows
      (fun _ _ => True) pooledPair pooledRun := by
    decide +kernel
  exact ⟨by decide +kernel, backed_of_reachable nodeLayout 2 (by decide) _
    ((Machine.Reaches.start starts).follow follows)⟩

end CoroutineService.Containers
