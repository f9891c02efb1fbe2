import CoroutineService.Transition.Machine
import Mathlib.Data.List.Basic

/-!
# The descriptor table

`m_fdContexts` maps descriptors to `FdContext`s. `addEvent` looks at its size
under a read lock, gives the lock up, and lets `contextResize` grow the table
under a write lock when the descriptor lay outside. What it asks for is computed
from its own descriptor and not compared with the size the table has by then.

Sizes are natural numbers: the limit `main` sets on the address space keeps the
vector far below the `2 ^ 31` entries at which the cast to `int` would matter.

## Main definitions

* `Table`: `m_fdContexts` and the `FdContext`s constructed so far
* `contextResize`: the vector resized and its null entries filled
* `tableMachine`: any number of concurrent calls of `addEvent`

## Main results

* `tableKept_of_reaches`: contexts stay where they are while no resize shrinks
* `forgets_of_shrinks`: every resize that shrinks the table forgets a context
* `context_forgotten`: two threads and two descriptors lose a context
-/

set_option autoImplicit false

namespace CoroutineService.IOManager

open CoroutineService.Transition

/-- `m_fdContexts`, a null pointer being `none`. An `FdContext` is named by its
place in `constructed`, which lists the `fd` field each was constructed with. -/
structure Table where
  contexts : List (Option ℕ)
  constructed : List ℕ
  deriving DecidableEq, Repr

/-- `std::vector::resize`: cut off, or padded with null pointers. -/
def resize (size : ℕ) (contexts : List (Option ℕ)) : List (Option ℕ) :=
  contexts.take size ++ List.replicate (size - contexts.length) none

/-- The loop of `contextResize` from index `i` on. -/
def construct : List (Option ℕ) → ℕ → List ℕ → List (Option ℕ) × List ℕ
  | [], _, constructed => ([], constructed)
  | some ctx :: rest, i, constructed =>
    let later := construct rest (i + 1) constructed
    (some ctx :: later.1, later.2)
  | none :: rest, i, constructed =>
    let later := construct rest (i + 1) (constructed ++ [i])
    (some constructed.length :: later.1, later.2)

namespace Table

/-- `IOManager::contextResize`. -/
def contextResize (size : ℕ) (T : Table) : Table :=
  let filled := construct (resize size T.contexts) 0 T.constructed
  ⟨filled.1, filled.2⟩

/-- The table of a new IOManager. -/
def initial : Table := contextResize 32 ⟨[], []⟩

/-- `(int)m_fdContexts.size() > fd`. -/
def inRange (T : Table) (fd : ℕ) : Bool := fd < T.contexts.length

/-- What reading `m_fdContexts[fd]` yields; `none` for a read beyond the end or a
null pointer. -/
def get (T : Table) (fd : ℕ) : Option ℕ := T.contexts[fd]?.join

/-- The size `addEvent` asks for, `fd * 1.5` cut to an integer. -/
def wanted (fd : ℕ) : ℕ := fd * 3 / 2

end Table

/-! ### One resize -/

variable {contexts : List (Option ℕ)} {constructed : List ℕ} {size i start : ℕ} {ctx : ℕ}

theorem length_resize : (resize size contexts).length = size := by
  simp only [resize, List.length_append, List.length_take, List.length_replicate]
  omega

theorem getElem?_resize (kept : i < size) (inside : i < contexts.length) :
    (resize size contexts)[i]? = contexts[i]? := by
  rw [resize, List.getElem?_append_left (by simp; omega), List.getElem?_take_of_lt kept]

theorem length_construct : (construct contexts start constructed).1.length = contexts.length := by
  induction contexts generalizing start constructed with
  | nil => rfl
  | cons entry rest ih => cases entry <;> simp [construct, ih]

/-- The loop leaves the contexts it finds. -/
theorem getElem?_construct (found : contexts[i]? = some (some ctx)) :
    (construct contexts start constructed).1[i]? = some (some ctx) := by
  induction contexts generalizing start constructed i with
  | nil => cases found
  | cons entry rest ih =>
    cases i with
    | zero =>
      obtain rfl : entry = some ctx := by simpa using found
      rfl
    | succ i =>
      have later : rest[i]? = some (some ctx) := by simpa using found
      cases entry <;> simpa [construct] using ih later

/-- After the loop no entry is null. -/
theorem exists_construct (inside : i < contexts.length) :
    ∃ ctx, (construct contexts start constructed).1[i]? = some (some ctx) := by
  induction contexts generalizing start constructed i with
  | nil => cases inside
  | cons entry rest ih =>
    cases i with
    | zero => cases entry <;> simp [construct]
    | succ i =>
      have later : i < rest.length := by simpa using inside
      cases entry <;> simpa [construct] using ih later

namespace Table

variable {T : Table} {fd : ℕ}

@[simp]
theorem length_contextResize : (T.contextResize size).contexts.length = size := by
  simp [contextResize, length_construct, length_resize]

theorem get_eq_some_iff : T.get fd = some ctx ↔ T.contexts[fd]? = some (some ctx) := by
  simp [get, Option.join_eq_some_iff]

/-- A context below the new size stays. -/
theorem get_contextResize (kept : fd < size) (found : T.get fd = some ctx) :
    (T.contextResize size).get fd = some ctx := by
  rw [get_eq_some_iff] at found ⊢
  have inside : fd < T.contexts.length := (List.getElem?_eq_some_iff.mp found).1
  apply getElem?_construct
  rw [getElem?_resize kept inside, found]

/-- Below the new size every descriptor has a context. -/
theorem exists_get_contextResize (inside : fd < size) :
    ∃ ctx, (T.contextResize size).get fd = some ctx := by
  simp only [get_eq_some_iff]
  exact exists_construct (by rwa [length_resize])

/-- A context at or beyond the new size is forgotten. -/
theorem get_contextResize_of_le (beyond : size ≤ fd) :
    (T.contextResize size).get fd = none := by
  rw [get, List.getElem?_eq_none (by simpa using beyond)]
  rfl

/-- Beyond the first descriptors the size asked for covers the descriptor. -/
theorem lt_wanted (large : 2 ≤ fd) : fd < wanted fd := by
  unfold wanted
  omega

end Table

/-! ### One call at a time

When the calls do not overlap the table only grows, and the context of `fd` is
the `fd`-th one constructed. -/

namespace Table

/-- Contexts stand in the order of their construction. -/
def Straight (T : Table) : Prop :=
  T.contexts = (List.range T.contexts.length).map some ∧
    T.constructed = List.range T.contexts.length

variable {T : Table} {fd : ℕ}

theorem construct_map_some (l : List ℕ) (rest : List (Option ℕ)) :
    construct (l.map some ++ rest) start constructed =
      (l.map some ++ (construct rest (start + l.length) constructed).1,
        (construct rest (start + l.length) constructed).2) := by
  induction l generalizing start with
  | nil => rfl
  | cons ctx l ih =>
    have shift : start + (l.length + 1) = start + 1 + l.length := by omega
    simp [construct, ih, shift]

theorem construct_replicate_none (n : ℕ) :
    construct (List.replicate n none) start constructed =
      ((List.range' constructed.length n).map some, constructed ++ List.range' start n) := by
  induction n generalizing start constructed with
  | zero => simp [construct]
  | succ n ih => simp [List.replicate_succ, construct, ih, List.range'_succ]

theorem Straight.contextResize (straight : T.Straight) (grows : T.contexts.length ≤ size) :
    (T.contextResize size).Straight := by
  obtain ⟨contexts, constructed⟩ := straight
  have padded : resize size T.contexts =
      (List.range T.contexts.length).map some ++
        List.replicate (size - T.contexts.length) none := by
    rw [resize, List.take_of_length_le grows, ← contexts]
  have joined : List.range T.contexts.length ++
      List.range' T.contexts.length (size - T.contexts.length) = List.range size := by
    rw [List.range'_eq_map_range, ← List.range_add, Nat.add_sub_cancel' grows]
  have filled : T.contextResize size = ⟨(List.range size).map some, List.range size⟩ := by
    simp only [Table.contextResize, padded, constructed, construct_map_some,
      construct_replicate_none, List.length_range, Nat.zero_add, ← List.map_append, joined]
  rw [filled]
  constructor <;> simp

theorem Straight.get_eq (straight : T.Straight) :
    T.get fd = if fd < T.contexts.length then some fd else none := by
  have entry : T.contexts[fd]? = ((List.range T.contexts.length).map some)[fd]? :=
    congrArg (·[fd]?) straight.1
  rw [get, entry]
  by_cases inside : fd < T.contexts.length <;> simp [inside]

theorem straight_initial : initial.Straight := by
  refine Straight.contextResize ?_ (Nat.zero_le _)
  constructor <;> rfl

end Table

/-! ### Concurrent calls of `addEvent` -/

/-- Where a thread stands in `addEvent`. -/
inductive AddPhase
  | outside
  -- The descriptor lay beyond the table; the read lock is given up.
  | growing (fd : ℕ)
  -- `fd_ctx` is read.
  | found (fd : ℕ) (ctx : Option ℕ)
  deriving DecidableEq

/-- The table, the threads, and the registrations made so far. -/
structure TableState (Tid : Type*) where
  table : Table
  phase : Tid → AddPhase
  registrations : List (ℕ × ℕ)

/-- The steps of `addEvent`: the section under the read lock, the section under
the write lock, and the section under the lock of the context, which registers or
does not. -/
inductive TableMove (Tid : Type*)
  | check (t : Tid) (fd : ℕ)
  | grow (t : Tid) (fd : ℕ)
  | register (t : Tid) (fd ctx : ℕ)
  | leave (t : Tid) (fd : ℕ) (ctx : Option ℕ)

variable {Tid : Type*} [DecidableEq Tid]

/-- The calls of `addEvent` as a machine. -/
def tableMachine : Machine (TableState Tid) (TableMove Tid) where
  init s := s = ⟨Table.initial, fun _ => .outside, []⟩
  enabled
    | s, .check t _ => s.phase t = .outside
    | s, .grow t fd => s.phase t = .growing fd
    | s, .register t fd ctx => s.phase t = .found fd (some ctx)
    | s, .leave t fd ctx => s.phase t = .found fd ctx
  next
    | s, .check t fd =>
      let here := if s.table.inRange fd then .found fd (s.table.get fd) else .growing fd
      { s with phase := Function.update s.phase t here }
    | s, .grow t fd =>
      let grown := s.table.contextResize (Table.wanted fd)
      { s with table := grown, phase := Function.update s.phase t (.found fd (grown.get fd)) }
    | s, .register t fd ctx =>
      { s with
        phase := Function.update s.phase t .outside
        registrations := s.registrations ++ [(fd, ctx)] }
    | s, .leave t _ _ => { s with phase := Function.update s.phase t .outside }

variable {s s' : TableState Tid} {a : TableMove Tid} {t : Tid} {fd : ℕ}

instance (s : TableState Tid) (a : TableMove Tid) : Decidable (tableMachine.enabled s a) := by
  cases a <;> (dsimp only [tableMachine]; infer_instance)

theorem table_grow :
    (tableMachine.next s (.grow t fd)).table = s.table.contextResize (Table.wanted fd) := rfl

/-- When its turn comes, a resize does not ask for less than there is. -/
def NeverShrinks (s : TableState Tid) : TableMove Tid → Prop
  | .grow _ fd => s.table.contexts.length ≤ Table.wanted fd
  | _ => True

instance (s : TableState Tid) (a : TableMove Tid) : Decidable (NeverShrinks s a) := by
  cases a <;> (dsimp only [NeverShrinks]; infer_instance)

namespace AddPhase

/-- What `addEvent` may rely on, whatever the other threads do. -/
def Ready : AddPhase → Prop
  | .outside => True
  | .growing fd => 32 ≤ fd
  | .found _ ctx => ctx.isSome = true

/-- The context in hand is the one the table holds. -/
def Current (T : Table) : AddPhase → Prop
  | .found fd (some ctx) => T.get fd = some ctx
  | _ => True

end AddPhase

/-- What holds whatever the threads do: the table is full, and its first 32
descriptors never wait for a resize. -/
structure TableSound (s : TableState Tid) : Prop where
  large : 32 ≤ s.table.contexts.length
  full : ∀ fd < s.table.contexts.length, ∃ ctx, s.table.get fd = some ctx
  ready : ∀ t, (s.phase t).Ready

omit [DecidableEq Tid] in
theorem tableSound_initial :
    TableSound (⟨Table.initial, fun _ => .outside, []⟩ : TableState Tid) where
  large := by simp [Table.initial]
  full fd inside := Table.exists_get_contextResize (by simpa [Table.initial] using inside)
  ready _ := trivial

theorem TableSound.next (sound : TableSound s) (available : tableMachine.enabled s a) :
    TableSound (tableMachine.next s a) := by
  obtain ⟨large, full, ready⟩ := sound
  -- only the thread that moves has to be looked at
  have moves : ∀ (v : AddPhase) (t : Tid), v.Ready →
      ∀ t', (Function.update s.phase t v t').Ready := fun v t fits =>
    (Function.forall_update_iff _ fun _ (v : AddPhase) => v.Ready).mpr ⟨fits, fun t' _ => ready t'⟩
  cases a with
  | check t fd =>
    refine ⟨large, full, moves _ t ?_⟩
    by_cases inside : fd < s.table.contexts.length
    · obtain ⟨ctx, found⟩ := full fd inside
      simp [Table.inRange, inside, AddPhase.Ready, found]
    · simp only [Table.inRange, inside, decide_false, AddPhase.Ready]
      exact Nat.le_trans large (Nat.le_of_not_lt inside)
  | grow t fd =>
    have waits : s.phase t = .growing fd := available
    have beyond : 32 ≤ fd := by
      have known := ready t
      rwa [waits] at known
    have covers : fd < Table.wanted fd := Table.lt_wanted (by omega)
    obtain ⟨ctx, found⟩ := s.table.exists_get_contextResize covers
    refine ⟨?_, fun fd' inside => ?_, moves _ t ?_⟩
    · rw [table_grow, Table.length_contextResize]
      omega
    · exact Table.exists_get_contextResize (by simpa [tableMachine] using inside)
    · simp [AddPhase.Ready, found]
  | register t fd ctx => exact ⟨large, full, moves _ t trivial⟩
  | leave t fd ctx => exact ⟨large, full, moves _ t trivial⟩

theorem tableSound_of_reachable (reached : tableMachine.Reachable s) : TableSound s := by
  refine reached.invariant (fun s starts => ?_) fun s a sound available _ => sound.next available
  obtain rfl : s = _ := starts
  exact tableSound_initial

/-- A step that does not shrink the table leaves every context where it is. -/
theorem get_next (unshrunk : NeverShrinks s a) {ctx : ℕ} (found : s.table.get fd = some ctx) :
    (tableMachine.next s a).table.get fd = some ctx := by
  cases a with
  | grow t wide =>
    have inside := (List.getElem?_eq_some_iff.mp (Table.get_eq_some_iff.mp found)).1
    exact Table.get_contextResize (Nat.lt_of_lt_of_le inside unshrunk) found
  | _ => exact found

/-- A resize leaves every context where it is exactly when it does not shrink the
table. -/
theorem get_grow_iff (reached : tableMachine.Reachable s) :
    (∀ fd' ctx, s.table.get fd' = some ctx →
      (tableMachine.next s (.grow t fd)).table.get fd' = some ctx) ↔
      s.table.contexts.length ≤ Table.wanted fd := by
  refine ⟨fun kept => ?_, fun unshrunk fd' ctx found => get_next (a := .grow t fd) unshrunk found⟩
  by_contra shrinks
  have sound := tableSound_of_reachable reached
  obtain ⟨ctx, found⟩ := sound.full (Table.wanted fd) (Nat.lt_of_not_le shrinks)
  have forgotten := kept _ ctx found
  rw [table_grow, Table.get_contextResize_of_le (Nat.le_refl _)] at forgotten
  cases forgotten

/-- Contexts in hand and contexts registered with are those of the table. -/
structure TableCurrent (s : TableState Tid) : Prop where
  current : ∀ t, (s.phase t).Current s.table
  registered : ∀ entry ∈ s.registrations, s.table.get entry.1 = some entry.2

theorem TableCurrent.next (kept : TableCurrent s) (available : tableMachine.enabled s a)
    (unshrunk : NeverShrinks s a) : TableCurrent (tableMachine.next s a) := by
  obtain ⟨current, registered⟩ := kept
  have moves : ∀ (v : AddPhase) (t : Tid), v.Current (tableMachine.next s a).table →
      ∀ t', (Function.update s.phase t v t').Current (tableMachine.next s a).table := by
    intro v t fits
    refine (Function.forall_update_iff _ fun _ (v : AddPhase) => v.Current _).mpr
      ⟨fits, fun t' _ => ?_⟩
    have before := current t'
    cases stands : s.phase t' with
    | outside => trivial
    | growing fd => trivial
    | found fd ctx =>
      rw [stands] at before
      cases ctx with
      | none => trivial
      | some ctx => exact get_next unshrunk before
  have stay : ∀ entry ∈ s.registrations,
      (tableMachine.next s a).table.get entry.1 = some entry.2 :=
    fun entry mem => get_next unshrunk (registered entry mem)
  cases a with
  | check t fd =>
    refine ⟨moves _ t ?_, stay⟩
    by_cases inside : s.table.inRange fd = true
    · cases found : s.table.get fd <;> simp [inside, AddPhase.Current, tableMachine, found]
    · simp [inside, AddPhase.Current]
  | grow t fd =>
    refine ⟨moves _ t ?_, stay⟩
    cases found : (s.table.contextResize (Table.wanted fd)).get fd with
    | none => trivial
    | some ctx => exact found
  | register t fd ctx =>
    have holds : s.phase t = .found fd (some ctx) := available
    refine ⟨moves _ t trivial, fun entry mem => ?_⟩
    rcases List.mem_append.mp mem with old | new
    · exact stay entry old
    · obtain rfl := List.mem_singleton.mp new
      have mine := current t
      rwa [holds] at mine
  | leave t fd ctx => exact ⟨moves _ t trivial, stay⟩

/-! ### What the table guarantees -/

/-- `addEvent` reads `m_fdContexts[fd]` within the table and finds a context,
which is still the one the table holds, and so is every context a registration
was made on. -/
structure TableKept (s : TableState Tid) : Prop where
  inRange : ∀ t fd, tableMachine.enabled s (.grow t fd) →
    fd < (tableMachine.next s (.grow t fd)).table.contexts.length
  read : ∀ t fd ctx, s.phase t = .found fd ctx → ctx.isSome = true ∧ s.table.get fd = ctx
  registered : ∀ entry ∈ s.registrations, s.table.get entry.1 = some entry.2

/-- While no resize shrinks the table, a context once in the table stays in its
place, and the threads find it there. -/
theorem tableKept_of_reaches (reached : tableMachine.Reaches NeverShrinks s) :
    TableKept s ∧ ∀ s', tableMachine.Leads NeverShrinks s s' →
      ∀ fd ctx, s.table.get fd = some ctx → s'.table.get fd = some ctx := by
  have sound := tableSound_of_reachable reached.reachable
  have kept : TableCurrent s := by
    refine reached.invariant (fun s starts => ?_) fun s a kept available unshrunk =>
      kept.next available unshrunk
    obtain rfl : s = _ := starts
    exact ⟨fun _ => trivial, fun entry mem => absurd mem List.not_mem_nil⟩
  refine ⟨⟨fun t fd waits => ?_, fun t fd ctx stands => ?_, kept.registered⟩,
    fun s' later fd ctx found => ?_⟩
  · have beyond := sound.ready t
    have waits : s.phase t = .growing fd := waits
    rw [waits] at beyond
    have beyond : 32 ≤ fd := beyond
    rw [table_grow, Table.length_contextResize]
    exact Table.lt_wanted (by omega)
  · have ready := sound.ready t
    have current := kept.current t
    rw [stands] at ready current
    cases ctx with
    | none => cases ready
    | some ctx => exact ⟨rfl, current⟩
  · exact later.preserved (I := fun s => s.table.get fd = some ctx)
      (fun s a held _ unshrunk => get_next unshrunk held) found

/-- Both threads find their descriptors beyond the table; the larger one is
served first. -/
def shrinkRace : List (TableMove ℕ) :=
  [.check 0 50, .check 1 32, .grow 0 50, .register 0 50 50, .grow 1 32]

theorem tableKept_growRace :
    let s : TableState ℕ := tableMachine.after ⟨Table.initial, fun _ => .outside, []⟩
      [.check 0 50, .check 1 32, .grow 1 32, .grow 0 50]
    s.table.get 50 = some 50 ∧ TableKept s ∧ ∀ s', tableMachine.Leads NeverShrinks s s' →
      ∀ fd ctx, s.table.get fd = some ctx → s'.table.get fd = some ctx :=
  ⟨by decide, tableKept_of_reaches (Machine.Reaches.follow (.start rfl) (by decide))⟩

theorem context_forgotten :
    ¬ ∀ s : TableState ℕ, tableMachine.Reachable s →
      TableKept s ∧ ∀ s', tableMachine.Leads (fun _ _ => True) s s' →
        ∀ fd ctx, s.table.get fd = some ctx → s'.table.get fd = some ctx := by
  intro always
  have kept := (always (tableMachine.after ⟨Table.initial, fun _ => .outside, []⟩ shrinkRace)
    (Machine.reachable_after rfl (by decide))).1.registered (50, 50) (by decide)
  revert kept
  decide

end CoroutineService.IOManager
