import CoroutineService.Transition.Machine
import Mathlib.Data.List.Basic
import Mathlib.Logic.Function.Basic

/-!
# The table of descriptors

`FdManager` keeps one `FdCtx` for each descriptor. `get` looks under a read lock and, if it
is to create an `FdCtx`, lets go of the lock before it takes it again for writing. Both
sections and `del` are atomic, and threads take turns between them.

## Main definitions

* `FdManager`: the table, and the threads between the two sections of `get`
* `fdMachine`: the sections of all threads
* `FdEvent`: what the callers see
* `OneCtx`: between two deletions everybody is given the same `FdCtx`
* `FoundEmpty`: an `FdCtx` is created for a descriptor that has none

## Main results

* `inRange_of_reachable`: the table is accessed within its bounds
* `oneCtx_of_reaches`: one `FdCtx` for each descriptor, if creators find their slot empty
* `not_oneCtx_create`: and otherwise two
-/

set_option autoImplicit false

namespace CoroutineService.Hook

open CoroutineService.Transition

/-- `m_datas`, whose `FdCtx` are named in the order of their construction, and what each
thread that is between the two sections of `get` is to create. `strayed` tells that an access
to `m_datas` was out of its range. -/
structure FdManager (Tid : Type*) where
  datas : List (Option ℕ)
  made : ℕ
  creating : Tid → Option ℕ
  strayed : Bool

/-- The sections. -/
inductive FdMove (Tid : Type*)
  | lookup (p : Tid) (fd : ℕ) (autoCreate : Bool)
  | create (p : Tid)
  | del (fd : ℕ)

/-- `std::vector::resize`. -/
def resize (n : ℕ) (datas : List (Option ℕ)) : List (Option ℕ) :=
  datas.take n ++ List.replicate (n - datas.length) none

/-- How the first section of `get` ends. -/
inductive Lookup
  | returns (ctx : Option ℕ)
  | misses
  deriving DecidableEq

namespace FdManager

variable {Tid : Type*} (s : FdManager Tid)

/-- `FdManager::FdManager`. -/
def initial : FdManager Tid := ⟨resize 64 [], 0, fun _ => none, false⟩

/-- What `m_datas[fd]` holds. -/
def slot (fd : ℕ) : Option ℕ := s.datas[fd]?.join

/-- Access `m_datas[fd]`. -/
def touch (fd : ℕ) : FdManager Tid := { s with strayed := s.strayed || s.datas.length ≤ fd }

/-- The section of `get` under the read lock. -/
def lookup (fd : ℕ) (autoCreate : Bool) : Lookup × FdManager Tid :=
  if s.datas.length ≤ fd then
    if autoCreate = false then (.returns none, s) else (.misses, s)
  else
    let s := s.touch fd
    if (s.slot fd).isSome ∨ autoCreate = false then (.returns (s.slot fd), s) else (.misses, s)

/-- Write to `m_datas[fd]`. -/
def assign (fd : ℕ) (ctx : Option ℕ) : FdManager Tid :=
  let s := s.touch fd
  { s with datas := s.datas.set fd ctx }

/-- Make room for `m_datas[fd]`. -/
def grow (fd : ℕ) : FdManager Tid :=
  if s.datas.length ≤ fd then { s with datas := resize (fd * 3 / 2) s.datas } else s

/-- The section of `get` under the write lock. It looks at the size again, but not at the
slot. -/
def create (fd : ℕ) : FdManager Tid :=
  { (s.grow fd).assign fd (some s.made) with made := s.made + 1 }

/-- `del`. -/
def del (fd : ℕ) : FdManager Tid := if s.datas.length ≤ fd then s else s.assign fd none

end FdManager

variable {Tid : Type*}

/-- The sections of all threads. A thread that is to create an `FdCtx` does so next. -/
def fdMachine [DecidableEq Tid] : Machine (FdManager Tid) (FdMove Tid) where
  init s := s = .initial
  enabled s
    | .lookup p _ _ => s.creating p = none
    | .create p => (s.creating p).isSome = true
    | .del _ => True
  next s
    | .lookup p fd autoCreate =>
      match s.lookup fd autoCreate with
      | (.returns _, s) => s
      | (.misses, s) => { s with creating := Function.update s.creating p (some fd) }
    | .create p =>
      match s.creating p with
      | none => s
      | some fd => { s.create fd with creating := Function.update s.creating p none }
    | .del fd => s.del fd

instance [DecidableEq Tid] (s : FdManager Tid) (a : FdMove Tid) :
    Decidable (fdMachine.enabled s a) := by
  induction a using FdMove.casesOn <;> (dsimp only [fdMachine]; infer_instance)

/-- What the callers see: a `get` that gives an `FdCtx`, and a `del`. -/
inductive FdEvent
  | got (fd ctx : ℕ)
  | deleted (fd : ℕ)
  deriving DecidableEq

/-- The events, the latest first. -/
def seen (s : FdManager Tid) (a : FdMove Tid) (history : List FdEvent) : List FdEvent :=
  match a with
  | .lookup _ fd autoCreate =>
    match s.lookup fd autoCreate with
    | (.returns (some ctx), _) => .got fd ctx :: history
    | _ => history
  | .create p =>
    match s.creating p with
    | none => history
    | some fd => .got fd s.made :: history
  | .del fd => .deleted fd :: history

/-- A `get` for a descriptor gives what an earlier one gave, unless there was a `del` in
between. -/
def OneCtx (history : List FdEvent) : Prop :=
  ∀ later between earlier fd ctx ctx',
    history = later ++ .got fd ctx' :: (between ++ .got fd ctx :: earlier) →
      .deleted fd ∉ between → ctx = ctx'

/-- A thread that creates an `FdCtx` still finds the slot empty. -/
def FoundEmpty (s : FdManager Tid) : FdMove Tid → Prop
  | .create p => (s.creating p).bind s.slot = none
  | _ => True

instance (s : FdManager Tid) (a : FdMove Tid) : Decidable (FoundEmpty s a) := by
  induction a using FdMove.casesOn <;> (dsimp only [FoundEmpty]; infer_instance)

/-! ### The table -/

theorem length_resize (n : ℕ) (datas : List (Option ℕ)) : (resize n datas).length = n := by
  simp only [resize, List.length_append, List.length_take, List.length_replicate]
  omega

/-- A table that grows keeps its slots, and the new ones are empty. -/
theorem getElem?_resize {n : ℕ} {datas : List (Option ℕ)} (grows : datas.length ≤ n) (i : ℕ) :
    ((resize n datas)[i]?).join = (datas[i]?).join := by
  unfold resize
  rw [List.take_of_length_le grows]
  by_cases inside : i < datas.length
  · rw [List.getElem?_append_left inside]
  · have beyond : datas.length ≤ i := Nat.not_lt.mp inside
    rw [List.getElem?_append_right beyond, List.getElem?_eq_none beyond]
    by_cases filled : i - datas.length < n - datas.length
    · rw [List.getElem?_replicate_of_lt filled]
      rfl
    · rw [List.getElem?_eq_none (by simpa using filled)]

namespace FdManager

variable {s : FdManager Tid} {fd other : ℕ} {ctx : Option ℕ}

theorem slot_assign_self (inside : fd < s.datas.length) : (s.assign fd ctx).slot fd = ctx := by
  show ((s.datas.set fd ctx)[fd]?).join = ctx
  rw [List.getElem?_set_self inside]
  rfl

theorem slot_assign_of_ne (differs : other ≠ fd) : (s.assign fd ctx).slot other = s.slot other := by
  show ((s.datas.set fd ctx)[other]?).join = _
  rw [List.getElem?_set_ne differs.symm]
  rfl

/-- The table has its first slots, and no access was out of its range. -/
structure InRange (s : FdManager Tid) : Prop where
  large : 64 ≤ s.datas.length
  stayed : s.strayed = false

theorem inRange_initial : (initial : FdManager Tid).InRange where
  large := by
    show 64 ≤ (resize 64 []).length
    exact Nat.le_of_eq (length_resize 64 []).symm
  stayed := rfl

namespace InRange

theorem touch (inRange : s.InRange) (inside : fd < s.datas.length) : (s.touch fd).InRange where
  large := inRange.large
  stayed := by
    show (s.strayed || decide (s.datas.length ≤ fd)) = false
    rw [inRange.stayed, decide_eq_false (Nat.not_le.mpr inside)]
    rfl

theorem assign (inRange : s.InRange) (inside : fd < s.datas.length) (ctx : Option ℕ) :
    (s.assign fd ctx).InRange where
  large := by
    show 64 ≤ (s.datas.set fd ctx).length
    rw [List.length_set]
    exact inRange.large
  stayed := (inRange.touch inside).stayed

/-- Half as much again is enough, since the table begins with 64 slots. -/
theorem le_half_again (inRange : s.InRange) (short : s.datas.length ≤ fd) :
    s.datas.length ≤ fd * 3 / 2 ∧ fd < fd * 3 / 2 := by
  have large := inRange.large
  omega

theorem grow (inRange : s.InRange) (fd : ℕ) :
    (s.grow fd).InRange ∧ fd < (s.grow fd).datas.length := by
  unfold FdManager.grow
  split
  case isTrue short =>
    obtain ⟨longer, beyond⟩ := inRange.le_half_again short
    have length : (resize (fd * 3 / 2) s.datas).length = fd * 3 / 2 := length_resize _ _
    refine ⟨⟨?_, inRange.stayed⟩, ?_⟩
    · exact length.symm ▸ Nat.le_trans inRange.large longer
    · exact length.symm ▸ beyond
  case isFalse inside => exact ⟨inRange, Nat.not_le.mp inside⟩

theorem slot_grow (inRange : s.InRange) (fd : ℕ) : (s.grow fd).slot = s.slot := by
  unfold FdManager.grow
  split
  case isTrue short =>
    funext i
    exact getElem?_resize (inRange.le_half_again short).1 i
  case isFalse => rfl

theorem create (inRange : s.InRange) (fd : ℕ) : (s.create fd).InRange := by
  obtain ⟨large, inside⟩ := inRange.grow fd
  have assigned := large.assign inside (some s.made)
  exact ⟨assigned.large, assigned.stayed⟩

theorem slot_create_self (inRange : s.InRange) : (s.create fd).slot fd = some s.made :=
  slot_assign_self (inRange.grow fd).2

theorem slot_create_of_ne (inRange : s.InRange) (differs : other ≠ fd) :
    (s.create fd).slot other = s.slot other := by
  rw [← inRange.slot_grow fd]
  exact slot_assign_of_ne differs

theorem del (inRange : s.InRange) : (s.del fd).InRange := by
  unfold FdManager.del
  split
  case isTrue => exact inRange
  case isFalse inside => exact inRange.assign (Nat.not_le.mp inside) none

end InRange

theorem slot_del_self : (s.del fd).slot fd = none := by
  unfold del
  split
  case isTrue short =>
    show (s.datas[fd]?).join = none
    rw [List.getElem?_eq_none short]
    rfl
  case isFalse inside => exact slot_assign_self (Nat.not_le.mp inside)

theorem slot_del_of_ne (differs : other ≠ fd) : (s.del fd).slot other = s.slot other := by
  unfold del
  split
  case isTrue => rfl
  case isFalse => exact slot_assign_of_ne differs

/-- The first section only reads. -/
theorem lookup_cases (s : FdManager Tid) (fd : ℕ) (autoCreate : Bool) :
    ((s.lookup fd autoCreate).1 = .misses ∨ (s.lookup fd autoCreate).1 = .returns (s.slot fd)) ∧
      ((s.lookup fd autoCreate).2 = s ∨
        fd < s.datas.length ∧ (s.lookup fd autoCreate).2 = s.touch fd) := by
  unfold lookup
  split
  case isTrue short =>
    have empty : s.slot fd = none := by
      unfold slot
      rw [List.getElem?_eq_none short]
      rfl
    split
    · exact ⟨.inr (congrArg Lookup.returns empty.symm), .inl rfl⟩
    · exact ⟨.inl rfl, .inl rfl⟩
  case isFalse inside =>
    dsimp only
    split
    · exact ⟨.inr rfl, .inr ⟨Nat.not_le.mp inside, rfl⟩⟩
    · exact ⟨.inl rfl, .inr ⟨Nat.not_le.mp inside, rfl⟩⟩

theorem InRange.lookup (inRange : s.InRange) (fd : ℕ) (autoCreate : Bool) :
    (s.lookup fd autoCreate).2.InRange := by
  rcases (lookup_cases s fd autoCreate).2 with same | ⟨inside, touched⟩
  · rw [same]
    exact inRange
  · rw [touched]
    exact inRange.touch inside

end FdManager

/-! ### What the callers see -/

section Seen

variable {s s' : FdManager Tid} {p : Tid} {fd ctx : ℕ} {autoCreate : Bool}
variable {history : List FdEvent}

/-- A lookup tells of the `FdCtx` in the slot, or of nothing. -/
theorem seen_lookup (s : FdManager Tid) (p : Tid) (fd : ℕ) (autoCreate : Bool)
    (history : List FdEvent) :
    seen s (.lookup p fd autoCreate) history = history ∨
      ∃ ctx, s.slot fd = some ctx ∧
        seen s (.lookup p fd autoCreate) history = .got fd ctx :: history := by
  obtain ⟨answer, -⟩ := FdManager.lookup_cases s fd autoCreate
  rcases looked : s.lookup fd autoCreate with ⟨found, s'⟩
  rw [looked] at answer
  unfold seen
  dsimp only
  rw [looked]
  split
  case h_1 ctx _ found =>
    cases found
    rcases answer with missed | here
    · cases missed
    · exact .inr ⟨ctx, (Lookup.returns.inj here).symm, rfl⟩
  case h_2 => exact .inl rfl

theorem seen_create (under : s.creating p = some fd) :
    seen s (.create p) history = .got fd s.made :: history := by
  unfold seen
  dsimp only
  rw [under]

/-- `get` has given `ctx` for `fd`, and there was no `del` since. -/
def Standing (history : List FdEvent) (fd ctx : ℕ) : Prop :=
  ∃ between earlier, history = between ++ .got fd ctx :: earlier ∧ .deleted fd ∉ between

theorem standing_got : Standing (.got fd ctx :: history) fd ctx :=
  ⟨[], history, rfl, List.not_mem_nil⟩

/-- What stands goes on to stand until a `del`. -/
theorem Standing.cons (standing : Standing history fd ctx) {event : FdEvent}
    (other : event ≠ .deleted fd) : Standing (event :: history) fd ctx := by
  obtain ⟨between, earlier, whole, kept⟩ := standing
  refine ⟨event :: between, earlier, by rw [whole]; rfl, fun mem => ?_⟩
  rcases List.mem_cons.mp mem with here | later
  · exact other here.symm
  · exact kept later

theorem standing_cons {event : FdEvent} (standing : Standing (event :: history) fd ctx) :
    event = .got fd ctx ∨ event ≠ .deleted fd ∧ Standing history fd ctx := by
  obtain ⟨between, earlier, whole, kept⟩ := standing
  cases between with
  | nil =>
    rw [List.nil_append] at whole
    exact .inl (List.cons.inj whole).1
  | cons first between =>
    obtain ⟨rfl, rest⟩ := List.cons.inj whole
    refine .inr ⟨fun here => kept (here ▸ List.mem_cons_self), between, earlier, rest, ?_⟩
    exact fun mem => kept (List.mem_cons_of_mem event mem)

/-- A new event must agree with what stands. -/
theorem oneCtx_cons {event : FdEvent} :
    OneCtx (event :: history) ↔
      OneCtx history ∧ ∀ fd ctx ctx', event = .got fd ctx' → Standing history fd ctx →
        ctx = ctx' := by
  constructor
  · intro one
    refine ⟨fun later between earlier fd ctx ctx' whole => ?_, ?_⟩
    · exact one (event :: later) between earlier fd ctx ctx' (by rw [whole]; rfl)
    · rintro fd ctx ctx' rfl ⟨between, earlier, whole, kept⟩
      exact one [] between earlier fd ctx ctx' (by rw [whole]; rfl) kept
  · rintro ⟨one, agrees⟩ later between earlier fd ctx ctx' whole kept
    cases later with
    | nil =>
      obtain ⟨here, rest⟩ := List.cons.inj whole
      exact agrees fd ctx ctx' here ⟨between, earlier, rest, kept⟩
    | cons first later => exact one later between earlier fd ctx ctx' (List.cons.inj whole).2 kept

/-- The table holds what the callers were given. -/
structure Held (s : FdManager Tid) (history : List FdEvent) : Prop where
  inRange : s.InRange
  one : OneCtx history
  slot : ∀ fd ctx, Standing history fd ctx → s.slot fd = some ctx

namespace Held

theorem frame (held : Held s history) (inRange : s'.InRange) (slots : s'.slot = s.slot) :
    Held s' history := ⟨inRange, held.one, by rw [slots]; exact held.slot⟩

/-- A caller is given what the slot holds, or what it holds from now on. -/
theorem got (held : Held s history) (inRange : s'.InRange)
    (others : ∀ other, other ≠ fd → s'.slot other = s.slot other) (here : s'.slot fd = some ctx)
    (agrees : s.slot fd = none ∨ s.slot fd = some ctx) : Held s' (.got fd ctx :: history) := by
  -- What stands is in the slot, and the slot is empty or holds what is given.
  have same : ∀ ctx', Standing history fd ctx' → ctx' = ctx := by
    intro ctx' standing
    rcases agrees with empty | filled
    · exact absurd (empty.symm.trans (held.slot fd ctx' standing)) (Option.some_ne_none _).symm
    · exact Option.some.inj ((held.slot fd ctx' standing).symm.trans filled)
  refine ⟨inRange, oneCtx_cons.mpr ⟨held.one, ?_⟩, ?_⟩
  · rintro other ctx' _ event standing
    obtain ⟨rfl, rfl⟩ := FdEvent.got.inj event
    exact same ctx' standing
  · intro other ctx' standing
    rcases standing_cons standing with event | ⟨-, older⟩
    · obtain ⟨rfl, rfl⟩ := FdEvent.got.inj event
      exact here
    · by_cases differs : other = fd
      · subst differs
        rw [same ctx' older]
        exact here
      · rw [others other differs]
        exact held.slot other ctx' older

theorem deleted (held : Held s history) (inRange : s'.InRange)
    (others : ∀ other, other ≠ fd → s'.slot other = s.slot other) :
    Held s' (.deleted fd :: history) := by
  refine ⟨inRange, oneCtx_cons.mpr ⟨held.one, ?_⟩, ?_⟩
  · rintro other ctx ctx' event
    cases event
  · intro other ctx standing
    rcases standing_cons standing with event | ⟨kept, older⟩
    · cases event
    · rw [others other fun here => kept (here ▸ rfl)]
      exact held.slot other ctx older

end Held

/-- The table holds nothing else. -/
structure Backed (s : FdManager Tid) (history : List FdEvent) : Prop where
  inRange : s.InRange
  given : ∀ fd ctx, s.slot fd = some ctx → ctx < s.made ∧ Standing history fd ctx

namespace Backed

theorem got (backed : Backed s history) (inRange : s'.InRange) (made : s.made ≤ s'.made)
    (others : ∀ other, other ≠ fd → s'.slot other = s.slot other)
    (here : s'.slot fd = some ctx) (older : ctx < s'.made) :
    Backed s' (.got fd ctx :: history) := by
  refine ⟨inRange, fun other ctx' filled => ?_⟩
  by_cases same : other = fd
  · subst same
    obtain rfl := Option.some.inj (here.symm.trans filled)
    exact ⟨older, standing_got⟩
  · rw [others other same] at filled
    obtain ⟨older', standing⟩ := backed.given other ctx' filled
    exact ⟨Nat.lt_of_lt_of_le older' made, standing.cons (fun event => by cases event)⟩

end Backed
end Seen

/-! ### Runs -/

section Steps

variable [DecidableEq Tid] {s s' : FdManager Tid} {p : Tid} {fd ctx : ℕ} {autoCreate : Bool}
variable {history : List FdEvent}

theorem next_lookup_returns {found : Option ℕ}
    (looked : s.lookup fd autoCreate = (.returns found, s')) :
    fdMachine.next s (.lookup p fd autoCreate) = s' := by
  dsimp only [fdMachine]
  rw [looked]

theorem next_lookup_misses (looked : s.lookup fd autoCreate = (.misses, s')) :
    fdMachine.next s (.lookup p fd autoCreate) =
      { s' with creating := Function.update s'.creating p (some fd) } := by
  dsimp only [fdMachine]
  rw [looked]

/-- A section under the read lock leaves the slots alone. -/
theorem next_lookup (inRange : s.InRange) (p : Tid) (fd : ℕ) (autoCreate : Bool) :
    (fdMachine.next s (.lookup p fd autoCreate)).InRange ∧
      (fdMachine.next s (.lookup p fd autoCreate)).slot = s.slot ∧
      (fdMachine.next s (.lookup p fd autoCreate)).made = s.made := by
  obtain ⟨-, result⟩ := FdManager.lookup_cases s fd autoCreate
  have inRange' := inRange.lookup fd autoCreate
  rcases looked : s.lookup fd autoCreate with ⟨answer, s'⟩
  rw [looked] at result inRange'
  have kept : s'.slot = s.slot ∧ s'.made = s.made := by
    rcases result with rfl | ⟨-, rfl⟩
    · exact ⟨rfl, rfl⟩
    · exact ⟨rfl, rfl⟩
  cases answer with
  | misses =>
    rw [next_lookup_misses looked]
    exact ⟨⟨inRange'.large, inRange'.stayed⟩, kept⟩
  | returns found =>
    rw [next_lookup_returns looked]
    exact ⟨inRange', kept⟩

theorem next_create (under : s.creating p = some fd) :
    fdMachine.next s (.create p) =
      { s.create fd with creating := Function.update s.creating p none } := by
  dsimp only [fdMachine]
  rw [under]

/-- No section accesses the table out of its range. -/
theorem FdManager.InRange.next (inRange : s.InRange) {a : FdMove Tid}
    (available : fdMachine.enabled s a) : (fdMachine.next s a).InRange := by
  cases a with
  | lookup p fd autoCreate => exact (next_lookup inRange p fd autoCreate).1
  | create p =>
    obtain ⟨fd, under⟩ := Option.isSome_iff_exists.mp available
    have created := inRange.create fd
    rw [next_create under]
    exact ⟨created.large, created.stayed⟩
  | del fd => exact inRange.del

theorem inRange_of_reachable (reached : fdMachine.Reachable s) : s.InRange := by
  refine reached.invariant (I := FdManager.InRange) ?_ ?_
  · rintro _ rfl
    exact FdManager.inRange_initial
  · exact fun s a inRange available _ => inRange.next available

/-! ### One `FdCtx` for each descriptor -/

theorem Held.next (held : Held s history) {a : FdMove Tid} (available : fdMachine.enabled s a)
    (foundEmpty : FoundEmpty s a) : Held (fdMachine.next s a) (seen s a history) := by
  cases a with
  | lookup p fd autoCreate =>
    obtain ⟨inRange, slots, -⟩ := next_lookup held.inRange p fd autoCreate
    rcases seen_lookup s p fd autoCreate history with same | ⟨ctx, filled, event⟩
    · rw [same]
      exact held.frame inRange slots
    · rw [event]
      exact held.got inRange (fun other _ => by rw [slots]) (by rw [slots, filled]) (.inr filled)
  | create p =>
    obtain ⟨fd, under⟩ := Option.isSome_iff_exists.mp available
    have empty : s.slot fd = none := by
      have found : (s.creating p).bind s.slot = none := foundEmpty
      rwa [under] at found
    have created := held.inRange.create fd
    rw [next_create under, seen_create under]
    exact held.got ⟨created.large, created.stayed⟩ (fun _ => held.inRange.slot_create_of_ne)
      held.inRange.slot_create_self (.inl empty)
  | del fd => exact held.deleted held.inRange.del fun _ => FdManager.slot_del_of_ne

/-- If every creator finds its slot empty, all accesses are within the table, and between two
deletions everybody is given the same `FdCtx`. -/
theorem oneCtx_of_reaches {q : FdManager Tid × List FdEvent}
    (reached : (fdMachine.observe [] seen).Reaches (fun q a => FoundEmpty q.1 a) q) :
    q.1.strayed = false ∧ OneCtx q.2 := by
  have held : Held q.1 q.2 := by
    refine reached.invariant (I := fun q => Held q.1 q.2) ?_ ?_
    · rintro ⟨_, _⟩ ⟨rfl, rfl⟩
      refine ⟨FdManager.inRange_initial, ?_, ?_⟩
      · intro later between earlier fd ctx ctx' whole
        cases later <;> cases whole
      · rintro fd ctx ⟨between, earlier, whole, -⟩
        cases between <;> cases whole
    · exact fun q a held available foundEmpty => held.next available foundEmpty
  exact ⟨held.inRange.stayed, held.one⟩

/-! ### Two creators -/

theorem Backed.next (backed : Backed s history) {a : FdMove Tid}
    (available : fdMachine.enabled s a) : Backed (fdMachine.next s a) (seen s a history) := by
  cases a with
  | lookup p fd autoCreate =>
    obtain ⟨inRange, slots, made⟩ := next_lookup backed.inRange p fd autoCreate
    rcases seen_lookup s p fd autoCreate history with same | ⟨ctx, filled, event⟩
    · rw [same]
      exact ⟨inRange, by rw [slots, made]; exact backed.given⟩
    · rw [event]
      exact backed.got inRange (Nat.le_of_eq made.symm) (fun other _ => by rw [slots])
        (by rw [slots, filled]) (by rw [made]; exact (backed.given fd ctx filled).1)
  | create p =>
    obtain ⟨fd, under⟩ := Option.isSome_iff_exists.mp available
    have created := backed.inRange.create fd
    have made : (s.create fd).made = s.made + 1 := rfl
    rw [next_create under, seen_create under]
    exact backed.got ⟨created.large, created.stayed⟩ (Nat.le_succ _)
      (fun _ => backed.inRange.slot_create_of_ne) backed.inRange.slot_create_self
      (Nat.lt_succ_self _)
  | del fd =>
    refine ⟨backed.inRange.del, fun other ctx filled => ?_⟩
    by_cases same : other = fd
    · subst same
      have empty : (s.del other).slot other = none := FdManager.slot_del_self
      exact absurd (empty.symm.trans filled) (Option.some_ne_none _).symm
    · have kept : (s.del fd).slot other = s.slot other := FdManager.slot_del_of_ne same
      obtain ⟨older, standing⟩ := backed.given other ctx (kept ▸ filled)
      have made : (s.del fd).made = s.made := by
        unfold FdManager.del
        split <;> rfl
      refine ⟨made.symm ▸ older, standing.cons fun event => same ?_⟩
      exact (FdEvent.deleted.inj event).symm

/-- A creator that finds its slot filled gives a second `FdCtx` for the descriptor. -/
theorem not_oneCtx_create {q : FdManager Tid × List FdEvent}
    (reached : (fdMachine.observe [] seen).Reachable q)
    (available : fdMachine.enabled q.1 (.create p)) (filled : ¬FoundEmpty q.1 (.create p)) :
    ¬OneCtx (seen q.1 (.create p) q.2) := by
  have backed : Backed q.1 q.2 := by
    refine reached.invariant (I := fun q => Backed q.1 q.2) ?_ ?_
    · rintro ⟨_, _⟩ ⟨rfl, rfl⟩
      refine ⟨FdManager.inRange_initial, fun fd ctx filled => absurd filled ?_⟩
      have empty : (FdManager.initial : FdManager Tid).slot fd = none :=
        getElem?_resize (by simp) fd
      rw [empty]
      exact (Option.some_ne_none _).symm
    · exact fun q a backed available _ => backed.next available
  obtain ⟨fd, under⟩ := Option.isSome_iff_exists.mp available
  have occupied : q.1.slot fd ≠ none := fun empty => filled (by
    show (q.1.creating p).bind q.1.slot = none
    rw [under]
    exact empty)
  obtain ⟨ctx, there⟩ := Option.ne_none_iff_exists'.mp occupied
  obtain ⟨older, standing⟩ := backed.given fd ctx there
  rw [seen_create under]
  intro one
  exact Nat.ne_of_lt older ((oneCtx_cons.mp one).2 fd ctx q.1.made rfl standing)

end Steps

/-- Two threads, and nothing done yet. -/
def emptyTable : FdManager Bool × List FdEvent := (.initial, [])

/-- The table grows, an `FdCtx` is found again, and after a `del` there is another one. -/
theorem oneCtx_grown :
    let q := (fdMachine.observe [] seen).after emptyTable
      [.lookup true 70 true, .lookup false 3 true, .create true, .lookup true 70 false,
        .create false, .lookup true 70 false, .del 70, .lookup true 70 true, .create true]
    (q.1.datas.length = 105 ∧
      q.2 = [.got 70 2, .deleted 70, .got 70 0, .got 3 1, .got 70 0, .got 70 0]) ∧
      q.1.strayed = false ∧ OneCtx q.2 := by
  have starts : (fdMachine.observe [] seen).init emptyTable := ⟨rfl, rfl⟩
  have follows : (fdMachine.observe [] seen).Follows (fun q a => FoundEmpty q.1 a) emptyTable
      [.lookup true 70 true, .lookup false 3 true, .create true, .lookup true 70 false,
        .create false, .lookup true 70 false, .del 70, .lookup true 70 true, .create true] := by
    decide +kernel
  exact ⟨by decide +kernel, oneCtx_of_reaches ((Machine.Reaches.start starts).follow follows)⟩

/-- Two threads that both find no `FdCtx` for a descriptor both create one. -/
theorem two_ctxs :
    ¬ ∀ q : FdManager Bool × List FdEvent, (fdMachine.observe [] seen).Reachable q →
      q.1.strayed = false ∧ OneCtx q.2 := by
  intro kept
  have starts : (fdMachine.observe [] seen).init emptyTable := ⟨rfl, rfl⟩
  have follows : (fdMachine.observe [] seen).Follows (fun _ _ => True) emptyTable
      [.lookup true 5 true, .lookup false 5 true, .create true, .create false] := by
    decide +kernel
  have one := (kept _ ((Machine.Reaches.start starts).follow follows)).2
  have twice : ((fdMachine.observe [] seen).after emptyTable
      [.lookup true 5 true, .lookup false 5 true, .create true, .create false]).2 =
        [] ++ .got 5 1 :: ([] ++ .got 5 0 :: []) := by
    decide +kernel
  exact absurd (one [] [] [] 5 0 1 twice List.not_mem_nil) (by decide)

end CoroutineService.Hook
