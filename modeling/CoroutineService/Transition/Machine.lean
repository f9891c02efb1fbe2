import Mathlib.Logic.Relation
import Mathlib.Data.List.Basic

/-!
# Guarded transition machines

A machine offers labelled moves. A guard says when a move is available and a
total function computes its effect, so every choice the environment makes is
part of the label and a run is determined by the labels it follows.

## Main definitions

* `Machine`: initial states, guards and effects
* `Machine.Reaches`: the states met by runs all of whose moves are permitted
* `Machine.Leads`: what comes later on a run
* `Machine.observe`: the same machine carrying a ghost record of its moves
* `Machine.Follows` / `Machine.after`: a concrete schedule and where it ends

## Main results

* `Machine.Reaches.invariant`: the induction along runs
* `Machine.Reaches.invariant_of`: the same, above a fact already known to hold
* `Machine.Reaches.project`: the runs of a part of a machine
* `Machine.Reaches.of_observe`: the runs of a machine with a ghost record
-/

set_option autoImplicit false

namespace CoroutineService.Transition

/-- A transition system presented by guarded moves. -/
structure Machine (σ α : Type*) where
  /-- The states a run may start in. -/
  init : σ → Prop
  /-- Whether a move is available. -/
  enabled : σ → α → Prop
  /-- The state after an available move. -/
  next : σ → α → σ

namespace Machine

variable {σ α η τ β : Type*} {M : Machine σ α} {N : Machine τ β}
variable {permitted : σ → α → Prop} {s : σ}

/-- `s` ends a run of `M` all of whose moves satisfy `permitted` in the state
they leave. -/
inductive Reaches (M : Machine σ α) (permitted : σ → α → Prop) : σ → Prop
  | start {s : σ} (initial : M.init s) : Reaches M permitted s
  | move {s : σ} {a : α} (prior : Reaches M permitted s) (available : M.enabled s a)
      (allowed : permitted s a) : Reaches M permitted (M.next s a)

/-- `s` ends some run of `M`. -/
abbrev Reachable (M : Machine σ α) : σ → Prop := M.Reaches fun _ _ => True

/-- Forbidding moves can only lose states. -/
theorem Reaches.mono {permitted' : σ → α → Prop}
    (weaker : ∀ s a, permitted s a → permitted' s a) (reached : M.Reaches permitted s) :
    M.Reaches permitted' s := by
  induction reached with
  | start initial => exact .start initial
  | move _ available allowed ih => exact .move ih available (weaker _ _ allowed)

theorem Reaches.reachable (reached : M.Reaches permitted s) : M.Reachable s :=
  reached.mono fun _ _ _ => trivial

/-- What holds initially and survives every permitted move holds along every
permitted run. -/
theorem Reaches.invariant {I : σ → Prop} (initially : ∀ s, M.init s → I s)
    (preserved : ∀ s a, I s → M.enabled s a → permitted s a → I (M.next s a))
    (reached : M.Reaches permitted s) : I s := by
  induction reached with
  | start initial => exact initially _ initial
  | move _ available allowed ih => exact preserved _ _ ih available allowed

/-- The invariant rule above a fact `J` already known of all states reached. -/
theorem Reaches.invariant_of {I J : σ → Prop}
    (known : ∀ s, M.Reaches permitted s → J s) (initially : ∀ s, M.init s → I s)
    (preserved : ∀ s a, J s → I s → M.enabled s a → permitted s a → I (M.next s a))
    (reached : M.Reaches permitted s) : I s := by
  induction reached with
  | start initial => exact initially _ initial
  | move prior available allowed ih => exact preserved _ _ (known _ prior) ih available allowed

/-- A function that takes initial states to initial states, and every move to a move or to none,
takes runs to runs. -/
theorem Reaches.project {permitted' : τ → β → Prop} (f : σ → τ)
    (initially : ∀ s, M.init s → N.init (f s))
    (matched : ∀ s a, M.enabled s a → permitted s a → f (M.next s a) = f s ∨
      ∃ b, N.enabled (f s) b ∧ permitted' (f s) b ∧ f (M.next s a) = N.next (f s) b)
    (reached : M.Reaches permitted s) : N.Reaches permitted' (f s) := by
  induction reached with
  | start initial => exact .start (initially _ initial)
  | move _ available allowed ih =>
    rcases matched _ _ available allowed with still | ⟨b, offered, allowed', moved⟩
    · rw [still]
      exact ih
    · rw [moved]
      exact ih.move offered allowed'

/-- `s'` comes after `s` on a run whose moves in between are permitted. -/
inductive Leads (M : Machine σ α) (permitted : σ → α → Prop) (s : σ) : σ → Prop
  | here : Leads M permitted s s
  | move {s' : σ} {a : α} (prior : Leads M permitted s s') (available : M.enabled s' a)
      (allowed : permitted s' a) : Leads M permitted s (M.next s' a)

/-- What every permitted move preserves is not lost later on. -/
theorem Leads.preserved {I : σ → Prop} {s' : σ} (leads : M.Leads permitted s s')
    (preserved : ∀ s a, I s → M.enabled s a → permitted s a → I (M.next s a)) (holds : I s) :
    I s' := by
  induction leads with
  | here => exact holds
  | move _ available allowed ih => exact preserved _ _ ih available allowed

/-! ### Ghost records -/

/-- The machine `M` carrying a record of its moves. The record is never read
by a guard or an effect. -/
def observe (M : Machine σ α) (fresh : η) (record : σ → α → η → η) : Machine (σ × η) α where
  init p := M.init p.1 ∧ p.2 = fresh
  enabled p a := M.enabled p.1 a
  next p a := (M.next p.1 a, record p.1 a p.2)

variable {fresh : η} {record : σ → α → η → η}

/-- Forgetting the record of an observed run leaves a run. -/
theorem Reaches.of_observe {p : σ × η}
    (reached : (M.observe fresh record).Reaches (fun q a => permitted q.1 a) p) :
    M.Reaches permitted p.1 := by
  refine reached.project Prod.fst ?_ ?_
  · intro p initial
    exact initial.1
  · intro p a available allowed
    exact .inr ⟨a, available, allowed, rfl⟩

theorem Reaches.reachable_of_observe {p : σ × η}
    (reached : (M.observe fresh record).Reachable p) : M.Reachable p.1 :=
  @of_observe σ α η M (fun _ _ => True) fresh record p reached

/-! ### Concrete schedules -/

/-- Two threads are numbered `0` and `1`. -/
instance : @NeZero ℕ Zero.ofOfNat0 2 := ⟨nofun⟩

/-- Every move of the schedule is available and permitted when its turn comes. -/
def Follows (M : Machine σ α) (permitted : σ → α → Prop) : σ → List α → Prop
  | _, [] => True
  | s, a :: rest => M.enabled s a ∧ permitted s a ∧ M.Follows permitted (M.next s a) rest

/-- Where a schedule ends. -/
def after (M : Machine σ α) (s : σ) (schedule : List α) : σ := schedule.foldl M.next s

instance decidableFollows [∀ s a, Decidable (M.enabled s a)] [∀ s a, Decidable (permitted s a)] :
    ∀ s schedule, Decidable (M.Follows permitted s schedule)
  | _, [] => isTrue trivial
  | s, a :: rest =>
    have := decidableFollows (M.next s a) rest
    inferInstanceAs (Decidable (M.enabled s a ∧ permitted s a ∧
      M.Follows permitted (M.next s a) rest))

instance [∀ s a, Decidable (M.enabled s a)] (p : σ × η) (a : α) :
    Decidable ((M.observe fresh record).enabled p a) :=
  inferInstanceAs (Decidable (M.enabled p.1 a))

/-- A schedule extends a run. -/
theorem Reaches.follow (reached : M.Reaches permitted s) {schedule : List α}
    (follows : M.Follows permitted s schedule) : M.Reaches permitted (M.after s schedule) := by
  induction schedule generalizing s with
  | nil => exact reached
  | cons a rest ih =>
    obtain ⟨available, allowed, onward⟩ := follows
    exact ih (reached.move available allowed) onward

/-- Where a schedule ends that starts a run. -/
theorem reachable_after {schedule : List α} (initial : M.init s)
    (follows : M.Follows (fun _ _ => True) s schedule) : M.Reachable (M.after s schedule) :=
  (Reaches.start initial).follow follows

end Machine

end CoroutineService.Transition
