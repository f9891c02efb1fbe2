import Mathlib.Logic.Function.Basic

/-!
# Data behind a lock

Cells of shared data each carry the lock that protects them. While a thread
holds a lock, what the cell may contain depends on where in its program the
thread stands; while nobody holds it, the cell is at rest.

## Main definitions

* `LockDiscipline`: which phases hold which lock, and what they require of it
* `LockDiscipline.Kept`: threads and cells agree

## Main results

* `LockDiscipline.Kept.unique`: a lock has one holder
* `LockDiscipline.Kept.acquire`, `advance`, `release`, `elsewhere`, `replace`:
  the five ways a step keeps the discipline
-/

set_option autoImplicit false

namespace CoroutineService.Transition

/-- How threads with phases in `φ` use the locks on cells `γ` named by `κ`. -/
structure LockDiscipline (ι φ κ γ : Type*) where
  /-- The lock held in a phase. -/
  holds : φ → Option κ
  /-- The holder the lock of a cell records. -/
  owner : γ → Option ι
  /-- What a cell at rest satisfies. -/
  rests : γ → Prop
  /-- What a phase requires of the cell whose lock it holds. -/
  fits : φ → γ → Prop

namespace LockDiscipline

variable {ι φ κ γ : Type*} {D : LockDiscipline ι φ κ γ}
variable {phase : ι → φ} {cell : κ → γ} {i j : ι} {k : κ} {v : φ} {c : γ}

/-- Each lock records the thread whose phase holds it, and each cell is as its
holder, or its rest, requires. -/
structure Kept (D : LockDiscipline ι φ κ γ) (phase : ι → φ) (cell : κ → γ) : Prop where
  owned : ∀ i k, D.holds (phase i) = some k ↔ D.owner (cell k) = some i
  rests : ∀ k, D.owner (cell k) = none → D.rests (cell k)
  fits : ∀ i k, D.holds (phase i) = some k → D.fits (phase i) (cell k)

theorem Kept.unique (kept : D.Kept phase cell) (mine : D.holds (phase i) = some k)
    (yours : D.holds (phase j) = some k) : i = j := by
  have recorded := (kept.owned i k).mp mine
  rw [(kept.owned j k).mp yours] at recorded
  exact (Option.some.inj recorded).symm

variable [DecidableEq ι]

/-- A thread that holds nothing may move on to a phase that holds nothing. -/
theorem Kept.elsewhere (kept : D.Kept phase cell) (before : D.holds (phase i) = none)
    (after : D.holds v = none) : D.Kept (Function.update phase i v) cell := by
  have unmoved : ∀ j k, D.holds (Function.update phase i v j) = some k →
      Function.update phase i v j = phase j := by
    intro j k holds
    by_cases moved : j = i
    · subst moved
      rw [Function.update_self, after] at holds
      cases holds
    · exact Function.update_of_ne moved _ _
  refine ⟨fun j k => ⟨fun holds => ?_, fun recorded => ?_⟩, kept.rests, fun j k holds => ?_⟩
  · rw [unmoved j k holds] at holds
    exact (kept.owned j k).mp holds
  · have held := (kept.owned j k).mpr recorded
    have other : j ≠ i := by
      rintro rfl
      rw [before] at held
      cases held
    rwa [Function.update_of_ne other]
  · have same := unmoved j k holds
    rw [same] at holds ⊢
    exact kept.fits j k holds

variable [DecidableEq κ]

omit [DecidableEq ι] in
/-- Overwriting a cell whose lock nobody holds. -/
theorem Kept.replace (kept : D.Kept phase cell) (before : D.owner (cell k) = none)
    (after : D.owner c = none) (atRest : D.rests c) : D.Kept phase (Function.update cell k c) := by
  have unheld : ∀ j, D.holds (phase j) ≠ some k := fun j held => by
    rw [(kept.owned j k).mp held] at before
    cases before
  refine ⟨fun j l => ?_, fun l recorded => ?_, fun j l held => ?_⟩
  · by_cases same : l = k
    · subst same
      simp [unheld j, after]
    · rw [Function.update_of_ne same]
      exact kept.owned j l
  · by_cases same : l = k
    · subst same
      rwa [Function.update_self]
    · rw [Function.update_of_ne same] at recorded ⊢
      exact kept.rests l recorded
  · have other : l ≠ k := fun same => unheld j (same ▸ held)
    rw [Function.update_of_ne other]
    exact kept.fits j l held

/-- A thread moves on to a phase that holds `k`, which was free or its own, and
leaves the cell as the new phase requires. -/
theorem Kept.hold (kept : D.Kept phase cell)
    (before : ∀ l, D.holds (phase i) = some l → l = k)
    (mine : ∀ j, D.holds (phase j) = some k → j = i)
    (after : D.holds v = some k) (recorded : D.owner c = some i) (fits : D.fits v c) :
    D.Kept (Function.update phase i v) (Function.update cell k c) := by
  refine ⟨fun j l => ?_, fun l unowned => ?_, fun j l held => ?_⟩
  · by_cases same : l = k
    · subst same
      rw [Function.update_self, recorded]
      by_cases moved : j = i
      · subst moved
        simp [after]
      · rw [Function.update_of_ne moved]
        exact ⟨fun held => absurd (mine j held) moved,
          fun owner => absurd (Option.some.inj owner).symm moved⟩
    · rw [Function.update_of_ne same, ← kept.owned j l]
      by_cases moved : j = i
      · subst moved
        rw [Function.update_self, after]
        exact ⟨fun held => absurd (Option.some.inj held).symm same,
          fun held => absurd (before l held) same⟩
      · rw [Function.update_of_ne moved]
  · by_cases same : l = k
    · subst same
      rw [Function.update_self, recorded] at unowned
      cases unowned
    · rw [Function.update_of_ne same] at unowned ⊢
      exact kept.rests l unowned
  · by_cases moved : j = i
    · subst moved
      rw [Function.update_self] at held ⊢
      obtain rfl : k = l := Option.some.inj (after.symm.trans held)
      rwa [Function.update_self]
    · rw [Function.update_of_ne moved] at held ⊢
      have other : l ≠ k := fun same => moved (mine j (same ▸ held))
      rw [Function.update_of_ne other]
      exact kept.fits j l held

/-- A thread that holds nothing takes a free lock. -/
theorem Kept.acquire (kept : D.Kept phase cell) (before : D.holds (phase i) = none)
    (free : D.owner (cell k) = none) (after : D.holds v = some k)
    (recorded : D.owner c = some i) (fits : D.fits v c) :
    D.Kept (Function.update phase i v) (Function.update cell k c) := by
  refine kept.hold (fun l held => ?_) (fun j held => ?_) after recorded fits
  · rw [before] at held
    cases held
  · rw [(kept.owned j k).mp held] at free
    cases free

/-- A thread moves on with its lock. -/
theorem Kept.advance (kept : D.Kept phase cell) (before : D.holds (phase i) = some k)
    (after : D.holds v = some k) (recorded : D.owner c = some i) (fits : D.fits v c) :
    D.Kept (Function.update phase i v) (Function.update cell k c) :=
  kept.hold (fun _ held => Option.some.inj (held.symm.trans before))
    (fun _ held => kept.unique held before) after recorded fits

/-- The same without touching the cell. -/
theorem Kept.proceed (kept : D.Kept phase cell) (before : D.holds (phase i) = some k)
    (after : D.holds v = some k) (fits : D.fits v (cell k)) :
    D.Kept (Function.update phase i v) cell := by
  have advanced := kept.advance before after ((kept.owned i k).mp before) fits
  rwa [Function.update_eq_self] at advanced

/-- A thread gives its lock back and leaves the cell at rest. -/
theorem Kept.release (kept : D.Kept phase cell) (before : D.holds (phase i) = some k)
    (after : D.holds v = none) (unowned : D.owner c = none) (atRest : D.rests c) :
    D.Kept (Function.update phase i v) (Function.update cell k c) := by
  have other : ∀ j l, D.holds (Function.update phase i v j) = some l →
      j ≠ i ∧ l ≠ k ∧ D.holds (phase j) = some l := by
    intro j l held
    have moved : j ≠ i := by
      rintro rfl
      rw [Function.update_self, after] at held
      cases held
    rw [Function.update_of_ne moved] at held
    exact ⟨moved, fun same => moved (kept.unique held (same ▸ before)), held⟩
  refine ⟨fun j l => ⟨fun held => ?_, fun recorded => ?_⟩, fun l recorded => ?_, fun j l held => ?_⟩
  · obtain ⟨-, different, held⟩ := other j l held
    rw [Function.update_of_ne different]
    exact (kept.owned j l).mp held
  · have different : l ≠ k := by
      rintro rfl
      rw [Function.update_self, unowned] at recorded
      cases recorded
    rw [Function.update_of_ne different] at recorded
    have held := (kept.owned j l).mpr recorded
    have moved : j ≠ i := by
      rintro rfl
      exact different (Option.some.inj (held.symm.trans before))
    rwa [Function.update_of_ne moved]
  · by_cases same : l = k
    · subst same
      rwa [Function.update_self]
    · rw [Function.update_of_ne same] at recorded ⊢
      exact kept.rests l recorded
  · obtain ⟨moved, different, held⟩ := other j l held
    rw [Function.update_of_ne moved, Function.update_of_ne different]
    exact kept.fits j l held

end LockDiscipline

end CoroutineService.Transition
