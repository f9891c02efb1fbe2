import Mathlib.Data.Nat.Notation
import Mathlib.Logic.Function.Basic

/-!
# Stacks that threads switch between

A coroutine has a stack of its own and a place where its context is saved. A thread executes
on one stack at a time; to go over to another it saves its registers, which say on which stack
it stands and how far the code there has come, and loads those saved before.

How far the code on a stack has come is the number of steps it has taken. Registers and saved
contexts hold such a number too, but nothing in the operations makes the two agree: a context
that is overwritten, or loaded twice, sends a thread to a place it has left long ago.

## Main definitions

* `Registers`: a stack and a point of the code on it
* `Stacks`: the registers of the threads and the saved contexts
* `Stacks.execute`, `Stacks.make`, `Stacks.swap`: the operations
* `Stacks.Exact`: every thread goes on where the code of its stack has come to

## Main results

* `Stacks.Exact.execute`, `Stacks.Exact.make`, `Stacks.Exact.swap`: the operations keep it so,
  as long as a thread saves its context where its own stack keeps it and loads that of a stack
  nobody stands on
-/

set_option autoImplicit false

namespace CoroutineService.Transition

/-- On which stack a thread executes, and at which point of the code. -/
structure Registers (κ : Type*) where
  stack : κ
  point : ℕ
  deriving DecidableEq, Repr

/-- The threads, the contexts saved for each stack, and the number of steps taken on it. -/
structure Stacks (ι κ : Type*) where
  cpu : ι → Registers κ
  ctx : κ → Registers κ
  ran : κ → ℕ

namespace Stacks

variable {ι κ : Type*} [DecidableEq ι] [DecidableEq κ] {g : Stacks ι κ} {place : ι → κ}
variable {i j : ι} {x y : κ}

/-- The thread `i` takes a step of the code it executes. -/
def execute (g : Stacks ι κ) (i : ι) : Stacks ι κ where
  cpu := Function.update g.cpu i ⟨(g.cpu i).stack, (g.cpu i).point + 1⟩
  ctx := g.ctx
  ran := Function.update g.ran (g.cpu i).stack (g.ran (g.cpu i).stack + 1)

/-- `getcontext` and `makecontext`: the code of `x` is to start from its beginning. -/
def make (g : Stacks ι κ) (x : κ) : Stacks ι κ :=
  { g with ctx := Function.update g.ctx x ⟨x, 0⟩ }

/-- `getcontext` of the thread `i` into the context of `x`. -/
def save (g : Stacks ι κ) (i : ι) (x : κ) : Stacks ι κ :=
  { g with ctx := Function.update g.ctx x (g.cpu i) }

/-- The registers of `i` are loaded from the context of `x`. -/
def load (g : Stacks ι κ) (i : ι) (x : κ) : Stacks ι κ :=
  { g with cpu := Function.update g.cpu i (g.ctx x) }

/-- `swapcontext` of the thread `i` from `x` to `y`. -/
def swap (g : Stacks ι κ) (i : ι) (x y : κ) : Stacks ι κ := (g.save i x).load i y

/-- The thread `i` stands on the stack `place i`, alone, and at the point the code there has come
to; the context of any other stack holds that point. -/
structure Exact (place : ι → κ) (g : Stacks ι κ) : Prop where
  alone : ∀ i j, place i = place j → i = j
  standing : ∀ i, g.cpu i = ⟨place i, g.ran (place i)⟩
  suspended : ∀ x, (∀ i, place i ≠ x) → g.ctx x = ⟨x, g.ran x⟩

namespace Exact

omit [DecidableEq ι] [DecidableEq κ] in
/-- Before anything has run. -/
theorem start (alone : ∀ i j, place i = place j → i = j) :
    Exact place ⟨fun i => ⟨place i, 0⟩, fun x => ⟨x, 0⟩, fun _ => 0⟩ where
  alone := alone
  standing _ := rfl
  suspended _ _ := rfl

/-- The code a thread executes goes on. -/
theorem execute (sound : g.Exact place) (i : ι) : (g.execute i).Exact place where
  alone := sound.alone
  standing j := by
    have here : (g.cpu i).stack = place i := by rw [sound.standing i]
    by_cases mine : j = i
    · subst mine
      simp [Stacks.execute, sound.standing j]
    · have apart : place j ≠ place i := fun same => mine (sound.alone j i same)
      simp [Stacks.execute, mine, here, apart, sound.standing j]
  suspended x left := by
    have here : (g.cpu i).stack = place i := by rw [sound.standing i]
    have apart : x ≠ place i := fun same => left i same.symm
    simp [Stacks.execute, here, apart, sound.suspended x left]

omit [DecidableEq ι] in
/-- A stack on which no code has run is given a context. -/
theorem make (sound : g.Exact place) (unused : g.ran x = 0) : (g.make x).Exact place where
  alone := sound.alone
  standing := sound.standing
  suspended y left := by
    by_cases same : y = x
    · subst same
      simp [Stacks.make, unused]
    · simpa [Stacks.make, same] using sound.suspended y left

omit [DecidableEq ι] in
/-- A context that is going to be overwritten before it is loaded. -/
theorem save (sound : g.Exact place) (stood : place j = x) : (g.save i x).Exact place where
  alone := sound.alone
  standing := sound.standing
  suspended y left := by
    have apart : y ≠ x := fun same => left j (stood.trans same.symm)
    simpa [Stacks.save, apart] using sound.suspended y left

/-- A thread goes over from its stack to one nobody stands on. -/
theorem swap (sound : g.Exact place) (mine : place i = x) (free : ∀ j, place j ≠ y) :
    (g.swap i x y).Exact (Function.update place i y) where
  alone j l same := by
    by_cases first : j = i <;> by_cases second : l = i
    · rw [first, second]
    · subst first
      rw [Function.update_self, Function.update_of_ne second] at same
      exact absurd same.symm (free l)
    · subst second
      rw [Function.update_self, Function.update_of_ne first] at same
      exact absurd same (free j)
    · rw [Function.update_of_ne first, Function.update_of_ne second] at same
      exact sound.alone j l same
  standing j := by
    by_cases here : j = i
    · subst here
      have apart : y ≠ x := fun same => free j (mine.trans same.symm)
      simp [Stacks.swap, Stacks.save, Stacks.load, apart, sound.suspended y free]
    · simp [Stacks.swap, Stacks.save, Stacks.load, here, sound.standing j]
  suspended z left := by
    by_cases same : z = x
    · subst same
      simp [Stacks.swap, Stacks.save, Stacks.load, sound.standing i, mine]
    · have before : ∀ j, place j ≠ z := by
        intro j stood
        by_cases here : j = i
        · subst here
          exact same (stood.symm.trans mine)
        · refine left j ?_
          rwa [Function.update_of_ne here]
      simpa [Stacks.swap, Stacks.save, Stacks.load, same] using sound.suspended z before

end Exact

end Stacks

end CoroutineService.Transition
