import Mathlib.Data.List.Nodup
import Mathlib.Logic.ExistsUnique
import Mathlib.Logic.Function.Basic

/-!
# Things lent out of a stock

A fixed collection of things is partly in a stock and partly with the threads, each of which
holds at most one. Threads take a thing out of the stock and put it back at its end.

## Main definitions

* `Leased`: every thing is in the stock or with a thread, and in one place only

## Main results

* `Leased.one_place`: the places of a thing
* `Leased.turn`, `Leased.take`, `Leased.giveBack`: the steps that keep it so
* `Leased.discard`: what is left without the stock
* `Leased.create`, `Leased.dispose`: things that come and go
-/

set_option autoImplicit false

namespace CoroutineService.Transition

variable {ι φ κ : Type*} {holds : φ → Option κ} {whole : κ → Prop} {stock rest : List κ}
variable {phase : ι → φ} {i : ι} {v : φ} {k : κ}

/-- The things are those in `whole`. A thread in the phase `v` has `holds v`. -/
structure Leased (holds : φ → Option κ) (whole : κ → Prop) (stock : List κ) (phase : ι → φ) :
    Prop where
  nodup : stock.Nodup
  stocked : ∀ k ∈ stock, whole k
  held : ∀ i k, holds (phase i) = some k → whole k ∧ k ∉ stock
  single : ∀ i j k, holds (phase i) = some k → holds (phase j) = some k → i = j
  somewhere : ∀ k, whole k → k ∈ stock ∨ ∃ i, holds (phase i) = some k

namespace Leased

/-- In the beginning everything is in the stock. -/
theorem start (holds : φ → Option κ) (phase : ι → φ) (nodup : stock.Nodup)
    (nobody : ∀ i, holds (phase i) = none) :
    Leased holds (fun k => k ∈ stock) stock phase where
  nodup := nodup
  stocked _ mem := mem
  held i k mine := absurd ((nobody i).symm.trans mine) (Option.some_ne_none k).symm
  single i _ k mine := absurd ((nobody i).symm.trans mine) (Option.some_ne_none k).symm
  somewhere _ mem := .inl mem

/-- A thing is in the stock once, or with one thread. -/
theorem one_place [DecidableEq κ] (leased : Leased holds whole stock phase) (member : whole k) :
    (stock.count k = 1 ∧ ∀ i, holds (phase i) ≠ some k) ∨
      (k ∉ stock ∧ ∃! i, holds (phase i) = some k) := by
  rcases leased.somewhere k member with inside | ⟨i, mine⟩
  · refine .inl ⟨List.count_eq_one_of_mem leased.nodup inside, fun i mine => ?_⟩
    exact (leased.held i k mine).2 inside
  · refine .inr ⟨(leased.held i k mine).2, i, mine, fun j yours => ?_⟩
    exact leased.single j i k yours mine

/-- The same things, said otherwise. -/
theorem congr {whole' : κ → Prop} (leased : Leased holds whole stock phase)
    (same : ∀ k, whole k ↔ whole' k) : Leased holds whole' stock phase := by
  rwa [← funext fun k => propext (same k)]

/-- The stock is thrown away; what is left is with the threads. -/
theorem discard (leased : Leased holds whole stock phase) :
    Leased holds (fun k => whole k ∧ k ∉ stock) [] phase where
  nodup := List.nodup_nil
  stocked _ mem := absurd mem List.not_mem_nil
  held i k mine := ⟨leased.held i k mine, List.not_mem_nil⟩
  single := leased.single
  somewhere k member := .inr ((leased.somewhere k member.1).resolve_left member.2)

variable [DecidableEq ι]

/-- Who holds what after a thread has gone on. -/
theorem holds_update {j : ι} :
    holds (Function.update phase i v j) = some k ↔
      j = i ∧ holds v = some k ∨ j ≠ i ∧ holds (phase j) = some k := by
  by_cases here : j = i
  · subst here
    simp
  · simp [here]

/-- A thread that holds nothing goes on and holds nothing. -/
theorem turn (leased : Leased holds whole stock phase) (before : holds (phase i) = none)
    (after : holds v = none) : Leased holds whole stock (Function.update phase i v) := by
  have unmoved : ∀ {j k}, holds (Function.update phase i v j) = some k →
      holds (phase j) = some k := by
    intro j k mine
    rcases holds_update.mp mine with ⟨-, some'⟩ | ⟨-, same⟩
    · exact absurd (after.symm.trans some') (Option.some_ne_none k).symm
    · exact same
  refine ⟨leased.nodup, leased.stocked, ?_, ?_, ?_⟩
  · exact fun j k mine => leased.held j k (unmoved mine)
  · exact fun j j' k mine yours => leased.single j j' k (unmoved mine) (unmoved yours)
  · intro k member
    refine (leased.somewhere k member).imp_right fun ⟨j, mine⟩ => ⟨j, holds_update.mpr ?_⟩
    refine .inr ⟨fun here => ?_, mine⟩
    exact absurd (before.symm.trans (here ▸ mine)) (Option.some_ne_none k).symm

/-- A thread that holds nothing takes the first thing of the stock. -/
theorem take (leased : Leased holds whole (k :: rest) phase) (before : holds (phase i) = none)
    (after : holds v = some k) : Leased holds whole rest (Function.update phase i v) := by
  obtain ⟨gone, nodup⟩ := List.nodup_cons.mp leased.nodup
  have later : ∀ {k'}, k' ∉ k :: rest → k' ∉ rest := fun out mem =>
    out (List.mem_cons_of_mem k mem)
  refine ⟨nodup, fun k' mem => leased.stocked k' (List.mem_cons_of_mem k mem), ?_, ?_, ?_⟩
  · intro j k' mine
    rcases holds_update.mp mine with ⟨-, now⟩ | ⟨-, same⟩
    · obtain rfl := Option.some.inj (after.symm.trans now)
      exact ⟨leased.stocked k List.mem_cons_self, gone⟩
    · obtain ⟨member, out⟩ := leased.held j k' same
      exact ⟨member, later out⟩
  · -- what others hold has not been in the stock
    have others : ∀ j, holds (phase j) ≠ some k := fun j mine =>
      (leased.held j k mine).2 List.mem_cons_self
    intro j j' k' mine yours
    rcases holds_update.mp mine with ⟨here, now⟩ | ⟨-, same⟩ <;>
      rcases holds_update.mp yours with ⟨here', now'⟩ | ⟨-, same'⟩
    · exact here.trans here'.symm
    · exact absurd same' (Option.some.inj (after.symm.trans now) ▸ others j')
    · exact absurd same (Option.some.inj (after.symm.trans now') ▸ others j)
    · exact leased.single j j' k' same same'
  · intro k' member
    rcases leased.somewhere k' member with inside | ⟨j, mine⟩
    · rcases List.mem_cons.mp inside with rfl | inside
      · exact .inr ⟨i, holds_update.mpr (.inl ⟨rfl, after⟩)⟩
      · exact .inl inside
    · refine .inr ⟨j, holds_update.mpr (.inr ⟨fun here => ?_, mine⟩)⟩
      exact absurd (before.symm.trans (here ▸ mine)) (Option.some_ne_none k').symm

/-- A thread puts back what it holds. -/
theorem giveBack (leased : Leased holds whole stock phase) (before : holds (phase i) = some k)
    (after : holds v = none) :
    Leased holds whole (stock ++ [k]) (Function.update phase i v) := by
  obtain ⟨member, out⟩ := leased.held i k before
  have others : ∀ {j k'}, holds (Function.update phase i v j) = some k' →
      j ≠ i ∧ holds (phase j) = some k' := by
    intro j k' mine
    rcases holds_update.mp mine with ⟨-, some'⟩ | kept
    · exact absurd (after.symm.trans some') (Option.some_ne_none k').symm
    · exact kept
  refine ⟨?_, ?_, ?_, ?_, ?_⟩
  · rw [← List.concat_eq_append]
    exact List.Nodup.concat out leased.nodup
  · intro k' mem
    rcases List.mem_append.mp mem with older | last
    · exact leased.stocked k' older
    · rwa [List.mem_singleton.mp last]
  · intro j k' mine
    obtain ⟨other, same⟩ := others mine
    obtain ⟨member', out'⟩ := leased.held j k' same
    refine ⟨member', fun mem => ?_⟩
    rcases List.mem_append.mp mem with older | last
    · exact out' older
    · rw [List.mem_singleton.mp last] at same
      exact other (leased.single j i k same before)
  · exact fun j j' k' mine yours => leased.single j j' k' (others mine).2 (others yours).2
  · intro k' member'
    rcases leased.somewhere k' member' with inside | ⟨j, mine⟩
    · exact .inl (List.mem_append_left _ inside)
    · by_cases here : j = i
      · rw [here, before] at mine
        exact .inl (Option.some.inj mine ▸ List.mem_append_right _ (List.mem_singleton_self k))
      · exact .inr ⟨j, holds_update.mpr (.inr ⟨here, mine⟩)⟩

/-- A thread goes on with what it holds. -/
theorem keep (leased : Leased holds whole stock phase) (same : holds v = holds (phase i)) :
    Leased holds whole stock (Function.update phase i v) := by
  have unmoved : ∀ j, holds (Function.update phase i v j) = holds (phase j) := by
    intro j
    by_cases here : j = i
    · rw [here, Function.update_self]
      exact same
    · rw [Function.update_of_ne here]
  refine ⟨leased.nodup, leased.stocked, fun j k => ?_, fun j j' k => ?_, fun k member => ?_⟩
  · rw [unmoved]
    exact leased.held j k
  · rw [unmoved, unmoved]
    exact leased.single j j' k
  · simp only [unmoved]
    exact leased.somewhere k member

/-- A thread that holds nothing obtains a new thing. -/
theorem create (leased : Leased holds whole stock phase) (new : ¬whole k)
    (before : holds (phase i) = none) (after : holds v = some k) :
    Leased holds (fun k' => whole k' ∨ k' = k) stock (Function.update phase i v) := by
  have old : ∀ {j k'}, holds (phase j) = some k' → k' ≠ k ∧ j ≠ i := by
    intro j k' mine
    refine ⟨fun here => new (here ▸ (leased.held j k' mine).1), fun here => ?_⟩
    exact absurd (before.symm.trans (here ▸ mine)) (Option.some_ne_none k').symm
  refine ⟨leased.nodup, fun k' mem => .inl (leased.stocked k' mem), ?_, ?_, ?_⟩
  · intro j k' mine
    rcases holds_update.mp mine with ⟨-, now⟩ | ⟨-, same⟩
    · obtain rfl := Option.some.inj (after.symm.trans now)
      exact ⟨.inr rfl, fun mem => new (leased.stocked k mem)⟩
    · exact (leased.held j k' same).imp_left .inl
  · intro j j' k' mine yours
    rcases holds_update.mp mine with ⟨here, now⟩ | ⟨-, same⟩ <;>
      rcases holds_update.mp yours with ⟨here', now'⟩ | ⟨-, same'⟩
    · exact here.trans here'.symm
    · exact absurd (Option.some.inj (now.symm.trans after)) (old same').1
    · exact absurd (Option.some.inj (now'.symm.trans after)) (old same).1
    · exact leased.single j j' k' same same'
  · rintro k' (member | rfl)
    · refine (leased.somewhere k' member).imp_right fun ⟨j, mine⟩ => ⟨j, holds_update.mpr ?_⟩
      exact .inr ⟨(old mine).2, mine⟩
    · exact .inr ⟨i, holds_update.mpr (.inl ⟨rfl, after⟩)⟩

/-- A thread does away with what it holds. -/
theorem dispose (leased : Leased holds whole stock phase) (before : holds (phase i) = some k)
    (after : holds v = none) :
    Leased holds (fun k' => whole k' ∧ k' ≠ k) stock (Function.update phase i v) := by
  obtain ⟨-, out⟩ := leased.held i k before
  have others : ∀ {j k'}, holds (Function.update phase i v j) = some k' →
      j ≠ i ∧ holds (phase j) = some k' := by
    intro j k' mine
    rcases holds_update.mp mine with ⟨-, some'⟩ | kept
    · exact absurd (after.symm.trans some') (Option.some_ne_none k').symm
    · exact kept
  refine ⟨leased.nodup, fun k' mem => ⟨leased.stocked k' mem, fun here => out (here ▸ mem)⟩, ?_,
    fun j j' k' mine yours => leased.single j j' k' (others mine).2 (others yours).2, ?_⟩
  · intro j k' mine
    obtain ⟨other, same⟩ := others mine
    obtain ⟨member, out'⟩ := leased.held j k' same
    exact ⟨⟨member, fun here => other (leased.single j i k (here ▸ same) before)⟩, out'⟩
  · rintro k' ⟨member, other⟩
    refine (leased.somewhere k' member).imp_right fun ⟨j, mine⟩ => ⟨j, holds_update.mpr ?_⟩
    refine .inr ⟨fun here => other ?_, mine⟩
    rw [here] at mine
    exact Option.some.inj (mine.symm.trans before)

end Leased

end CoroutineService.Transition
