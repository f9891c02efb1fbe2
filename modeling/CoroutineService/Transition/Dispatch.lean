import CoroutineService.Transition.Machine
import Mathlib.Data.List.Perm.Basic
import Mathlib.Data.List.Nodup

/-!
# Dispatch queues with reserved items

Items are posted at the back of a queue. A client takes the first item it may
have; items reserved for others are passed over and keep their places. The
ledger stamps every item with its place in the posting order and remembers who
took it, so conservation and order are statements about stamps, however often
equal items are posted.

## Main definitions

* `Ledger`: what was posted, what waits, who took what
* `dispatchQueue`: the machine that posts and takes

## Main results

* `Ledger.Balanced.conserved`: what was posted waits or was taken, each stamp once
* `Ledger.take_earliest`: a client takes the earliest posted item it may have
-/

set_option autoImplicit false

namespace CoroutineService.Transition

variable {T W : Type*}

/-- The books of a dispatch queue: the items posted in order, the stamped items
still waiting in queue order, and the stamped items taken with their takers. -/
structure Ledger (T W : Type*) where
  posted : List T
  waiting : List (T × ℕ)
  taken : List ((T × ℕ) × W)

namespace Ledger

/-- Nothing posted yet. -/
def empty : Ledger T W := ⟨[], [], []⟩

/-- Post one item at the back of the queue. -/
def post (item : T) (L : Ledger T W) : Ledger T W where
  posted := L.posted ++ [item]
  waiting := L.waiting ++ [(item, L.posted.length)]
  taken := L.taken

/-- Client `w` takes the first waiting item it may have, if there is one. -/
def take (eligible : W → T → Bool) (w : W) (L : Ledger T W) : Ledger T W :=
  match L.waiting.find? fun e => eligible w e.1 with
  | none => L
  | some e =>
    { L with
      waiting := L.waiting.eraseP fun e => eligible w e.1
      taken := L.taken ++ [(e, w)] }

/-- The items waiting, without their stamps. -/
def items (L : Ledger T W) : List T := L.waiting.map Prod.fst

/-- The books are in order: each posted item is either waiting or taken, exactly
once; the queue stands in posting order; takers took what they may have. -/
structure Balanced (eligible : W → T → Bool) (L : Ledger T W) : Prop where
  conserved : (L.waiting ++ L.taken.map Prod.fst).Perm L.posted.zipIdx
  ordered : L.waiting.Pairwise fun e e' => e.2 < e'.2
  entitled : ∀ entry ∈ L.taken, eligible entry.2 entry.1.1 = true

variable {eligible : W → T → Bool} {L : Ledger T W} {w : W} {item : T}

theorem balanced_empty : Balanced eligible (empty : Ledger T W) where
  conserved := by simp [empty]
  ordered := by simp [empty]
  entitled := by simp [empty]

/-- Stamps of waiting items are places in the posting order. -/
theorem Balanced.stamp_lt (balanced : L.Balanced eligible) {e : T × ℕ} (mem : e ∈ L.waiting) :
    e.2 < L.posted.length := by
  have inPosted : e ∈ L.posted.zipIdx :=
    balanced.conserved.mem_iff.mp (List.mem_append_left _ mem)
  simpa using List.snd_lt_of_mem_zipIdx inPosted

theorem Balanced.post (balanced : L.Balanced eligible) : (L.post item).Balanced eligible where
  conserved := by
    have stamped : (L.posted ++ [item]).zipIdx = L.posted.zipIdx ++ [(item, L.posted.length)] := by
      simp [List.zipIdx_append]
    rw [Ledger.post, stamped, List.append_assoc]
    refine (List.Perm.append_left _ List.perm_append_comm).trans ?_
    rw [← List.append_assoc]
    exact balanced.conserved.append_right _
  ordered := by
    refine List.pairwise_append.mpr ⟨balanced.ordered, by simp, fun e mem e' mem' => ?_⟩
    obtain rfl := List.mem_singleton.mp mem'
    exact balanced.stamp_lt mem
  entitled := balanced.entitled

/-- Removing the first match splits off exactly that element. -/
theorem perm_cons_eraseP_of_find? {p : T → Bool} {l : List T} {e : T}
    (found : l.find? p = some e) : l.Perm (e :: l.eraseP p) := by
  obtain ⟨holds, front, back, rfl, passed⟩ := List.find?_eq_some_iff_append.mp found
  have untouched : ∀ b ∈ front, ¬ p b = true := fun b mem => by simpa using passed b mem
  rw [List.eraseP_append_right _ untouched, List.eraseP_cons_of_pos holds]
  exact List.perm_middle

theorem Balanced.take (balanced : L.Balanced eligible) : (L.take eligible w).Balanced eligible := by
  unfold Ledger.take
  split
  case h_1 => exact balanced
  case h_2 e found =>
    refine ⟨?_, balanced.ordered.sublist List.eraseP_sublist, fun entry mem => ?_⟩
    · have moved := (perm_cons_eraseP_of_find? found).symm
      refine List.Perm.trans ?_ balanced.conserved
      rw [List.map_append, ← List.append_assoc]
      refine List.perm_append_comm.trans ?_
      rw [List.map_singleton, List.singleton_append, ← List.cons_append]
      exact moved.append_right _
    · rcases List.mem_append.mp mem with old | new
      · exact balanced.entitled entry old
      · obtain rfl := List.mem_singleton.mp new
        have holds := List.find?_some found
        exact holds

/-- The entry a client takes is the earliest posted among those it may have,
and the other entries keep their order. -/
theorem Balanced.take_earliest (balanced : L.Balanced eligible) {e : T × ℕ}
    (found : (L.waiting.find? fun e => eligible w e.1) = some e) :
    e ∈ L.waiting ∧ eligible w e.1 = true ∧
      (∀ e' ∈ L.waiting, eligible w e'.1 = true → e.2 ≤ e'.2) ∧
      (L.take eligible w).waiting = L.waiting.filter (fun e' => e'.2 ≠ e.2) := by
  obtain ⟨holds, front, back, whole, passed⟩ := List.find?_eq_some_iff_append.mp found
  have ordered := balanced.ordered
  rw [whole, List.pairwise_append, List.pairwise_cons] at ordered
  obtain ⟨-, ⟨after, -⟩, before⟩ := ordered
  refine ⟨List.mem_of_find?_eq_some found, holds, fun e' mem entitled => ?_, ?_⟩
  · rw [whole, List.mem_append, List.mem_cons] at mem
    rcases mem with early | rfl | late
    · exact absurd entitled (by simpa using passed e' early)
    · exact Nat.le_refl _
    · exact Nat.le_of_lt (after e' late)
  · have untouched : ∀ b ∈ front, ¬ eligible w b.1 = true := fun b mem => by
      simpa using passed b mem
    have erased : (L.take eligible w).waiting = front ++ back := by
      simp only [Ledger.take, found]
      rw [whole, List.eraseP_append_right _ untouched]
      exact congrArg (front ++ ·)
        (List.eraseP_cons_of_pos (p := fun b : T × ℕ => eligible w b.1) holds)
    have keepsFront : front.filter (fun e' => e'.2 ≠ e.2) = front :=
      List.filter_eq_self.mpr fun b mem => by simpa using Nat.ne_of_lt (before b mem e (by simp))
    have keepsBack : back.filter (fun e' => e'.2 ≠ e.2) = back :=
      List.filter_eq_self.mpr fun b mem => by simpa using Nat.ne_of_gt (after b mem)
    rw [erased, whole, List.filter_append, List.filter_cons_of_neg (by simp), keepsFront, keepsBack]

/-- The queue of items after a take is the queue with its first eligible item
removed. -/
theorem items_take : (L.take eligible w).items = L.items.eraseP (eligible w) := by
  unfold Ledger.take items
  split
  case h_1 none =>
    rw [List.eraseP_of_forall_not]
    intro item mem
    obtain ⟨e, waits, rfl⟩ := List.mem_map.mp mem
    exact List.find?_eq_none.mp none e waits
  case h_2 => rw [List.eraseP_map]; rfl

theorem items_post : (L.post item).items = L.items ++ [item] := by
  simp [Ledger.post, items]

end Ledger

/-- What clients of a dispatch queue do. -/
inductive DispatchMove (T W : Type*)
  | post (item : T)
  | take (w : W)

/-- The dispatch queue as a machine on its books. -/
def dispatchQueue (eligible : W → T → Bool) : Machine (Ledger T W) (DispatchMove T W) where
  init L := L = Ledger.empty
  enabled _ _ := True
  next
    | L, .post item => L.post item
    | L, .take w => L.take eligible w

/-- The books of a dispatch queue stay in order. -/
theorem balanced_of_reachable {eligible : W → T → Bool} {L : Ledger T W}
    (reached : (dispatchQueue eligible).Reachable L) : L.Balanced eligible := by
  refine reached.invariant (fun L starts => ?_) fun L move balanced _ _ => ?_
  · obtain rfl : L = Ledger.empty := starts
    exact Ledger.balanced_empty
  · cases move with
    | post item => exact balanced.post
    | take w => exact balanced.take

end CoroutineService.Transition
