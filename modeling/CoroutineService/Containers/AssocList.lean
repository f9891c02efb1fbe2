import Mathlib.Data.List.Nodup

/-!
# Association lists

Entries with distinct keys, the newest first. An entry can be added in front, taken out, or given
another value where it is.

## Main definitions

* `AssocList`: the entries, each key at most once
* `AssocList.push`, `AssocList.pop`, `AssocList.update`, `AssocList.find`: the operations

## Main results

* `AssocList.find_eq_none_iff`, `AssocList.find_eq_some_iff`: what is found
-/

set_option autoImplicit false

namespace CoroutineService.Containers

/-- Entries with distinct keys, the newest first. -/
structure AssocList (K V : Type*) where
  entries : List (K × V)
  distinct : (entries.map Prod.fst).Nodup

namespace AssocList

variable {K V : Type*}

/-- A list without entries. -/
def empty : AssocList K V := ⟨[], List.nodup_nil⟩

variable [DecidableEq K]

/-- An entry with this key has the value. -/
def assign (key : K) (value : V) (entry : K × V) : K × V :=
  if entry.1 = key then (key, value) else entry

theorem assign_fst (key : K) (value : V) (entry : K × V) :
    (assign key value entry).1 = entry.1 := by
  unfold assign
  split
  case isTrue here => exact here.symm
  case isFalse => rfl

theorem map_fst_assign (key : K) (value : V) (entries : List (K × V)) :
    (entries.map (assign key value)).map Prod.fst = entries.map Prod.fst := by
  rw [List.map_map]
  exact List.map_congr_left fun entry _ => assign_fst key value entry

variable (list : AssocList K V) (key : K) (value : V)

/-- A new entry in front, unless the key is present. -/
def push : Bool × AssocList K V :=
  if present : key ∈ list.entries.map Prod.fst then (false, list)
  else (true, ⟨(key, value) :: list.entries, List.nodup_cons.mpr ⟨present, list.distinct⟩⟩)

/-- The entry of a key with this value is taken out. -/
def pop [DecidableEq V] : Bool × AssocList K V :=
  if (key, value) ∈ list.entries then
    (true, ⟨list.entries.eraseP fun entry => entry = (key, value),
      list.distinct.sublist (List.eraseP_sublist.map Prod.fst)⟩)
  else (false, list)

/-- The entry of a key has another value. -/
def update : Bool × AssocList K V :=
  if key ∈ list.entries.map Prod.fst then
    (true, ⟨list.entries.map (assign key value),
      (map_fst_assign key value list.entries).symm ▸ list.distinct⟩)
  else (false, list)

/-- The entry of a key in a list whose first entry has the number `n`. -/
def search (n : ℕ) (entries : List (K × V)) : Option (ℕ × V) :=
  ((entries.zipIdx n).find? fun entry => entry.1.1 = key).map fun entry => (entry.2, entry.1.2)

/-- The number of the entry of a key, counted from one, and its value. -/
def find : Option (ℕ × V) := search key 1 list.entries

variable {list key value}

@[simp]
theorem search_nil (n : ℕ) : search key n ([] : List (K × V)) = none := rfl

theorem search_cons (n : ℕ) (entry : K × V) (entries : List (K × V)) :
    search key n (entry :: entries) =
      if entry.1 = key then some (n, entry.2) else search key (n + 1) entries := by
  unfold search
  rw [List.zipIdx_cons, List.find?_cons]
  by_cases here : entry.1 = key
  · simp [here]
  · simp [here]

theorem search_eq_none_iff {n : ℕ} {entries : List (K × V)} :
    search key n entries = none ↔ key ∉ entries.map Prod.fst := by
  induction entries generalizing n with
  | nil => simp
  | cons entry entries ih =>
    rw [search_cons, List.map_cons, List.mem_cons]
    by_cases here : entry.1 = key
    · simp [here]
    · simp [here, Ne.symm here, ih]

/-- Nothing is found for the keys that are missing. -/
theorem find_eq_none_iff : list.find key = none ↔ key ∉ list.entries.map Prod.fst :=
  search_eq_none_iff

/-- With distinct keys, the number of an entry tells its place. -/
theorem search_eq_some_iff {n m : ℕ} {entries : List (K × V)}
    (distinct : (entries.map Prod.fst).Nodup) :
    search key n entries = some (m, value) ↔ ∃ k, m = n + k ∧ entries[k]? = some (key, value) := by
  induction entries generalizing n with
  | nil => simp
  | cons entry entries ih =>
    obtain ⟨fresh, distinct⟩ := List.nodup_cons.mp distinct
    rw [search_cons]
    by_cases here : entry.1 = key
    · rw [if_pos here, Option.some_inj, Prod.mk.injEq]
      constructor
      · rintro ⟨rfl, rfl⟩
        exact ⟨0, rfl, by simp [← here]⟩
      · rintro ⟨k, rfl, found⟩
        cases k with
        | zero =>
          obtain rfl : entry = (key, value) := Option.some_inj.mp found
          exact ⟨rfl, rfl⟩
        | succ k =>
          rw [List.getElem?_cons_succ] at found
          have later := List.mem_map_of_mem (f := Prod.fst) (List.mem_of_getElem? found)
          exact absurd (here ▸ later) fresh
    · rw [if_neg here, ih distinct]
      constructor
      · rintro ⟨k, rfl, found⟩
        exact ⟨k + 1, by omega, found⟩
      · rintro ⟨k, rfl, found⟩
        cases k with
        | zero => exact absurd (congrArg Prod.fst (Option.some_inj.mp found)) here
        | succ k => exact ⟨k, by omega, found⟩

/-- What is found is the entry of the key at this number, counted from one. -/
theorem find_eq_some_iff {n : ℕ} :
    list.find key = some (n, value) ↔ ∃ k, n = 1 + k ∧ list.entries[k]? = some (key, value) :=
  search_eq_some_iff list.distinct

end AssocList

end CoroutineService.Containers
