import CoroutineService.Containers.CString

/-!
# Host strings

`Address::Lookup` splits a string into a node and a service, first at brackets and then at its
only colon. The second search keeps the place of the colon it has found also when there are more
of them, so an IPv6 address without brackets is cut into a service.

## Main definitions

* `lookup`: what is passed to `getaddrinfo`
* `Splits`: the four ways to read a host string

## Main results

* `splits_iff`: host strings are split correctly unless they are such addresses
-/

set_option autoImplicit false

namespace CoroutineService.Address

open CString

/-- `memchr` in `count` bytes from `p` on. -/
def memchr (m : List Char) (p : ℕ) (c : Char) (count : ℕ) : Option ℕ :=
  (((m.drop p).take count).findIdx? (· == c)).map (p + ·)

/-- A string without NUL, as the standard library keeps it: a NUL follows. -/
structure Host where
  text : List Char
  noNul : '\x00' ∉ text

/-- The variables `node` and `service`; the latter is a place in the host string. -/
structure Parts where
  node : List Char
  service : Option ℕ
  deriving DecidableEq, Repr

/-- The first search: a node in brackets. -/
def bracketed (host : List Char) : Parts :=
  if charAt host 0 = '[' then
    match memchr host 1 ']' (host.length - 1) with
    | some endipv6 =>
      { node := (host.drop 1).take (endipv6 - 1)
        service := if charAt host (endipv6 + 1) = ':' then some (endipv6 + 2) else none }
    | none => ⟨[], none⟩
  else ⟨[], none⟩

/-- The second search: a node in front of the only colon. -/
def divided (host : List Char) (parts : Parts) : Parts :=
  if parts.node = [] then
    match memchr host 0 ':' host.length with
    | some service =>
      match memchr host (service + 1) ':' (host.length - service - 1) with
      | none => ⟨host.take service, some (service + 1)⟩
      | some _ => ⟨parts.node, some service⟩
    | none => ⟨parts.node, none⟩
  else parts

/-- `node.c_str()` and `service`, as they are passed to `getaddrinfo`. -/
def lookup (host : Host) : List Char × Option (List Char) :=
  let parts := divided host.text (bracketed host.text)
  let node := if parts.node = [] then host.text else parts.node
  (strAt node 0, parts.service.map (strAt host.text))

/-- The node and the service of a host string, for all its forms. -/
structure Splits (host : Host) : Prop where
  brackets : ∀ a, a ≠ [] → ']' ∉ a → host.text = '[' :: a ++ [']'] → lookup host = (a, none)
  bracketsService : ∀ a s, a ≠ [] → ']' ∉ a → host.text = '[' :: a ++ ']' :: ':' :: s →
    lookup host = (a, some s)
  service : ∀ n s, n ≠ [] → ':' ∉ n → ':' ∉ s → host.text.head? ≠ some '[' →
    host.text = n ++ ':' :: s → lookup host = (n, some s)
  bare : host.text ≠ [] → host.text.head? ≠ some '[' → host.text.count ':' ≠ 1 →
    lookup host = (host.text, none)

/-! ### The searches -/

variable {m : List Char} {c : Char} {p : ℕ}

theorem memchr_eq_none {count : ℕ} (other : c ∉ (m.drop p).take count) :
    memchr m p c count = none := by
  rw [memchr, Option.map_eq_none_iff, List.findIdx?_eq_none_iff]
  intro d mem
  simp only [beq_eq_false_iff_ne]
  rintro rfl
  exact other mem

/-- The first occurrence behind a place. -/
theorem memchr_append (before : List Char) {s : List Char} (rest : List Char) {count : ℕ}
    (other : c ∉ s) (start : before.length = p) (size : s.length + 1 + rest.length = count) :
    memchr (before ++ (s ++ c :: rest)) p c count = some (p + s.length) := by
  subst start
  have found : (s ++ c :: rest).findIdx? (· == c) = some s.length := by
    have none : s.findIdx? (· == c) = none := by
      rw [List.findIdx?_eq_none_iff]
      intro d mem
      simp only [beq_eq_false_iff_ne]
      rintro rfl
      exact other mem
    rw [List.findIdx?_append, none]
    simp [List.findIdx?_cons]
  have all : (s ++ c :: rest).take count = s ++ c :: rest :=
    List.take_of_length_le (by simp; omega)
  rw [memchr, List.drop_left, all, found]
  rfl

theorem strAt_eq_drop (noNul : '\x00' ∉ m) : strAt m p = m.drop p := by
  rw [strAt, List.takeWhile_eq_self_iff]
  intro d mem
  simp only [decide_not, Bool.not_eq_eq_eq_not, Bool.not_true, decide_eq_false_iff_not]
  rintro rfl
  exact noNul (List.mem_of_mem_drop mem)

/-! ### The forms of a host string -/

section

variable {host : Host} {a s n : List Char}

theorem bracketed_of_head (other : host.text.head? ≠ some '[') :
    bracketed host.text = ⟨[], none⟩ := by
  have first : charAt host.text 0 ≠ '[' := by
    intro first
    cases text : host.text with
    | nil =>
      rw [text] at first
      exact absurd first (by decide)
    | cons d rest =>
      rw [text] at first other
      exact other (congrArg some first)
  rw [bracketed, if_neg first]

theorem lookup_of_node {node : List Char} {service : Option ℕ}
    (found : divided host.text (bracketed host.text) = ⟨node, service⟩) (some : node ≠ [])
    (noNul : '\x00' ∉ node) : lookup host = (node, service.map host.text.drop) := by
  have texts : strAt host.text = host.text.drop := funext fun p => strAt_eq_drop host.noNul
  rw [lookup, found]
  dsimp only
  rw [if_neg some, strAt_eq_drop noNul, texts]
  rfl

theorem lookup_of_nil {service : Option ℕ}
    (found : divided host.text (bracketed host.text) = ⟨[], service⟩) :
    lookup host = (host.text, service.map host.text.drop) := by
  have texts : strAt host.text = host.text.drop := funext fun p => strAt_eq_drop host.noNul
  rw [lookup, found]
  dsimp only
  rw [if_pos rfl, texts]
  rfl

theorem bracketed_eq {rest : List Char} (other : ']' ∉ a)
    (text : host.text = '[' :: a ++ ']' :: rest) : bracketed host.text =
      ⟨a, if charAt rest 0 = ':' then some (a.length + 3) else none⟩ := by
  have search : memchr host.text 1 ']' (host.text.length - 1) = some (1 + a.length) := by
    rw [text]
    exact memchr_append ['['] rest other rfl (by simp; omega)
  have next : charAt host.text (1 + a.length + 1) = charAt rest 0 := by
    have behind := charAt_append_length ('[' :: a ++ [']']) rest 0
    rw [text]
    simpa [Nat.add_comm 1] using behind
  have node : (host.text.drop 1).take (1 + a.length - 1) = a := by
    rw [text]
    simp
  have first : charAt host.text 0 = '[' := by
    rw [text]
    rfl
  rw [bracketed, if_pos first, search]
  dsimp only
  rw [next, node]
  simp [Nat.add_comm 1]

/-- A node in brackets stays, whatever follows it. -/
theorem divided_of_node {parts : Parts} (some : parts.node ≠ []) :
    divided host.text parts = parts := if_neg some

theorem lookup_brackets (some : a ≠ []) (other : ']' ∉ a) (text : host.text = '[' :: a ++ [']']) :
    lookup host = (a, none) := by
  have found := bracketed_eq other text
  have noNul : '\x00' ∉ a := fun mem => host.noNul (by simp [text, mem])
  have parts : divided host.text (bracketed host.text) = ⟨a, none⟩ := by
    rw [found, divided_of_node some]
    rfl
  exact lookup_of_node parts some noNul

theorem lookup_bracketsService (some : a ≠ []) (other : ']' ∉ a)
    (text : host.text = '[' :: a ++ ']' :: ':' :: s) : lookup host = (a, .some s) := by
  have found := bracketed_eq other text
  have noNul : '\x00' ∉ a := fun mem => host.noNul (by simp [text, mem])
  have parts : divided host.text (bracketed host.text) = ⟨a, .some (a.length + 3)⟩ := by
    rw [found, divided_of_node some]
    rfl
  have behind : host.text.drop (a.length + 3) = s := by
    rw [text]
    simp
  rw [lookup_of_node parts some noNul, Option.map_some, behind]

theorem lookup_service (some : n ≠ []) (other : ':' ∉ n) (alone : ':' ∉ s)
    (bare : host.text.head? ≠ .some '[') (text : host.text = n ++ ':' :: s) :
    lookup host = (n, .some s) := by
  have noNul : '\x00' ∉ n := fun mem => host.noNul (by simp [text, mem])
  have first : memchr host.text 0 ':' host.text.length = .some n.length := by
    have found := memchr_append [] s other rfl
      (show n.length + 1 + s.length = host.text.length by rw [text]; simp; omega)
    rwa [List.nil_append, List.length_nil, Nat.zero_add, ← text] at found
  have second : memchr host.text (n.length + 1) ':' (host.text.length - n.length - 1) = none := by
    refine memchr_eq_none fun mem => alone ?_
    rw [text] at mem
    simpa using List.mem_of_mem_take mem
  have parts : divided host.text (bracketed host.text) = ⟨n, .some (n.length + 1)⟩ := by
    rw [bracketed_of_head bare, divided, if_pos rfl, first]
    dsimp only
    rw [second]
    dsimp only
    rw [text, List.take_left]
  have behind : host.text.drop (n.length + 1) = s := by
    rw [text]
    simp
  rw [lookup_of_node parts some noNul, Option.map_some, behind]

theorem lookup_noColon (none : ':' ∉ host.text) (bare : host.text.head? ≠ some '[') :
    lookup host = (host.text, .none) := by
  have search : memchr host.text 0 ':' host.text.length = .none :=
    memchr_eq_none fun mem => none (List.mem_of_mem_drop (List.mem_of_mem_take mem))
  have parts : divided host.text (bracketed host.text) = ⟨[], .none⟩ := by
    rw [bracketed_of_head bare, divided, if_pos rfl, search]
  exact lookup_of_nil parts

/-- With more than one colon, the service begins at the first. -/
theorem lookup_colons {t : List Char} (other : ':' ∉ n) (other' : ':' ∉ s)
    (bare : host.text.head? ≠ some '[') (text : host.text = n ++ ':' :: (s ++ ':' :: t)) :
    lookup host = (host.text, some (':' :: (s ++ ':' :: t))) := by
  have first : memchr host.text 0 ':' host.text.length = some n.length := by
    have found := memchr_append [] (s ++ ':' :: t) other rfl
      (show n.length + 1 + (s ++ ':' :: t).length = host.text.length by rw [text]; simp; omega)
    rwa [List.nil_append, List.length_nil, Nat.zero_add, ← text] at found
  have second : memchr host.text (n.length + 1) ':' (host.text.length - n.length - 1) =
      some (n.length + 1 + s.length) := by
    have found := memchr_append (n ++ [':']) t other' (List.length_append)
      (show s.length + 1 + t.length = host.text.length - n.length - 1 by rw [text]; simp; omega)
    rwa [List.append_assoc, List.singleton_append, ← text] at found
  have parts : divided host.text (bracketed host.text) = ⟨[], some n.length⟩ := by
    rw [bracketed_of_head bare, divided, if_pos rfl, first]
    dsimp only
    rw [second]
  have behind : host.text.drop n.length = ':' :: (s ++ ':' :: t) := by
    rw [text, List.drop_left]
  rw [lookup_of_nil parts, Option.map_some, behind]

end

/-- A host string is split correctly unless it has two colons or more and no bracket in front. -/
theorem splits_iff (host : Host) :
    Splits host ↔ ¬(host.text.head? ≠ some '[' ∧ 2 ≤ host.text.count ':') := by
  constructor
  · rintro splits ⟨bare, several⟩
    have mem : ':' ∈ host.text := List.count_pos_iff.mp (by omega)
    obtain ⟨n, rest, text, other⟩ := List.eq_append_cons_of_mem mem
    have more : ':' ∈ rest := by
      have none := List.count_eq_zero.mpr other
      rw [text, List.count_append, List.count_cons_self, none] at several
      exact List.count_pos_iff.mp (by omega)
    obtain ⟨s, t, rfl, other'⟩ := List.eq_append_cons_of_mem more
    have whole := splits.bare (List.ne_nil_of_mem mem) bare (by omega)
    rw [lookup_colons other other' bare text] at whole
    exact absurd (congrArg Prod.snd whole) nofun
  · intro few
    refine ⟨fun a some other text => lookup_brackets some other text,
      fun a s some other text => lookup_bracketsService some other text,
      fun n s some other alone bare text => lookup_service some other alone bare text,
      fun _ bare count => ?_⟩
    have none : host.text.count ':' = 0 := by
      have single : ¬2 ≤ host.text.count ':' := fun several => few ⟨bare, several⟩
      omega
    exact lookup_noColon (List.count_eq_zero.mp none) bare

/-- The address `::1` is cut into itself and the service `::1`. -/
theorem not_splits : ¬ ∀ host, Splits host := by
  intro splits
  have whole := (splits ⟨"::1".toList, by decide⟩).bare (by decide) (by decide) (by decide)
  exact absurd whole (by decide)

end CoroutineService.Address
