import Mathlib.Data.List.Infix

/-!
# Lexical paths

Where a path leads when no symbolic link is on it: empty components and `.` are
skipped, and `..` takes back the name before it. Seen from its start, a path climbs
some levels and goes down some names.

## Main definitions

* `resolve`: where a path leads from a directory
* `Relative`, `relative`: the levels a path climbs, and the names it then goes down

## Main results

* `resolve_append_of_head`: a path that is continued
* `resolve_eq_applyTo`: a path leads where its levels and names lead
* `prefix_applyTo_iff`: the paths that stay below the directory they start from
-/

set_option autoImplicit false

namespace CoroutineService.Text

/-- The name of a file or directory. -/
abbrev Name := List Char

/-- The components of a path. -/
def components (path : List Char) : List Name := path.splitOn '/'

/-- One component, from a directory that is given by the names leading to it. -/
def enter (dir : List Name) (component : Name) : List Name :=
  if component = [] ∨ component = ['.'] then dir
  else if component = ['.', '.'] then dir.dropLast
  else dir ++ [component]

/-- Where a path leads from a directory. -/
def resolve (dir : List Name) (path : List Char) : List Name := (components path).foldl enter dir

/-- The levels to climb, and the names to go down from there. -/
structure Relative where
  up : ℕ
  names : List Name
  deriving DecidableEq, Repr

namespace Relative

/-- One component more. -/
def enter (r : Relative) (component : Name) : Relative :=
  if component = [] ∨ component = ['.'] then r
  else if component = ['.', '.'] then
    if r.names = [] then { r with up := r.up + 1 } else { r with names := r.names.dropLast }
  else { r with names := r.names ++ [component] }

/-- Where the levels and names lead from a directory. -/
def applyTo (r : Relative) (dir : List Name) : List Name :=
  dir.take (dir.length - r.up) ++ r.names

end Relative

/-- What a path comes to. -/
def relative (path : List Char) : Relative := (components path).foldl Relative.enter ⟨0, []⟩

variable {dir : List Name} {r : Relative}

/-- A path that is continued behind a slash. -/
theorem resolve_append (dir : List Name) (path path' : List Char) :
    resolve dir (path ++ '/' :: path') = resolve (resolve dir path) path' := by
  unfold resolve components
  rw [List.splitOn_append_cons_of_beq _ _ (beq_self_eq_true '/'), List.foldl_append]

/-- A path that is continued by a text that begins with a slash, or is empty. -/
theorem resolve_append_of_head {text : List Char} (head : text = [] ∨ text.head? = some '/')
    (dir : List Name) (path : List Char) :
    resolve dir (path ++ text) = resolve (resolve dir path) text := by
  have still : ∀ dir, resolve dir [] = dir := fun _ => rfl
  rcases head with rfl | slash
  · rw [List.append_nil, still]
  · obtain ⟨path', rfl⟩ : ∃ path', text = '/' :: path' := by
      cases text with
      | nil => cases slash
      | cons c path' => exact ⟨path', by rw [Option.some_inj.mp slash]⟩
    have skipped := resolve_append (resolve dir path) [] path'
    rw [List.nil_append, still] at skipped
    rw [resolve_append, skipped]

theorem enter_applyTo (component : Name) :
    enter (r.applyTo dir) component = (r.enter component).applyTo dir := by
  unfold enter Relative.enter
  split
  case isTrue => rfl
  case isFalse =>
    split
    case isTrue =>
      split
      case isTrue top =>
        unfold Relative.applyTo
        rw [top, List.append_nil, List.append_nil, List.dropLast_eq_take, List.take_take,
          List.length_take]
        congr 1
        dsimp only
        omega
      case isFalse below =>
        unfold Relative.applyTo
        rw [List.dropLast_append_of_ne_nil below]
    case isFalse =>
      unfold Relative.applyTo
      rw [List.append_assoc]

/-- A path leads where its levels and names lead. -/
theorem resolve_eq_applyTo (dir : List Name) (path : List Char) :
    resolve dir path = (relative path).applyTo dir := by
  have along : ∀ (cs : List Name) (r : Relative),
      cs.foldl enter (r.applyTo dir) = (cs.foldl Relative.enter r).applyTo dir := by
    intro cs
    induction cs with
    | nil => exact fun _ => rfl
    | cons c cs ih =>
      intro r
      rw [List.foldl_cons, List.foldl_cons, enter_applyTo, ih]
  have start : dir = (⟨0, []⟩ : Relative).applyTo dir := by
    unfold Relative.applyTo
    rw [Nat.sub_zero, List.take_length, List.append_nil]
  unfold resolve relative
  nth_rewrite 1 [start]
  exact along _ _

/-- A path stays below the directory it starts from if it goes down to where it has
climbed from. -/
theorem prefix_applyTo_iff : dir <+: r.applyTo dir ↔ dir.drop (dir.length - r.up) <+: r.names := by
  unfold Relative.applyTo
  nth_rewrite 1 [← List.take_append_drop (dir.length - r.up) dir]
  exact List.prefix_append_right_inj _

/-- A path without `..` climbs no level. -/
theorem up_relative {path : List Char} (descends : ['.', '.'] ∉ components path) :
    (relative path).up = 0 := by
  have along : ∀ (cs : List Name) (r : Relative), ['.', '.'] ∉ cs → r.up = 0 →
      (cs.foldl Relative.enter r).up = 0 := by
    intro cs
    induction cs with
    | nil => exact fun _ _ level => level
    | cons c cs ih =>
      intro r descends level
      obtain ⟨other, descends'⟩ := not_or.mp (List.mem_cons.not.mp descends)
      refine ih _ descends' ?_
      unfold Relative.enter
      rw [if_neg (Ne.symm other)]
      split
      · exact level
      · exact level
  exact along _ _ descends rfl

/-- A path that climbs no level stays below the directory it starts from. -/
theorem prefix_applyTo_of_up (level : r.up = 0) : dir <+: r.applyTo dir := by
  rw [prefix_applyTo_iff, level, Nat.sub_zero, List.drop_length]
  exact List.nil_prefix

end CoroutineService.Text
