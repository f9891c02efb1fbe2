import CoroutineService.Http.Users
import CoroutineService.Transition.Machine
import Mathlib.Data.Fintype.Basic

/-!
# Registrations at the same time

A registration looks the name up before it takes `m_lock` and does not look again
behind it. Every label is one step of one request, and any number of requests take
their steps in any order.

## Main definitions

* `Stage`, `Registry`, `registrations`: the requests under way
* `UniqueNames`: a name is registered once
* `AsksFirst`: nobody looks a name up that another request is about to push

## Main results

* `after_alone`: a request that is not interrupted does what `register` says
* `uniqueNames_of_reaches`: names are registered once in runs of such look-ups
* `registers_twice`: two requests that look the same name up before either pushes it
-/

set_option autoImplicit false

namespace CoroutineService.Http

open CoroutineService.Containers CoroutineService.Transition

/-- The fields of a registration. -/
structure Form where
  name : List Char
  password : List Char
  deriving DecidableEq, Repr

/-- Where a registration stands, and once the `INSERT` is made, whether it has failed. -/
inductive Stage
  | asking
  | missing
  | locked
  | inserted (failed : Bool)
  | pushed (failed : Bool)
  | answered (page : String)
  deriving DecidableEq, Repr

/-- The cache, the table, the holder of `m_lock`, and where the requests stand. -/
structure Registry (ι : Type*) where
  users : Users
  table : Rows
  lock : Option ι
  stage : ι → Stage

/-- One step of a registration, or a login. -/
inductive RegistryMove (ι : Type*)
  | get (i : ι)
  | lock (i : ι)
  | insert (i : ι) (failed : Bool)
  | push (i : ι)
  | unlock (i : ι)
  | login (name password : List Char)
  deriving DecidableEq, Repr

namespace Stage

/-- What `users.get` leads to. -/
def ofGet : Option (List Char) → Stage
  | none => .missing
  | some _ => .answered "/registerError.html"

/-- `users.push` has been called. -/
def push : Stage → Stage
  | .inserted failed => .pushed failed
  | stage => stage

/-- `m_lock` is released and the page is chosen. -/
def unlock : Stage → Stage
  | .pushed failed => .answered (if failed then "/registerError.html" else "/log.html")
  | stage => stage

/-- Between the look-up and the `push`. -/
def registering : Stage → Bool
  | .missing | .locked | .inserted _ => true
  | .asking | .pushed _ | .answered _ => false

/-- Behind the `push`, unless the answer is an error. -/
def stored : Stage → Bool
  | .pushed _ => true
  | .answered page => page = "/log.html"
  | .asking | .missing | .locked | .inserted _ => false

/-- The `INSERT` has been made and has not failed. -/
def succeeded : Stage → Bool
  | .inserted failed | .pushed failed => !failed
  | .answered page => page = "/log.html"
  | .asking | .missing | .locked => false

end Stage

variable {ι : Type*}

section Steps

variable [DecidableEq ι]

/-- Requests with these forms, on a server that has loaded these rows. -/
def registrations (rows : Rows) (forms : ι → Form) : Machine (Registry ι) (RegistryMove ι) where
  init s := s = ⟨initmysqlResult rows, rows, none, fun _ => .asking⟩
  enabled s
    | .get i => s.stage i = .asking
    | .lock i => s.stage i = .missing ∧ s.lock = none
    | .insert i _ => s.stage i = .locked
    | .push i => s.stage i = .inserted true ∨ s.stage i = .inserted false
    | .unlock i => s.stage i = .pushed true ∨ s.stage i = .pushed false
    | .login _ _ => True
  next s
    | .get i =>
      let (back, users) := s.users.get (forms i).name
      { s with users, stage := Function.update s.stage i (.ofGet back) }
    | .lock i => { s with lock := some i, stage := Function.update s.stage i .locked }
    | .insert i failed =>
      { s with
        table := if failed then s.table else s.table ++ [((forms i).name, (forms i).password)]
        stage := Function.update s.stage i (.inserted failed) }
    | .push i =>
      { s with
        users := s.users.push (forms i).name (forms i).password
        stage := Function.update s.stage i (s.stage i).push }
    | .unlock i =>
      { s with lock := none, stage := Function.update s.stage i (s.stage i).unlock }
    | .login name password => { s with users := (login s.users name password).2 }

instance (rows : Rows) (forms : ι → Form) (s : Registry ι) (a : RegistryMove ι) :
    Decidable ((registrations rows forms).enabled s a) := by
  cases a <;> (dsimp only [registrations]; infer_instance)

end Steps

/-- For each name at most one request is answered with `/log.html`, and at most one row is
inserted. -/
structure UniqueNames (rows : Rows) (forms : ι → Form) (s : Registry ι) : Prop where
  answers : ∀ i j, (forms i).name = (forms j).name →
    s.stage i = .answered "/log.html" → s.stage j = .answered "/log.html" → i = j
  rows : ∃ inserted, s.table = rows ++ inserted ∧ (inserted.map Prod.fst).Nodup

/-- A name that is not found is not about to be pushed by a request that has not found it
either. -/
def AsksFirst (forms : ι → Form) (s : Registry ι) : RegistryMove ι → Prop
  | .get i => s.users.lookup (forms i).name = none →
      ∀ j, (forms j).name = (forms i).name → (s.stage j).registering = false
  | .lock _ | .insert _ _ | .push _ | .unlock _ | .login _ _ => True

instance [Fintype ι] (forms : ι → Form) (s : Registry ι) (a : RegistryMove ι) :
    Decidable (AsksFirst forms s a) := by
  cases a <;> (dsimp only [AsksFirst]; infer_instance)

/-! ### One request after the other -/

/-- A request that no other interrupts does what `register` says. -/
theorem after_alone [DecidableEq ι] {rows : Rows} {forms : ι → Form} {s : Registry ι} {i : ι}
    (free : s.lock = none) (starts : s.stage i = .asking) (failed : Bool)
    (missing : s.users.lookup (forms i).name = none) :
    let s' := (registrations rows forms).after s
      [.get i, .lock i, .insert i failed, .push i, .unlock i]
    let request := UserRequest.register (forms i).name (forms i).password failed
    (registrations rows forms).Follows (fun _ _ => True) s
        [.get i, .lock i, .insert i failed, .push i, .unlock i] ∧
      (⟨s'.users, s'.table⟩ : Accounts) = (Accounts.mk s.users s.table).serve request ∧
      s'.stage i =
        .answered (register s.users (forms i).name (forms i).password failed).1 := by
  obtain ⟨users, looked⟩ : ∃ users, s.users.get (forms i).name = (none, users) :=
    ⟨_, Prod.ext (LruCache.get_fst.trans missing) rfl⟩
  have gone : (registrations rows forms).next s (.get i) =
      { s with users, stage := Function.update s.stage i .missing } := by
    show Registry.mk (s.users.get _).2 _ _ (Function.update _ _ (.ofGet (s.users.get _).1)) = _
    rw [looked]
    rfl
  have registered : register s.users (forms i).name (forms i).password failed =
      (if failed then "/registerError.html" else "/log.html",
        users.push (forms i).name (forms i).password) := by
    unfold register
    rw [looked]
  have inserted : (Accounts.mk s.users s.table).insert (forms i).name (forms i).password failed =
      if failed then s.table else s.table ++ [((forms i).name, (forms i).password)] := by
    unfold Accounts.insert
    rw [missing]
  refine ⟨⟨starts, trivial, ?_⟩, ?_, ?_⟩
  · rw [gone]
    simp [Machine.Follows, registrations, free, Stage.push]
  · show Accounts.mk _ _ = Accounts.mk _ _
    rw [inserted, registered, Machine.after, List.foldl_cons, gone]
    rfl
  · rw [registered, Machine.after, List.foldl_cons, gone]
    simp [registrations, Stage.push, Stage.unlock]

/-! ### The cache, the table and the requests -/

/-- What is known of the requests under way. -/
structure Orderly (rows : Rows) (forms : ι → Form) (s : Registry ι) : Prop where
  unlimited : s.users.capacity = none
  missing : ∀ i, (s.stage i).registering = true → s.users.lookup (forms i).name = none
  single : ∀ i j, (s.stage i).registering = true → (s.stage j).registering = true →
    (forms i).name = (forms j).name → i = j
  found : ∀ i, (s.stage i).stored = true → s.users.lookup (forms i).name ≠ none
  once : ∀ i j, (s.stage i).succeeded = true → (s.stage j).succeeded = true →
    (forms i).name = (forms j).name → i = j
  table : ∃ inserted, s.table = rows ++ inserted ∧ (inserted.map Prod.fst).Nodup ∧
    ∀ name ∈ inserted.map Prod.fst, s.users.lookup name ≠ none ∨
      ∃ i, s.stage i = .inserted false ∧ (forms i).name = name

/-- A property of a stage after one request has moved on. -/
theorem of_update [DecidableEq ι] {stage : ι → Stage} {property : Stage → Bool} {i j : ι}
    {v : Stage} (within : property (Function.update stage i v j) = true) :
    j = i ∧ property v = true ∨ j ≠ i ∧ property (stage j) = true := by
  by_cases here : j = i
  · subst here
    rw [Function.update_self] at within
    exact .inl ⟨rfl, within⟩
  · rw [Function.update_of_ne here] at within
    exact .inr ⟨here, within⟩

theorem capacity_foldl_push (rows : Rows) (users : Users) :
    (rows.foldl (fun users row => users.push row.1 row.2) users).capacity = users.capacity := by
  induction rows generalizing users with
  | nil => rfl
  | cons row rows ih => exact (ih _).trans LruCache.capacity_push

namespace Orderly

variable {rows : Rows} {forms : ι → Form} {s : Registry ι} {i : ι}

theorem initially : Orderly rows forms ⟨initmysqlResult rows, rows, none, fun _ => .asking⟩ where
  unlimited := capacity_foldl_push rows _
  missing _ within := nomatch within
  single _ _ within := nomatch within
  found _ within := nomatch within
  once _ _ within := nomatch within
  table := ⟨[], (List.append_nil rows).symm, List.nodup_nil, fun _ mem => nomatch mem⟩

/-- A login changes nothing that is known. -/
theorem login (orderly : Orderly rows forms s) (name password : List Char) :
    Orderly rows forms { s with users := (login s.users name password).2 } := by
  have same : ∀ other, (Http.login s.users name password).2.lookup other = s.users.lookup other :=
    fun other => LruCache.lookup_get
  refine ⟨LruCache.capacity_get.trans orderly.unlimited, fun i within => ?_, orderly.single,
    fun i within => ?_, orderly.once, ?_⟩
  · exact (same _).trans (orderly.missing i within)
  · exact (same _).symm ▸ orderly.found i within
  · obtain ⟨inserted, rows', distinct, known⟩ := orderly.table
    exact ⟨inserted, rows', distinct, fun name mem => same name ▸ known name mem⟩

variable [DecidableEq ι]

omit [DecidableEq ι] in
/-- Looking a name up changes nothing that is known. -/
theorem look (orderly : Orderly rows forms s) (name : List Char) :
    Orderly rows forms { s with users := (s.users.get name).2 } := orderly.login name []

/-- A request that moves on without touching the cache or the table. -/
theorem advance (orderly : Orderly rows forms s) {v : Stage} (lock : Option ι)
    (registering : v.registering = true → (s.stage i).registering = true)
    (stored : v.stored = true → (s.stage i).stored = true)
    (succeeded : v.succeeded = true → (s.stage i).succeeded = true)
    (other : s.stage i ≠ .inserted false) :
    Orderly rows forms { s with lock, stage := Function.update s.stage i v } := by
  have before : ∀ (property : Stage → Bool), (property v = true → property (s.stage i) = true) →
      ∀ j, property (Function.update s.stage i v j) = true → property (s.stage j) = true := by
    intro property kept j within
    rcases of_update within with ⟨rfl, moved⟩ | ⟨-, still⟩
    · exact kept moved
    · exact still
  refine ⟨orderly.unlimited, fun j within => ?_, fun j k within within' => ?_, fun j within => ?_,
    fun j k within within' => ?_, ?_⟩
  · exact orderly.missing j (before _ registering j within)
  · exact orderly.single j k (before _ registering j within) (before _ registering k within')
  · exact orderly.found j (before _ stored j within)
  · exact orderly.once j k (before _ succeeded j within) (before _ succeeded k within')
  · obtain ⟨inserted, rows', distinct, known⟩ := orderly.table
    refine ⟨inserted, rows', distinct, fun name mem => (known name mem).imp_right ?_⟩
    rintro ⟨j, stage, here⟩
    have elsewhere : j ≠ i := fun same => other (same ▸ stage)
    exact ⟨j, (Function.update_of_ne elsewhere _ _).trans stage, here⟩

/-- A name that is not found while nobody else is about to push it. -/
theorem miss (orderly : Orderly rows forms s) (asking : s.stage i = .asking)
    (missing : s.users.lookup (forms i).name = none)
    (first : ∀ j, (forms j).name = (forms i).name → (s.stage j).registering = false) :
    Orderly rows forms { s with stage := Function.update s.stage i .missing } := by
  have alone : ∀ j, (s.stage j).registering = true → (forms j).name ≠ (forms i).name :=
    fun j within same => absurd (within.symm.trans (first j same)) nofun
  refine ⟨orderly.unlimited, fun j within => ?_, fun j k within within' same => ?_,
    fun j within => ?_, fun j k within within' => ?_, ?_⟩
  · rcases of_update within with ⟨rfl, -⟩ | ⟨-, still⟩
    · exact missing
    · exact orderly.missing j still
  · rcases of_update within with ⟨rfl, -⟩ | ⟨-, still⟩ <;>
      rcases of_update within' with ⟨rfl, -⟩ | ⟨-, still'⟩
    · rfl
    · exact absurd same.symm (alone k still')
    · exact absurd same (alone j still)
    · exact orderly.single j k still still' same
  · exact orderly.found j ((of_update within).resolve_left nofun).2
  · exact orderly.once j k ((of_update within).resolve_left nofun).2
      ((of_update within').resolve_left nofun).2
  · obtain ⟨inserted, rows', distinct, known⟩ := orderly.table
    refine ⟨inserted, rows', distinct, fun name mem => (known name mem).imp_right ?_⟩
    rintro ⟨j, stage, here⟩
    have elsewhere : j ≠ i := fun same => by
      rw [same, asking] at stage
      cases stage
    exact ⟨j, (Function.update_of_ne elsewhere _ _).trans stage, here⟩

/-- The look-up. -/
theorem get (orderly : Orderly rows forms s) (asking : s.stage i = .asking)
    (first : AsksFirst forms s (.get i)) :
    Orderly rows forms ((registrations rows forms).next s (.get i)) := by
  have looked := orderly.look (forms i).name
  show Orderly rows forms { s with
    users := (s.users.get (forms i).name).2
    stage := Function.update s.stage i (.ofGet (s.users.get (forms i).name).1) }
  rw [LruCache.get_fst]
  cases found : s.users.lookup (forms i).name with
  | none => exact looked.miss asking (LruCache.lookup_get.trans found) (first found)
  | some password =>
    refine looked.advance s.lock nofun nofun nofun ?_
    show s.stage i ≠ _
    rw [asking]
    exact nofun

/-- An `INSERT` that does not fail adds the first row with the name. -/
theorem insertRow (orderly : Orderly rows forms s) (locked : s.stage i = .locked) :
    Orderly rows forms { s with
      table := s.table ++ [((forms i).name, (forms i).password)]
      stage := Function.update s.stage i (.inserted false) } := by
  have within : (s.stage i).registering = true := by
    rw [locked]
    rfl
  have missing := orderly.missing i within
  -- nobody else has inserted the name: it would be found, or about to be pushed twice
  have fresh : ∀ j, (s.stage j).succeeded = true → (forms j).name ≠ (forms i).name := by
    intro j success same
    have different : j ≠ i := fun here => by
      rw [here, locked] at success
      cases success
    cases stage : s.stage j with
    | inserted failed =>
      exact different (orderly.single j i (by rw [stage]; rfl) within same)
    | pushed failed =>
      exact orderly.found j (by rw [stage]; rfl) (same ▸ missing)
    | answered page =>
      rw [stage] at success
      exact orderly.found j (by rw [stage]; exact success) (same ▸ missing)
    | asking | missing | locked =>
      rw [stage] at success
      cases success
  refine ⟨orderly.unlimited, fun j within' => ?_, fun j k within' within'' same => ?_,
    fun j within' => ?_, fun j k success success' same => ?_, ?_⟩
  · rcases of_update within' with ⟨rfl, -⟩ | ⟨-, still⟩
    · exact missing
    · exact orderly.missing j still
  -- Who registers now has registered before this step.
  · have before : ∀ l, (Function.update s.stage i (.inserted false) l).registering = true →
        (s.stage l).registering = true := by
      intro l inside
      rcases of_update inside with ⟨rfl, -⟩ | ⟨-, still⟩
      · exact within
      · exact still
    exact orderly.single j k (before j within') (before k within'') same
  · exact orderly.found j ((of_update within').resolve_left nofun).2
  · rcases of_update success with ⟨rfl, -⟩ | ⟨-, still⟩ <;>
      rcases of_update success' with ⟨rfl, -⟩ | ⟨-, still'⟩
    · rfl
    · exact absurd same.symm (fresh k still')
    · exact absurd same (fresh j still)
    · exact orderly.once j k still still' same
  · obtain ⟨inserted, rows', distinct, known⟩ := orderly.table
    -- The name is new in the table: the cache would have known it, or its owner be at work.
    have new : (forms i).name ∉ inserted.map Prod.fst := by
      intro mem
      rcases known _ mem with found | ⟨j, stage, same⟩
      · exact found missing
      · exact fresh j (by rw [stage]; rfl) same
    refine ⟨inserted ++ [((forms i).name, (forms i).password)], ?_, ?_, ?_⟩
    · show s.table ++ _ = _
      rw [rows', List.append_assoc]
    · rw [List.map_append]
      exact List.concat_eq_append ▸ distinct.concat new
    · intro name mem
      rw [List.map_append] at mem
      rcases List.mem_append.mp mem with older | last
      · refine (known name older).imp_right ?_
        rintro ⟨j, stage, here⟩
        have elsewhere : j ≠ i := fun same => by
          rw [same, locked] at stage
          cases stage
        exact ⟨j, (Function.update_of_ne elsewhere _ _).trans stage, here⟩
      · exact .inr ⟨i, Function.update_self .., (List.mem_singleton.mp last).symm⟩

/-- The `INSERT`. -/
theorem insert (orderly : Orderly rows forms s) (locked : s.stage i = .locked) (failed : Bool) :
    Orderly rows forms ((registrations rows forms).next s (.insert i failed)) := by
  cases failed with
  | true =>
    refine orderly.advance s.lock (fun _ => ?_) nofun nofun ?_
    · rw [locked]
      rfl
    · rw [locked]
      exact nofun
  | false => exact orderly.insertRow locked

/-- The `push`. -/
theorem push (orderly : Orderly rows forms s) {failed : Bool}
    (inserted : s.stage i = .inserted failed) :
    Orderly rows forms ((registrations rows forms).next s (.push i)) := by
  have within : (s.stage i).registering = true := by
    rw [inserted]
    rfl
  have lookup : ∀ name, (s.users.push (forms i).name (forms i).password).lookup name =
      if name = (forms i).name then some (forms i).password else s.users.lookup name :=
    fun name => LruCache.lookup_push orderly.unlimited
  have stays : ∀ name, s.users.lookup name ≠ none →
      (s.users.push (forms i).name (forms i).password).lookup name ≠ none := by
    intro name found
    rw [lookup]
    split
    · exact Option.some_ne_none _
    · exact found
  have result : (registrations rows forms).next s (.push i) = { s with
      users := s.users.push (forms i).name (forms i).password
      stage := Function.update s.stage i (.pushed failed) } := by
    show Registry.mk _ _ _ (Function.update s.stage i (s.stage i).push) = _
    rw [inserted]
    rfl
  rw [result]
  have left : ∀ j, ¬(j = i ∧ (Stage.pushed failed).registering = true) := fun _ both =>
    Bool.false_ne_true both.2
  refine ⟨LruCache.capacity_push.trans orderly.unlimited, fun j within' => ?_,
    fun j k within' within'' same => ?_, fun j within' => ?_,
    fun j k success success' same => ?_, ?_⟩
  · obtain ⟨different, still⟩ := (of_update within').resolve_left (left _)
    have elsewhere : (forms j).name ≠ (forms i).name := fun same =>
      different (orderly.single j i still within same)
    exact (lookup _).trans ((if_neg elsewhere).trans (orderly.missing j still))
  · exact orderly.single j k ((of_update within').resolve_left (left _)).2
      ((of_update within'').resolve_left (left _)).2 same
  · rcases of_update within' with ⟨rfl, -⟩ | ⟨-, still⟩
    · rw [lookup, if_pos rfl]
      exact Option.some_ne_none _
    · exact stays _ (orderly.found j still)
  · have before : ∀ l, (Function.update s.stage i (.pushed failed) l).succeeded = true →
        (s.stage l).succeeded = true := by
      intro l inside
      rcases of_update inside with ⟨rfl, moved⟩ | ⟨-, still⟩
      · rw [inserted]
        exact moved
      · exact still
    exact orderly.once j k (before j success) (before k success') same
  · obtain ⟨added, rows', distinct, known⟩ := orderly.table
    refine ⟨added, rows', distinct, fun name mem => ?_⟩
    rcases known name mem with found | ⟨j, stage, here⟩
    · exact .inl (stays name found)
    · by_cases same : j = i
      · left
        rw [lookup, if_pos (by rw [← here, same])]
        exact Option.some_ne_none _
      · exact .inr ⟨j, (Function.update_of_ne same _ _).trans stage, here⟩

/-- The lock is released and the request is answered. -/
theorem unlock (orderly : Orderly rows forms s) {failed : Bool}
    (pushed : s.stage i = .pushed failed) :
    Orderly rows forms ((registrations rows forms).next s (.unlock i)) := by
  have answer : (s.stage i).unlock =
      .answered (if failed then "/registerError.html" else "/log.html") := by
    rw [pushed]
    rfl
  show Orderly rows forms { s with
    lock := none, stage := Function.update s.stage i (s.stage i).unlock }
  rw [answer]
  refine orderly.advance none nofun (fun _ => ?_) (fun success => ?_) ?_
  · rw [pushed]
    rfl
  · rw [pushed]
    cases failed with
    | true => exact absurd success (by decide)
    | false => rfl
  · rw [pushed]
    exact nofun

/-- Every step keeps what is known, if its look-up comes first. -/
theorem next (orderly : Orderly rows forms s) {a : RegistryMove ι}
    (available : (registrations rows forms).enabled s a) (first : AsksFirst forms s a) :
    Orderly rows forms ((registrations rows forms).next s a) := by
  cases a with
  | get i => exact orderly.get available first
  | lock i =>
    refine orderly.advance _ (fun _ => ?_) nofun nofun ?_
    · rw [available.1]
      rfl
    · rw [available.1]
      exact nofun
  | insert i failed => exact orderly.insert available failed
  | push i =>
    rcases available with inserted | inserted
    · exact orderly.push inserted
    · exact orderly.push inserted
  | unlock i =>
    rcases available with pushed | pushed
    · exact orderly.unlock pushed
    · exact orderly.unlock pushed
  | login name password => exact orderly.login name password

end Orderly

/-- In a run in which nobody looks a name up that another request is about to push, every
name is registered once. -/
theorem uniqueNames_of_reaches [DecidableEq ι] {rows : Rows} {forms : ι → Form} {s : Registry ι}
    (reached : (registrations rows forms).Reaches (AsksFirst forms) s) :
    UniqueNames rows forms s := by
  have orderly : Orderly rows forms s := by
    refine reached.invariant (I := fun s => Orderly rows forms s) ?_ ?_
    · rintro _ rfl
      exact Orderly.initially
    · intro s a orderly available first
      exact orderly.next available first
  refine ⟨fun i j same answer answer' => ?_, ?_⟩
  · exact orderly.once i j (by rw [answer]; rfl) (by rw [answer']; rfl) same
  · obtain ⟨inserted, rows', distinct, -⟩ := orderly.table
    exact ⟨inserted, rows', distinct⟩

/-- The same form from two clients. -/
def twoForms : Bool → Form := fun _ => ⟨"ann".toList, "x".toList⟩

/-- The second client looks the name up behind the `push` of the first. -/
theorem uniqueNames_turns :
    let s := (registrations [] twoForms).after
      ⟨initmysqlResult [], [], none, fun _ => .asking⟩
      [.get false, .lock false, .insert false false, .push false, .get true, .unlock false]
    s.stage = (fun i => .answered (if i then "/registerError.html" else "/log.html")) ∧
      UniqueNames [] twoForms s := by
  have starts : (registrations [] twoForms).init
      ⟨initmysqlResult [], [], none, fun _ => .asking⟩ := rfl
  have follows : (registrations [] twoForms).Follows (AsksFirst twoForms)
      ⟨initmysqlResult [], [], none, fun _ => .asking⟩
      [.get false, .lock false, .insert false false, .push false, .get true, .unlock false] := by
    decide +kernel
  exact ⟨by decide +kernel, uniqueNames_of_reaches ((Machine.Reaches.start starts).follow follows)⟩

/-- Both clients look the name up before either pushes it, and both are registered. No
`INSERT` fails. -/
theorem registers_twice :
    ¬ ∀ s, (registrations [] twoForms).Reaches
      (fun _ a => ∀ i, a ≠ .insert i true) s → UniqueNames [] twoForms s := by
  intro unique
  have starts : (registrations [] twoForms).init
      ⟨initmysqlResult [], [], none, fun _ => .asking⟩ := rfl
  have follows : (registrations [] twoForms).Follows (fun _ a => ∀ i, a ≠ .insert i true)
      ⟨initmysqlResult [], [], none, fun _ => .asking⟩
      [.get false, .get true, .lock false, .insert false false, .push false, .unlock false,
        .lock true, .insert true false, .push true, .unlock true] := by
    decide +kernel
  have kept := unique _ ((Machine.Reaches.start starts).follow follows)
  exact absurd (kept.answers false true rfl (by decide +kernel) (by decide +kernel)) nofun

end CoroutineService.Http
