import CoroutineService.Containers.LruCache
import Mathlib.Data.List.Induction

/-!
# Users

A login is answered from the cache `users`, which is filled from the table `user` at
the start. A registration inserts a row into the table and pushes the name into the
cache, the latter even if the former fails.

## Main definitions

* `Users`, `initmysqlResult`: the cache and its beginning
* `login`, `register`: what `do_request` does for them
* `Accounts`: the cache and the table
* `Phantom`: the table has refused the first registration of a name

## Main results

* `welcome_iff_mem_iff`: the logins that agree with the table
* `phantom_welcome`: a login to an account that is not in the table
-/

set_option autoImplicit false

namespace CoroutineService.Http

open CoroutineService.Containers

/-- `users`: the passwords by the names. -/
abbrev Users := LruCache (List Char) (List Char)

/-- The rows of the table `user`. -/
abbrev Rows := List (List Char × List Char)

/-- `initmysql_result`, with `users` as it is constructed. -/
def initmysqlResult (rows : Rows) : Users :=
  rows.foldl (fun users row => users.push row.1 row.2) (LruCache.fresh none)

/-- The page `do_request` answers a login with. -/
def login (users : Users) (name password : List Char) : String × Users :=
  let (back, users) := users.get name
  (if back = some password then "/welcome.html" else "/logError.html", users)

/-- The page it answers a registration with. `failed` is the result of `mysql_query`. -/
def register (users : Users) (name password : List Char) (failed : Bool) : String × Users :=
  let (back, users) := users.get name
  match back with
  | none =>
    (if failed then "/registerError.html" else "/log.html", users.push name password)
  | some _ => ("/registerError.html", users)

/-- The cache, and the table in the database. -/
structure Accounts where
  users : Users
  table : Rows

/-- A request about a user. `failed` says whether the `INSERT` fails, if it is made. -/
inductive UserRequest
  | login (name password : List Char)
  | register (name password : List Char) (failed : Bool)
  deriving DecidableEq, Repr

namespace Accounts

/-- The server has loaded the table. -/
def initial (rows : Rows) : Accounts := ⟨initmysqlResult rows, rows⟩

/-- The table after a registration: the `INSERT` is made if the name is not in the cache. -/
def insert (s : Accounts) (name password : List Char) (failed : Bool) : Rows :=
  match s.users.lookup name with
  | none => if failed then s.table else s.table ++ [(name, password)]
  | some _ => s.table

/-- One request. -/
def serve (s : Accounts) : UserRequest → Accounts
  | .login name password => { s with users := (login s.users name password).2 }
  | .register name password failed =>
    ⟨(register s.users name password failed).2, s.insert name password failed⟩

/-- The requests one after the other. -/
def after (rows : Rows) (requests : List UserRequest) : Accounts :=
  requests.foldl serve (initial rows)

end Accounts

/-- The request is the registration of this name. -/
def UserRequest.Registers (name : List Char) : UserRequest → Prop
  | .login _ _ => False
  | .register name' _ _ => name' = name

/-- The name is neither in the table nor in a registration so far. -/
def Unknown (rows : Rows) (requests : List UserRequest) (name : List Char) : Prop :=
  name ∉ rows.map Prod.fst ∧ ∀ request ∈ requests, ¬request.Registers name

/-- The table has refused the first registration of the name, with this password. -/
def Phantom (rows : Rows) (requests : List UserRequest) (name password : List Char) : Prop :=
  ∃ k, requests[k]? = some (.register name password true) ∧ Unknown rows (requests.take k) name

variable {rows : Rows} {requests : List UserRequest} {name password : List Char}

/-! ### One request more -/

theorem unknown_snoc {request : UserRequest} :
    Unknown rows (requests ++ [request]) name ↔
      Unknown rows requests name ∧ ¬request.Registers name := by
  unfold Unknown
  rw [and_assoc]
  refine and_congr_right fun _ => ?_
  rw [List.forall_mem_append, List.forall_mem_singleton]

theorem phantom_snoc {request : UserRequest} :
    Phantom rows (requests ++ [request]) name password ↔
      Phantom rows requests name password ∨
        request = .register name password true ∧ Unknown rows requests name := by
  constructor
  · rintro ⟨k, here, unknown⟩
    have inside : k < (requests ++ [request]).length := (List.getElem?_eq_some_iff.mp here).1
    rw [List.length_append, List.length_singleton] at inside
    rcases Nat.lt_succ_iff_lt_or_eq.mp inside with earlier | rfl
    · rw [List.getElem?_append_left earlier] at here
      rw [List.take_append_of_le_length (Nat.le_of_lt earlier)] at unknown
      exact .inl ⟨k, here, unknown⟩
    · rw [List.getElem?_concat_length] at here
      rw [List.take_left] at unknown
      exact .inr ⟨Option.some_inj.mp here, unknown⟩
  · rintro (⟨k, here, unknown⟩ | ⟨rfl, unknown⟩)
    · have inside : k < requests.length := (List.getElem?_eq_some_iff.mp here).1
      refine ⟨k, ?_, ?_⟩
      · rw [List.getElem?_append_left inside, here]
      · rwa [List.take_append_of_le_length (Nat.le_of_lt inside)]
    · exact ⟨requests.length, List.getElem?_concat_length, by rwa [List.take_left]⟩

/-! ### The cache -/

/-- What is known of the cache and the table after some requests. -/
structure Recorded (rows : Rows) (requests : List UserRequest) (s : Accounts) : Prop where
  unlimited : s.users.capacity = none
  missing : ∀ name, s.users.lookup name = none ↔ Unknown rows requests name
  stored : ∀ row ∈ s.table, s.users.lookup row.1 = some row.2
  known : ∀ name password, s.users.lookup name = some password →
    (name, password) ∈ s.table ∨ Phantom rows requests name password
  absent : ∀ name password, Phantom rows requests name password →
    s.users.lookup name = some password ∧ name ∉ s.table.map Prod.fst

/-- Rows of different names are all stored, over what is there already. -/
theorem lookup_foldl_push (distinct : (rows.map Prod.fst).Nodup) (users : Users)
    (unlimited : users.capacity = none) :
    let filled := rows.foldl (fun users row => users.push row.1 row.2) users
    filled.capacity = none ∧ (∀ row ∈ rows, filled.lookup row.1 = some row.2) ∧
      ∀ name ∉ rows.map Prod.fst, filled.lookup name = users.lookup name := by
  induction rows generalizing users with
  | nil => exact ⟨unlimited, fun _ mem => absurd mem List.not_mem_nil, fun _ _ => rfl⟩
  | cons row rows ih =>
    obtain ⟨new, distinct'⟩ := List.nodup_cons.mp distinct
    obtain ⟨filled, stored, others⟩ :=
      ih distinct' (users.push row.1 row.2) (LruCache.capacity_push.trans unlimited)
    refine ⟨filled, fun row' mem => ?_, fun name out => ?_⟩
    · rcases List.mem_cons.mp mem with rfl | later
      · exact (others row'.1 new).trans ((LruCache.lookup_push unlimited).trans (if_pos rfl))
      · exact stored row' later
    · obtain ⟨differs, out'⟩ := not_or.mp (List.mem_cons.not.mp out)
      exact (others name out').trans ((LruCache.lookup_push unlimited).trans (if_neg differs))

/-- What a registration leaves in the cache. -/
theorem lookup_register (users : Users) (unlimited : users.capacity = none) (failed : Bool)
    (other : List Char) :
    (register users name password failed).2.lookup other =
      if users.lookup name = none ∧ other = name then some password else users.lookup other := by
  unfold register
  dsimp only
  rw [LruCache.get_fst]
  split
  case h_1 missing =>
    rw [LruCache.lookup_push (LruCache.capacity_get.trans unlimited), LruCache.lookup_get]
    simp only [missing, true_and]
  case h_2 found =>
    rw [LruCache.lookup_get, if_neg]
    rintro ⟨missing, -⟩
    exact absurd (found.symm.trans missing) (Option.some_ne_none _)

theorem capacity_register (users : Users) (failed : Bool) :
    (register users name password failed).2.capacity = users.capacity := by
  unfold register
  dsimp only
  split
  · exact LruCache.capacity_push.trans LruCache.capacity_get
  · exact LruCache.capacity_get

/-- A login is welcome if the cache has the password. -/
theorem login_welcome (users : Users) :
    (login users name password).1 = "/welcome.html" ↔ users.lookup name = some password := by
  unfold login
  dsimp only
  rw [LruCache.get_fst]
  split
  case isTrue found => exact iff_of_true rfl found
  case isFalse refused => exact iff_of_false (by decide) refused

namespace Recorded

variable {s : Accounts}

theorem initially (distinct : (rows.map Prod.fst).Nodup) :
    Recorded rows [] (Accounts.initial rows) := by
  obtain ⟨unlimited, stored, others⟩ :=
    lookup_foldl_push distinct (LruCache.fresh none) rfl
  have nobody : ∀ name password, ¬Phantom rows [] name password := by
    rintro name password ⟨k, here, -⟩
    cases here
  refine ⟨unlimited, fun name => ?_, stored, fun name password found => .inl ?_,
    fun name password phantom => absurd phantom (nobody name password)⟩
  · constructor
    · intro missing
      refine ⟨fun mem => ?_, fun _ mem => absurd mem List.not_mem_nil⟩
      obtain ⟨row, inRows, rfl⟩ := List.mem_map.mp mem
      exact absurd ((stored row inRows).symm.trans missing) nofun
    · intro unknown
      exact (others name unknown.1).trans (LruCache.lookup_fresh _)
  · by_cases mem : name ∈ rows.map Prod.fst
    · obtain ⟨row, inRows, rfl⟩ := List.mem_map.mp mem
      have same : row.2 = password := Option.some_inj.mp ((stored row inRows).symm.trans found)
      exact same ▸ inRows
    · exact absurd ((others name mem).symm.trans found) nofun

theorem login (recorded : Recorded rows requests s) :
    Recorded rows (requests ++ [.login name password]) (s.serve (.login name password)) := by
  have same : ∀ other, (s.serve (.login name password)).users.lookup other =
      s.users.lookup other := fun other => LruCache.lookup_get
  have unknown : ∀ other, Unknown rows (requests ++ [.login name password]) other ↔
      Unknown rows requests other := fun other =>
    unknown_snoc.trans (and_iff_left not_false)
  have phantom : ∀ other password',
      Phantom rows (requests ++ [.login name password]) other password'
      ↔ Phantom rows requests other password' := fun other password' =>
    phantom_snoc.trans (or_iff_left fun registers => nomatch registers.1)
  refine ⟨LruCache.capacity_get.trans recorded.unlimited, fun other => ?_, fun row mem => ?_,
    fun other password' found => ?_, fun other password' refused => ?_⟩
  · rw [same, unknown]
    exact recorded.missing other
  · rw [same]
    exact recorded.stored row mem
  · rw [same] at found
    rw [phantom]
    exact recorded.known other password' found
  · rw [phantom] at refused
    rw [same]
    exact recorded.absent other password' refused

/-- The registration of a name in the cache changes nothing. -/
theorem register_known (recorded : Recorded rows requests s) {failed : Bool} {stored : List Char}
    (known : s.users.lookup name = some stored) :
    Recorded rows (requests ++ [.register name password failed])
      (s.serve (.register name password failed)) := by
  -- A name that is known is refused, so that neither the cache nor the table changes.
  have taken : ¬Unknown rows requests name := fun unknown =>
    absurd (known.symm.trans ((recorded.missing name).mpr unknown)) nofun
  have same : ∀ other, (s.serve (.register name password failed)).users.lookup other =
      s.users.lookup other := fun other => by
    refine (lookup_register _ recorded.unlimited failed other).trans (if_neg ?_)
    rintro ⟨missing, -⟩
    exact absurd (missing.symm.trans known) nofun
  have table : (s.serve (.register name password failed)).table = s.table := by
    show s.insert name password failed = s.table
    unfold Accounts.insert
    rw [known]
  have unknown : ∀ other, Unknown rows (requests ++ [.register name password failed]) other ↔
      Unknown rows requests other := fun other => by
    refine unknown_snoc.trans (and_iff_left_of_imp fun unknown registers => ?_)
    have here : name = other := registers
    exact taken (here ▸ unknown)
  have phantom : ∀ other password',
      Phantom rows (requests ++ [.register name password failed]) other password' ↔
        Phantom rows requests other password' := fun other password' => by
    refine phantom_snoc.trans (or_iff_left ?_)
    rintro ⟨registers, fresh⟩
    cases registers
    exact taken fresh
  refine ⟨(capacity_register _ _).trans recorded.unlimited, fun other => ?_, fun row mem => ?_,
    fun other password' found => ?_, fun other password' refused => ?_⟩
  · rw [same, unknown]
    exact recorded.missing other
  · rw [table] at mem
    rw [same]
    exact recorded.stored row mem
  · rw [same] at found
    rw [phantom, table]
    exact recorded.known other password' found
  · rw [phantom] at refused
    rw [same, table]
    exact recorded.absent other password' refused

/-- The registration of a new name puts it into the cache, and into the table unless the
`INSERT` fails. -/
theorem register_new (recorded : Recorded rows requests s) {failed : Bool}
    (new : s.users.lookup name = none) :
    Recorded rows (requests ++ [.register name password failed])
      (s.serve (.register name password failed)) := by
  have fresh : Unknown rows requests name := (recorded.missing name).mp new
  have lookup : ∀ other, (s.serve (.register name password failed)).users.lookup other =
      if other = name then some password else s.users.lookup other := fun other => by
    refine (lookup_register _ recorded.unlimited failed other).trans ?_
    simp only [new, true_and]
  have table : (s.serve (.register name password failed)).table =
      if failed then s.table else s.table ++ [(name, password)] := by
    show s.insert name password failed = _
    unfold Accounts.insert
    rw [new]
  have unlisted : name ∉ s.table.map Prod.fst := fun mem => by
    obtain ⟨row, inTable, rfl⟩ := List.mem_map.mp mem
    exact absurd ((recorded.stored row inTable).symm.trans new) (Option.some_ne_none _)
  -- The new row is the only one, and it is there only if the `INSERT` has succeeded.
  have older : ∀ row ∈ (s.serve (.register name password failed)).table,
      row ∈ s.table ∨ row = (name, password) ∧ failed = false := fun row mem => by
    rw [table] at mem
    cases failed with
    | true => exact .inl mem
    | false =>
      exact (List.mem_append.mp mem).imp_right fun last => ⟨List.mem_singleton.mp last, rfl⟩
  refine ⟨(capacity_register _ _).trans recorded.unlimited, fun other => ?_, fun row mem => ?_,
    fun other password' found => ?_, fun other password' refused => ?_⟩
  · rw [lookup, unknown_snoc]
    by_cases here : other = name
    · rw [if_pos here]
      exact iff_of_false (Option.some_ne_none _) fun unknown => unknown.2 here.symm
    · rw [if_neg here, recorded.missing]
      exact (and_iff_left (Ne.symm here)).symm
  · rw [lookup]
    rcases older row mem with inTable | ⟨rfl, -⟩
    · have differs : row.1 ≠ name := fun here =>
        unlisted (here ▸ List.mem_map_of_mem inTable)
      rw [if_neg differs]
      exact recorded.stored row inTable
    · exact if_pos rfl
  · rw [lookup] at found
    rw [phantom_snoc, table]
    split at found
    case isTrue here =>
      obtain rfl := Option.some_inj.mp found
      subst here
      cases failed with
      | true => exact .inr (.inr ⟨rfl, fresh⟩)
      | false => exact .inl (List.mem_append_right _ (List.mem_singleton_self _))
    case isFalse =>
      rcases recorded.known other password' found with inTable | phantom
      · refine .inl ?_
        cases failed with
        | true => exact inTable
        | false => exact List.mem_append_left _ inTable
      · exact .inr (.inl phantom)
  · have unlisted' : ∀ other ∉ s.table.map Prod.fst, (failed = true ∨ other ≠ name) →
        other ∉ (s.serve (.register name password failed)).table.map Prod.fst := by
      intro other out differs mem
      obtain ⟨row, inTable, rfl⟩ := List.mem_map.mp mem
      rcases older row inTable with earlier | ⟨rfl, kept⟩
      · exact out (List.mem_map_of_mem earlier)
      · rcases differs with lost | differs
        · exact absurd (kept.symm.trans lost) Bool.false_ne_true
        · exact differs rfl
    rw [lookup]
    rcases phantom_snoc.mp refused with phantom | ⟨registers, -⟩
    · obtain ⟨found, out⟩ := recorded.absent other password' phantom
      have differs : other ≠ name := fun here => by
        rw [here, new] at found
        cases found
      rw [if_neg differs]
      exact ⟨found, unlisted' other out (.inr differs)⟩
    · cases registers
      exact ⟨if_pos rfl, unlisted' name unlisted (.inl rfl)⟩

theorem serve (recorded : Recorded rows requests s) (request : UserRequest) :
    Recorded rows (requests ++ [request]) (s.serve request) := by
  cases request with
  | login name password => exact recorded.login
  | register name password failed =>
    cases found : s.users.lookup name with
    | none => exact recorded.register_new found
    | some stored => exact recorded.register_known found

end Recorded

/-- The cache and the table after any requests. -/
theorem recorded_after (distinct : (rows.map Prod.fst).Nodup) (requests : List UserRequest) :
    Recorded rows requests (Accounts.after rows requests) := by
  induction requests using List.reverseRecOn with
  | nil => exact Recorded.initially distinct
  | append_singleton requests request ih =>
    unfold Accounts.after
    rw [List.foldl_append]
    exact ih.serve request

/-- A login after some requests is answered as the table has it, unless it is to an
account whose registration the table has refused. -/
theorem welcome_iff_mem_iff (rows : Rows) (distinct : (rows.map Prod.fst).Nodup)
    (requests : List UserRequest) (name password : List Char) :
    ((login (Accounts.after rows requests).users name password).1 = "/welcome.html" ↔
        (name, password) ∈ (Accounts.after rows requests).table) ↔
      ¬Phantom rows requests name password := by
  have recorded := recorded_after distinct requests
  rw [login_welcome]
  constructor
  · intro agrees phantom
    obtain ⟨found, out⟩ := recorded.absent name password phantom
    exact out (List.mem_map_of_mem (agrees.mp found))
  · intro genuine
    constructor
    · intro found
      exact (recorded.known name password found).resolve_right genuine
    · exact recorded.stored (name, password)

/-- The table as it is set up. -/
def initSql : Rows := [("root".toList, "123456".toList)]

/-- A user registers, and so does another one under the same name. -/
theorem welcome_registered :
    let requests : List UserRequest := [.register "ann".toList "one".toList false,
      .login "root".toList "123456".toList, .register "ann".toList "two".toList true]
    (login (Accounts.after initSql requests).users "ann".toList "one".toList).1 =
        "/welcome.html" ∧
      (((login (Accounts.after initSql requests).users "ann".toList "one".toList).1 =
          "/welcome.html" ↔
        ("ann".toList, "one".toList) ∈ (Accounts.after initSql requests).table) ↔
      ¬Phantom initSql requests "ann".toList "one".toList) :=
  ⟨by decide +kernel, welcome_iff_mem_iff initSql (by decide) _ _ _⟩

/-- The table refuses a registration, and the login to it is welcome. -/
theorem phantom_welcome :
    ¬ ∀ rows : Rows, (rows.map Prod.fst).Nodup → ∀ requests name password,
      ((login (Accounts.after rows requests).users name password).1 = "/welcome.html" ↔
        (name, password) ∈ (Accounts.after rows requests).table) := by
  intro agrees
  have answered : (login (Accounts.after initSql
      [.register "ann".toList "one".toList true]).users "ann".toList "one".toList).1 =
        "/welcome.html" := by
    decide +kernel
  have row := (agrees initSql (by decide) _ _ _).mp answered
  exact absurd row (by decide +kernel)

end CoroutineService.Http
