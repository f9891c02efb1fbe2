import CoroutineService.Server.Service

/-!
# Connections do not meet

A number of a descriptor is given away again only after it is closed, and a fiber closes it after
its last use of the `http_conn` of that number. So no `http_conn` is ever used by two fibers, and
what a fiber reads, writes and closes is its own connection.

## Main definitions

* `Opened`: a socket with a descriptor for its own connection
* `Standing`: what holds where a fiber stands
* `Sound`: the invariant

## Main results

* `separate_of_reachable`: in every state
-/

set_option autoImplicit false

namespace CoroutineService.Server

open CoroutineService.Transition CoroutineService.Database

section Sound

variable {Fid : Type*} {fibers : Finset Fid} {n : ℕ} {s s' : Service Fid} {p q : Fid}
variable {k k' fd fd' : ℕ}

/-- The socket is connected, and its descriptor leads to its own connection. -/
structure Opened (s : Service Fid) (k fd : ℕ) : Prop where
  socket : s.socket k = ⟨some fd, true⟩
  file : s.file fd = some k

/-- What a fiber that stands there may rely on. -/
def Standing (s : Service Fid) (p : Fid) : Fiber → Prop
  | .idle | .accepting => s.pool.client p = .idle
  | .accepted k fd => s.pool.client p = .idle ∧ s.file fd = some k ∧ (s.socket k).sock = none
  | .announcing k | .entered k | .ending k => s.pool.client p = .idle ∧ ∃ fd, Opened s k fd
  | .initialising k fd => s.pool.client p = .idle ∧ Opened s k fd
  | .testing k fd | .reading k fd =>
    s.pool.client p = .idle ∧ Opened s k fd ∧ (s.users fd).client = some k
  | .getting k fd | .leaving k fd _ => Opened s k fd ∧ (s.users fd).client = some k
  | .processing k fd => s.pool.client p = .holding (s.users fd).mysql ∧ Opened s k fd ∧
    (s.users fd).client = some k
  | .writing k fd => (s.pool.client p).held.isSome = true ∧ Opened s k fd ∧
    (s.users fd).client = some k
  | .closing k => s.pool.client p = .idle ∧ ∃ fd, (s.socket k).sock = some fd ∧ s.file fd = some k
  | .closed k => s.pool.client p = .idle ∧ k ∈ s.closed

/-- An open descriptor leads to a connection that is not closed, and no other descriptor does. -/
structure KernelSound (s : Service Fid) : Prop where
  accepted : ∀ fd k, s.file fd = some k → k < s.connections ∧ k ∉ s.closed
  single : ∀ fd fd' k, s.file fd = some k → s.file fd' = some k → fd = fd'
  closed : ∀ k ∈ s.closed, k < s.connections
  nodup : s.closed.Nodup

/-- Every socket is in one place until it is given up, and then it has no descriptor. -/
structure Sound [DecidableEq Fid] (fibers : Finset Fid) (n : ℕ) (s : Service Fid) : Prop where
  leased : Leased Fiber.client (fun k => k < s.connections ∧ k ∉ s.finished ∧ k ∉ s.dropped) s.tasks
    s.fiber
  standing : ∀ p, Standing s p (s.fiber p)
  queued : ∀ k ∈ s.tasks, ∃ fd, Opened s k fd
  finished : ∀ k ∈ s.finished, k ∈ s.closed ∧ (s.socket k).sock = none
  dropped : ∀ k ∈ s.dropped, (∃ fd, s.file fd = some k) ∧ (s.socket k).sock = none
  kernel : KernelSound s
  outside : ∀ p, p ∉ fibers → s.fiber p = .idle
  pool : (poolMachine fibers n).Reachable s.pool

/-! ### What a step leaves alone -/

/-- The step does not concern the connection `k`. -/
structure Kept (s s' : Service Fid) (k : ℕ) : Prop where
  socket : s'.socket k = s.socket k
  file : ∀ fd, s.file fd = some k → s'.file fd = some k
  users : ∀ fd, s.file fd = some k → s'.users fd = s.users fd
  closed : k ∈ s.closed → k ∈ s'.closed

theorem Opened.kept (opened : Opened s k fd) (kept : Kept s s' k) : Opened s' k fd :=
  ⟨kept.socket.trans opened.socket, kept.file fd opened.file⟩

theorem Kept.same (socket : s'.socket = s.socket) (file : s'.file = s.file)
    (users : s'.users = s.users) (closed : s'.closed = s.closed) : Kept s s' k :=
  ⟨congrFun socket k, fun fd => (congrFun file fd).trans, fun fd _ => congrFun users fd,
    fun mem => closed ▸ mem⟩

theorem KernelSound.same (kernel : KernelSound s) (file : s'.file = s.file)
    (closed : s'.closed = s.closed) (connections : s'.connections = s.connections) :
    KernelSound s' := by
  refine ⟨?_, ?_, ?_, closed ▸ kernel.nodup⟩
  · rw [file, closed, connections]
    exact kernel.accepted
  · rw [file]
    exact kernel.single
  · rw [closed, connections]
    exact kernel.closed

/-- A fiber that has another socket stands where it stood. -/
theorem Standing.kept {v : Fiber} (standing : Standing s p v)
    (kept : ∀ k, v.client = some k → Kept s s' k) (same : s'.pool.client p = s.pool.client p) :
    Standing s' p v := by
  cases v with
  | idle | accepting => exact same.trans standing
  | accepted k fd =>
    have kept := kept k rfl
    obtain ⟨idle, file, none'⟩ := standing
    exact ⟨same.trans idle, kept.file fd file, kept.socket ▸ none'⟩
  | announcing k | entered k | ending k =>
    have kept := kept k rfl
    obtain ⟨idle, fd, opened⟩ := standing
    exact ⟨same.trans idle, fd, opened.kept kept⟩
  | initialising k fd => exact ⟨same.trans standing.1, standing.2.kept (kept k rfl)⟩
  | testing k fd | reading k fd =>
    have kept := kept k rfl
    obtain ⟨idle, opened, mine⟩ := standing
    exact ⟨same.trans idle, opened.kept kept, kept.users fd opened.file ▸ mine⟩
  | getting k fd | leaving k fd ok =>
    have kept := kept k rfl
    obtain ⟨opened, mine⟩ := standing
    exact ⟨opened.kept kept, kept.users fd opened.file ▸ mine⟩
  | processing k fd =>
    have kept := kept k rfl
    obtain ⟨holding, opened, mine⟩ := standing
    have users := kept.users fd opened.file
    refine ⟨?_, opened.kept kept, users ▸ mine⟩
    rw [same, users]
    exact holding
  | writing k fd =>
    have kept := kept k rfl
    obtain ⟨holds, opened, mine⟩ := standing
    exact ⟨same ▸ holds, opened.kept kept, kept.users fd opened.file ▸ mine⟩
  | closing k =>
    have kept := kept k rfl
    obtain ⟨idle, fd, sock, file⟩ := standing
    exact ⟨same.trans idle, fd, kept.socket ▸ sock, kept.file fd file⟩
  | closed k => exact ⟨same.trans standing.1, (kept k rfl).closed standing.2⟩

/-- Only `users[fd]` is written to, which no other connection has. -/
theorem Kept.user (file : s.file fd = some k)
    (unmoved : s'.socket = s.socket ∧ s'.file = s.file ∧ s'.closed = s.closed) {user : HttpConn}
    (users : s'.users = Function.update s.users fd user) (there : k' ≠ k) : Kept s s' k' := by
  obtain ⟨socket, files, closed⟩ := unmoved
  refine ⟨congrFun socket k', fun fd' => (congrFun files fd').trans, fun fd' file' => ?_, fun mem =>
    closed ▸ mem⟩
  rw [users, Function.update_of_ne]
  rintro rfl
  exact there (Option.some.inj (file'.symm.trans file))

/-- A fiber that takes a step of `get_connection` or `release_connection` relies on nothing that
this step changes. -/
theorem Standing.poolStep {pool : ConnectionPool Fid} {a : PoolMove Fid} {v : Fiber}
    (standing : Standing s p v) (performs : v.performs a = true)
    (query : ∀ q, a = .query q → pool = s.pool) : Standing { s with pool := pool } p v := by
  cases v with
  | getting k fd | leaving k fd ok =>
    obtain ⟨opened, user⟩ := standing
    exact ⟨⟨opened.socket, opened.file⟩, user⟩
  | processing k fd =>
    cases a with
    | query q =>
      rw [query q rfl]
      exact standing
    | size | wait | pop | release | post => cases performs
  | idle | accepting | accepted | announcing | entered | initialising | testing | reading
  | writing | ending | closing | closed => cases a <;> cases performs

/-- A step of one client of the pool leaves the others where they are. -/
theorem client_next [DecidableEq Fid] {pool : ConnectionPool Fid} {a : PoolMove Fid}
    (there : q ≠ performer a) :
    ((poolMachine fibers n).next pool a).client q = pool.client q := by
  have away : ∀ {p v}, q ≠ p → Function.update pool.client p v q = pool.client q := fun there =>
    Function.update_of_ne there _ _
  cases a with
  | size p =>
    show (pool.size p).client q = pool.client q
    unfold ConnectionPool.size
    split
    · exact away there
    · exact away there
  | wait p => exact away there
  | pop p =>
    show (pool.pop p).client q = pool.client q
    unfold ConnectionPool.pop
    split
    · rfl
    · exact away there
  | query p => rfl
  | release p =>
    dsimp only [poolMachine]
    split
    case h_1 con _ =>
      cases con with
      | none => exact away there
      | some con => exact away there
    case h_2 => rfl
  | post p => exact away there

/-- The kernel closes the connection `k`, and no other one. -/
theorem Kept.closeFile (file : s.file fd = some k) (there : k' ≠ k) :
    Kept s (s.closeFile fd) k' := by
  refine ⟨rfl, fun fd' file' => ?_, fun _ _ => rfl, fun mem => List.mem_append_right _ mem⟩
  show Function.update s.file fd none fd' = some k'
  rw [Function.update_of_ne]
  · exact file'
  · rintro rfl
    exact there (Option.some.inj (file'.symm.trans file))

theorem closed_closeFile (file : s.file fd = some k) :
    (s.closeFile fd).closed = k :: s.closed := by
  show (s.file fd).toList ++ s.closed = k :: s.closed
  rw [file]
  rfl

theorem KernelSound.closeFile (kernel : KernelSound s) (file : s.file fd = some k) :
    KernelSound (s.closeFile fd) := by
  have older : ∀ {fd' k'}, (s.closeFile fd).file fd' = some k' →
      fd' ≠ fd ∧ s.file fd' = some k' := by
    intro fd' k' file'
    have there : fd' ≠ fd := by
      rintro rfl
      exact Option.some_ne_none k' (file'.symm.trans (Function.update_self _ _ _))
    exact ⟨there, (Function.update_of_ne there _ _).symm.trans file'⟩
  obtain ⟨made, out⟩ := kernel.accepted fd k file
  refine ⟨fun fd' k' file' => ?_, fun fd' fd'' k' file' file'' => ?_, ?_, ?_⟩
  · obtain ⟨there, file'⟩ := older file'
    obtain ⟨made', out'⟩ := kernel.accepted fd' k' file'
    refine ⟨made', fun mem => ?_⟩
    rw [closed_closeFile file] at mem
    refine (List.mem_cons.mp mem).elim (fun here => there ?_) out'
    exact kernel.single fd' fd k' file' (here ▸ file)
  · exact kernel.single fd' fd'' k' (older file').2 (older file'').2
  · rw [closed_closeFile file]
    exact List.forall_mem_cons.mpr ⟨made, kernel.closed⟩
  · rw [closed_closeFile file]
    exact List.nodup_cons.mpr ⟨out, kernel.nodup⟩

namespace Sound

variable [DecidableEq Fid]

theorem member (sound : Sound fibers n s) (busy : s.fiber p ≠ .idle) : p ∈ fibers := by
  by_contra out
  exact busy (sound.outside p out)

/-- Two fibers with one socket are one fiber. -/
theorem other (sound : Sound fibers n s) (mine : (s.fiber p).client = some k) (apart : q ≠ p)
    (yours : (s.fiber q).client = some k') : k' ≠ k := by
  rintro rfl
  exact apart (sound.leased.single q p k' yours mine)

/-- Scheduled sockets that are not concerned stay open. -/
theorem queued_kept (sound : Sound fibers n s) (kept : ∀ k ∈ s.tasks, Kept s s' k) :
    ∀ k ∈ s.tasks, ∃ fd, Opened s' k fd := fun k mem =>
  (sound.queued k mem).imp fun _ opened => opened.kept (kept k mem)

/-- A fiber goes on to `v`. The connections of the other fibers are not concerned. -/
theorem update (sound : Sound fibers n s) {v : Fiber} (member : p ∈ fibers)
    (fiber : s'.fiber = Function.update s.fiber p v) (pool : s'.pool = s.pool)
    (leased : Leased Fiber.client
      (fun k => k < s'.connections ∧ k ∉ s'.finished ∧ k ∉ s'.dropped) s'.tasks s'.fiber)
    (kept : ∀ q, q ≠ p → ∀ k, (s.fiber q).client = some k → Kept s s' k)
    (standing : Standing s' p v) (queued : ∀ k ∈ s'.tasks, ∃ fd, Opened s' k fd)
    (finished : ∀ k ∈ s'.finished, k ∈ s'.closed ∧ (s'.socket k).sock = none)
    (dropped : ∀ k ∈ s'.dropped, (∃ fd, s'.file fd = some k) ∧ (s'.socket k).sock = none)
    (kernel : KernelSound s') : Sound fibers n s' := by
  refine ⟨leased, fun q => ?_, queued, finished, dropped, kernel, fun q out => ?_, ?_⟩
  · rw [fiber]
    by_cases here : q = p
    · rw [here, Function.update_self]
      exact standing
    · rw [Function.update_of_ne here]
      exact (sound.standing q).kept (kept q here) (by rw [pool])
  · have there : q ≠ p := fun here => out (here ▸ member)
    rw [fiber, Function.update_of_ne there]
    exact sound.outside q out
  · rw [pool]
    exact sound.pool

/-- A fiber goes on with the socket it has. Only the connection of this socket is concerned. -/
theorem advance (sound : Sound fibers n s) {v : Fiber} (mine : (s.fiber p).client = some k)
    (fiber : s'.fiber = Function.update s.fiber p v) (same : v.client = some k)
    (pool : s'.pool = s.pool) (connections : s'.connections = s.connections)
    (tasks : s'.tasks = s.tasks) (finished : s'.finished = s.finished)
    (dropped : s'.dropped = s.dropped) (kept : ∀ k', k' ≠ k → Kept s s' k')
    (standing : Standing s' p v) (kernel : KernelSound s') : Sound fibers n s' := by
  obtain ⟨⟨-, unfinished, held⟩, out⟩ := sound.leased.held p k mine
  have apart : ∀ {k'} {l : List ℕ}, k ∉ l → k' ∈ l → k' ≠ k := fun out mem here =>
    out (here ▸ mem)
  have member : p ∈ fibers := sound.member fun idle => by
    rw [idle] at mine
    cases mine
  refine sound.update member fiber pool ?_ (fun q there k' yours => kept k' ?_) standing ?_ ?_ ?_
    kernel
  · rw [connections, finished, dropped, tasks, fiber]
    exact sound.leased.keep (same.trans mine.symm)
  · exact sound.other mine there yours
  · rw [tasks]
    exact sound.queued_kept fun k' mem => kept k' (apart out mem)
  · rw [finished]
    intro k' mem
    have kept := kept k' (apart unfinished mem)
    exact ⟨kept.closed (sound.finished k' mem).1, kept.socket ▸ (sound.finished k' mem).2⟩
  · rw [dropped]
    intro k' mem
    have kept := kept k' (apart held mem)
    exact ⟨(sound.dropped k' mem).1.imp kept.file, kept.socket ▸ (sound.dropped k' mem).2⟩

/-- Nothing but the place of the fiber changes. -/
theorem become (sound : Sound fibers n s) {v : Fiber} (mine : (s.fiber p).client = some k)
    (same : v.client = some k) (standing : Standing (s.become p v) p v) :
    Sound fibers n (s.become p v) :=
  sound.advance mine rfl same rfl rfl rfl rfl rfl
    (fun _ _ => .same rfl rfl rfl rfl) standing
    (sound.kernel.same rfl rfl rfl)

/-! ### `startAccept` -/

/-- A fiber without a socket goes on without one. -/
theorem wander (sound : Sound fibers n s) {v : Fiber} (member : p ∈ fibers)
    (before : (s.fiber p).client = none) (after : v.client = none)
    (standing : Standing (s.become p v) p v) : Sound fibers n (s.become p v) := by
  exact sound.update member rfl rfl (sound.leased.turn before after)
    (fun _ _ _ _ => .same rfl rfl rfl rfl) standing
    (sound.queued_kept fun _ _ => .same rfl rfl rfl rfl) sound.finished sound.dropped
    (sound.kernel.same rfl rfl rfl)

theorem initial (fibers : Finset Fid) (n : ℕ) : Sound fibers n (Service.initial n) := by
  have idle : ∀ p, (Service.initial n : Service Fid).pool.client p = .idle := by
    obtain ⟨-, -, -, client, -⟩ := connList_connect (n := 0) n
      (⟨[], 0, 0, 0, fun _ => .idle, false⟩ : ConnectionPool Fid) rfl
    exact fun p => congrFun client p
  refine ⟨?_, idle, ?_, ?_, ?_, ⟨?_, ?_, ?_, List.nodup_nil⟩, fun _ _ => rfl, .start rfl⟩
  · have all := Leased.start (ι := Fid) Fiber.client (fun _ => .idle) List.nodup_nil fun _ => rfl
    exact all.congr fun k => ⟨fun mem => absurd mem List.not_mem_nil, fun old =>
      absurd old.1 (Nat.not_lt_zero k)⟩
  · exact fun k mem => absurd mem List.not_mem_nil
  · exact fun k mem => absurd mem List.not_mem_nil
  · exact fun k mem => absurd mem List.not_mem_nil
  · exact fun fd k file => absurd file (Option.some_ne_none k).symm
  · exact fun fd fd' k file => absurd file (Option.some_ne_none k).symm
  · exact fun k mem => absurd mem List.not_mem_nil

/-- Everything that is numbered so far. -/
theorem known (sound : Sound fibers n s) :
    (∀ k ∈ s.finished, k < s.connections) ∧ ∀ k ∈ s.dropped, k < s.connections := by
  refine ⟨fun k mem => sound.kernel.closed k (sound.finished k mem).1, fun k mem => ?_⟩
  obtain ⟨⟨fd, file⟩, -⟩ := sound.dropped k mem
  exact (sound.kernel.accepted fd k file).1

theorem accept (sound : Sound fibers n s) (accepting : s.fiber p = .accepting)
    (free : s.file fd = none) : Sound fibers n (s.accept p fd) := by
  have member : p ∈ fibers := sound.member fun idle => by
    rw [accepting] at idle
    cases idle
  have older : ∀ {k}, k < s.connections → k ≠ s.connections := Nat.ne_of_lt
  have kept : ∀ k, k < s.connections → Kept s (s.accept p fd) k := by
    intro k old
    have socket : (s.accept p fd).socket k = s.socket k := Function.update_of_ne (older old) _ _
    refine ⟨socket, fun fd' file => ?_, fun _ _ => rfl, id⟩
    have there : fd' ≠ fd := by
      rintro rfl
      rw [free] at file
      cases file
    exact (Function.update_of_ne there _ _).trans file
  have new : (s.accept p fd).file fd = some s.connections := Function.update_self _ _ _
  have files : ∀ fd' k, (s.accept p fd).file fd' = some k →
      fd' = fd ∧ k = s.connections ∨ fd' ≠ fd ∧ s.file fd' = some k := by
    intro fd' k file
    by_cases here : fd' = fd
    · rw [here, new] at file
      exact .inl ⟨here, (Option.some.inj file).symm⟩
    · exact .inr ⟨here, (Function.update_of_ne here _ _).symm.trans file⟩
  obtain ⟨finished, dropped⟩ := sound.known
  refine sound.update member rfl rfl ?_ (fun q _ k yours => ?_) ?_ ?_ ?_ ?_ ⟨?_, ?_, ?_, ?_⟩
  · have grown := sound.leased.create (k := s.connections) (i := p)
      (v := .accepted s.connections fd) (fun old => lt_irrefl _ old.1) (by rw [accepting]; rfl) rfl
    refine grown.congr fun k => ⟨?_, fun all => ?_⟩
    · rintro (⟨old, rest⟩ | rfl)
      · exact ⟨Nat.lt_succ_of_lt old, rest⟩
      · exact ⟨Nat.lt_succ_self _, fun mem => lt_irrefl _ (finished _ mem), fun mem =>
          lt_irrefl _ (dropped _ mem)⟩
    · exact (Nat.lt_succ_iff_lt_or_eq.mp all.1).imp_left (⟨·, all.2⟩)
  · exact kept k (sound.leased.held q k yours).1.1
  · have idle := sound.standing p
    rw [accepting] at idle
    refine ⟨idle, new, ?_⟩
    show (Function.update s.socket s.connections ⟨none, false⟩ s.connections).sock = none
    rw [Function.update_self]
  · exact sound.queued_kept fun k mem => kept k (sound.leased.stocked k mem).1
  · intro k mem
    have kept := kept k (finished k mem)
    exact ⟨(sound.finished k mem).1, kept.socket ▸ (sound.finished k mem).2⟩
  · intro k mem
    have kept := kept k (dropped k mem)
    exact ⟨(sound.dropped k mem).1.imp kept.file, kept.socket ▸ (sound.dropped k mem).2⟩
  · intro fd' k file
    rcases files fd' k file with ⟨-, rfl⟩ | ⟨-, file⟩
    · exact ⟨Nat.lt_succ_self _, fun mem => lt_irrefl _ (sound.kernel.closed _ mem)⟩
    · exact (sound.kernel.accepted fd' k file).imp_left Nat.lt_succ_of_lt
  · intro fd' fd'' k file file'
    rcases files fd' k file with ⟨here, rfl⟩ | ⟨-, file⟩ <;>
      rcases files fd'' _ file' with ⟨here', same⟩ | ⟨-, file'⟩
    · exact here.trans here'.symm
    · exact absurd (sound.kernel.accepted fd'' _ file').1 (lt_irrefl _)
    · exact absurd (same ▸ (sound.kernel.accepted fd' k file).1) (lt_irrefl _)
    · exact sound.kernel.single fd' fd'' k file file'
  · exact fun k mem => Nat.lt_succ_of_lt (sound.kernel.closed k mem)
  · exact sound.kernel.nodup

theorem init (sound : Sound fibers n s) (ok : Bool) (accepted : s.fiber p = .accepted k fd) :
    Sound fibers n (s.init p k fd ok) := by
  have mine : (s.fiber p).client = some k := by rw [accepted]; rfl
  have stands := sound.standing p
  rw [accepted] at stands
  obtain ⟨idle, file, unset⟩ := stands
  unfold Service.init
  split
  · refine sound.advance mine rfl rfl rfl rfl rfl rfl rfl (fun k' there => ?_) ?_
      (sound.kernel.same rfl rfl rfl)
    · exact ⟨Function.update_of_ne there _ _, fun _ file => file, fun _ _ => rfl, id⟩
    · exact ⟨idle, fd, Function.update_self _ _ _, file⟩
  · have member : p ∈ fibers := sound.member fun idle => by
      rw [accepted] at idle
      cases idle
    refine sound.update member rfl rfl ?_ (fun _ _ _ _ => .same rfl rfl rfl rfl) idle
      (sound.queued_kept fun _ _ => .same rfl rfl rfl rfl) sound.finished ?_
      (sound.kernel.same rfl rfl rfl)
    · have left := sound.leased.dispose (v := .accepting) mine rfl
      refine left.congr fun k' => ?_
      simp only [List.mem_cons, not_or]
      exact ⟨fun all => ⟨all.1.1, all.1.2.1, all.2, all.1.2.2⟩,
        fun all => ⟨⟨all.1, all.2.1, all.2.2.2⟩, all.2.2.1⟩⟩
    · intro k' mem
      rcases List.mem_cons.mp mem with rfl | older
      · exact ⟨⟨fd, file⟩, unset⟩
      · exact sound.dropped k' older

theorem schedule (sound : Sound fibers n s) (announcing : s.fiber p = .announcing k) :
    Sound fibers n (s.schedule p k) := by
  have stands := sound.standing p
  rw [announcing] at stands
  obtain ⟨idle, opened⟩ := stands
  have member : p ∈ fibers := sound.member fun idle => by
    rw [announcing] at idle
    cases idle
  refine sound.update member rfl rfl ?_ (fun _ _ _ _ => .same rfl rfl rfl rfl) idle ?_
    sound.finished sound.dropped (sound.kernel.same rfl rfl rfl)
  · exact sound.leased.giveBack (by rw [announcing]; rfl) rfl
  · intro k' mem
    rcases List.mem_append.mp mem with older | last
    · exact (sound.queued k' older).imp fun _ opened => ⟨opened.socket, opened.file⟩
    · rw [List.mem_singleton.mp last]
      exact opened.imp fun _ opened => ⟨opened.socket, opened.file⟩

/-! ### `handleClient` -/

theorem take (sound : Sound fibers n s) (member : p ∈ fibers) (idle : s.fiber p = .idle)
    (first : s.tasks.head? = some k) : Sound fibers n (s.take p k) := by
  have whole : s.tasks = k :: s.tasks.tail := List.eq_cons_of_mem_head? first
  have apart := sound.standing p
  rw [idle] at apart
  have leased := sound.leased
  rw [whole] at leased
  refine sound.update member rfl rfl ?_ (fun _ _ _ _ => .same rfl rfl rfl rfl) ?_ ?_
    sound.finished sound.dropped (sound.kernel.same rfl rfl rfl)
  · exact leased.take (by rw [idle]; rfl) rfl
  · obtain ⟨fd, opened⟩ := sound.queued k (whole ▸ List.mem_cons_self)
    exact ⟨apart, fd, opened.socket, opened.file⟩
  · intro k' mem
    obtain ⟨fd, opened⟩ := sound.queued k' (List.mem_of_mem_tail mem)
    exact ⟨fd, opened.socket, opened.file⟩

theorem enter (sound : Sound fibers n s) (entered : s.fiber p = .entered k) :
    Sound fibers n (s.enter p k) := by
  have mine : (s.fiber p).client = some k := by rw [entered]; rfl
  have stands := sound.standing p
  rw [entered] at stands
  obtain ⟨idle, fd, opened⟩ := stands
  unfold Service.enter
  rw [opened.socket]
  exact sound.become mine rfl ⟨idle, opened.socket, opened.file⟩

theorem initialise (sound : Sound fibers n s) (initialising : s.fiber p = .initialising k fd) :
    Sound fibers n (s.initialise p k fd) := by
  have stands := sound.standing p
  rw [initialising] at stands
  obtain ⟨idle, opened⟩ := stands
  refine sound.advance (by rw [initialising]; rfl) rfl rfl rfl rfl rfl rfl rfl
    (fun k' => Kept.user opened.file ⟨rfl, rfl, rfl⟩ rfl) ?_ (sound.kernel.same rfl rfl rfl)
  refine ⟨idle, ⟨opened.socket, opened.file⟩, ?_⟩
  show (Function.update s.users fd ⟨some k, none⟩ fd).client = some k
  rw [Function.update_self]

theorem test (sound : Sound fibers n s) (testing : s.fiber p = .testing k fd) :
    Sound fibers n (s.test p k fd) := by
  have mine : (s.fiber p).client = some k := by rw [testing]; rfl
  have stands := sound.standing p
  rw [testing] at stands
  obtain ⟨idle, opened, user⟩ := stands
  unfold Service.test
  split
  · exact sound.become mine rfl ⟨idle, ⟨opened.socket, opened.file⟩, user⟩
  · exact sound.become mine rfl ⟨idle, fd, opened.socket, opened.file⟩

theorem readOnce (sound : Sound fibers n s) (ok : Bool) (reading : s.fiber p = .reading k fd) :
    Sound fibers n (s.readOnce p k fd ok) := by
  have mine : (s.fiber p).client = some k := by rw [reading]; rfl
  have stands := sound.standing p
  rw [reading] at stands
  obtain ⟨idle, opened, user⟩ := stands
  unfold Service.readOnce
  split
  · exact sound.become mine rfl ⟨⟨opened.socket, opened.file⟩, user⟩
  · exact sound.become mine rfl ⟨idle, fd, opened.socket, opened.file⟩

theorem assign (sound : Sound fibers n s) {con : Option ℕ} (getting : s.fiber p = .getting k fd)
    (holding : s.pool.client p = .holding con) : Sound fibers n (s.assign p k fd con) := by
  have stands := sound.standing p
  rw [getting] at stands
  obtain ⟨opened, user⟩ := stands
  refine sound.advance (by rw [getting]; rfl) rfl rfl rfl rfl rfl rfl rfl
    (fun k' => Kept.user opened.file ⟨rfl, rfl, rfl⟩ rfl) ?_ (sound.kernel.same rfl rfl rfl)
  have written : (s.assign p k fd con).users fd = { s.users fd with mysql := con } :=
    Function.update_self _ _ _
  refine ⟨?_, ⟨opened.socket, opened.file⟩, ?_⟩
  · rw [written]
    exact holding
  · rw [written]
    exact user

theorem process (sound : Sound fibers n s) (ok : Bool)
    (processing : s.fiber p = .processing k fd) : Sound fibers n (s.process p k fd ok) := by
  have mine : (s.fiber p).client = some k := by rw [processing]; rfl
  have stands := sound.standing p
  rw [processing] at stands
  obtain ⟨holding, opened, user⟩ := stands
  unfold Service.process
  split
  · refine sound.become mine rfl ⟨?_, ⟨opened.socket, opened.file⟩, user⟩
    show (s.pool.client p).held.isSome = true
    rw [holding]
    rfl
  · exact sound.become mine rfl ⟨⟨opened.socket, opened.file⟩, user⟩

theorem write (sound : Sound fibers n s) (ok renews : Bool) (writing : s.fiber p = .writing k fd) :
    Sound fibers n (s.write p k fd ok renews) := by
  have mine : (s.fiber p).client = some k := by rw [writing]; rfl
  have stands := sound.standing p
  rw [writing] at stands
  obtain ⟨-, opened, user⟩ := stands
  unfold Service.write
  dsimp only
  split
  · refine sound.advance mine rfl rfl rfl rfl rfl rfl rfl
      (fun k' => Kept.user opened.file ⟨rfl, rfl, rfl⟩ rfl) ⟨⟨opened.socket, opened.file⟩, ?_⟩
      (sound.kernel.same rfl rfl rfl)
    show (Function.update s.users fd { s.users fd with mysql := none } fd).client = some k
    rw [Function.update_self]
    exact user
  · exact sound.become mine rfl ⟨⟨opened.socket, opened.file⟩, user⟩

theorem leave (sound : Sound fibers n s) {ok : Bool} (leaving : s.fiber p = .leaving k fd ok)
    (idle : s.pool.client p = .idle) : Sound fibers n (s.leave p k fd ok) := by
  have mine : (s.fiber p).client = some k := by rw [leaving]; rfl
  have stands := sound.standing p
  rw [leaving] at stands
  obtain ⟨opened, user⟩ := stands
  unfold Service.leave
  split
  · exact sound.become mine rfl ⟨idle, ⟨opened.socket, opened.file⟩, user⟩
  · exact sound.become mine rfl ⟨idle, fd, opened.socket, opened.file⟩

theorem poolStep (sound : Sound fibers n s) {a : PoolMove Fid}
    (performs : (s.fiber (performer a)).performs a = true)
    (available : (poolMachine fibers n).enabled s.pool a) :
    Sound fibers n { s with pool := (poolMachine fibers n).next s.pool a } := by
  refine ⟨sound.leased, fun p => ?_, ?_, sound.finished, sound.dropped,
    sound.kernel.same rfl rfl rfl, sound.outside, sound.pool.move available trivial⟩
  · by_cases here : p = performer a
    · subst here
      exact (sound.standing _).poolStep performs fun q query => by rw [query]; rfl
    · have unmoved : ((poolMachine fibers n).next s.pool a).client p = s.pool.client p :=
        client_next here
      exact (sound.standing p).kept (fun _ _ => .same rfl rfl rfl rfl) unmoved
  · exact sound.queued_kept fun _ _ => .same rfl rfl rfl rfl

/-! ### `close` -/

theorem shut (sound : Sound fibers n s) (ending : s.fiber p = .ending k) :
    Sound fibers n (s.shut p k) := by
  have stands := sound.standing p
  rw [ending] at stands
  obtain ⟨idle, fd, opened⟩ := stands
  unfold Service.shut
  rw [if_neg (by rw [opened.socket]; exact fun shut => Bool.noConfusion shut.1)]
  refine sound.advance (by rw [ending]; rfl) rfl rfl rfl rfl rfl rfl rfl (fun k' there => ?_) ?_
    (sound.kernel.same rfl rfl rfl)
  · exact ⟨Function.update_of_ne there _ _, fun _ file => file, fun _ _ => rfl, id⟩
  · refine ⟨idle, fd, ?_, opened.file⟩
    show (Function.update s.socket k { s.socket k with isConnected := false } k).sock = some fd
    rw [Function.update_self, opened.socket]

theorem close (sound : Sound fibers n s) (closing : s.fiber p = .closing k) :
    Sound fibers n (s.close p k) := by
  have stands := sound.standing p
  rw [closing] at stands
  obtain ⟨idle, fd, sock, file⟩ := stands
  unfold Service.close
  rw [sock]
  have kernel : KernelSound (s.closeFile fd) := sound.kernel.closeFile file
  refine sound.advance (by rw [closing]; rfl) rfl rfl rfl rfl rfl rfl rfl (fun k' there => ?_) ?_
    (kernel.same rfl rfl rfl)
  · have kept : Kept s (s.closeFile fd) k' := Kept.closeFile file there
    exact ⟨kept.socket, kept.file, kept.users, kept.closed⟩
  · refine ⟨idle, ?_⟩
    show k ∈ (s.closeFile fd).closed
    rw [closed_closeFile file]
    exact List.mem_cons_self

theorem forget (sound : Sound fibers n s) (closed : s.fiber p = .closed k) :
    Sound fibers n (s.forget p k) := by
  have mine : (s.fiber p).client = some k := by rw [closed]; rfl
  have stands := sound.standing p
  rw [closed] at stands
  obtain ⟨idle, gone⟩ := stands
  have member : p ∈ fibers := sound.member fun idle => by
    rw [closed] at idle
    cases idle
  obtain ⟨-, out⟩ := sound.leased.held p k mine
  have kept : ∀ k', k' ≠ k → Kept s (s.forget p k) k' := fun k' there =>
    ⟨Function.update_of_ne there _ _, fun _ file => file, fun _ _ => rfl, id⟩
  have unset : ((s.forget p k).socket k).sock = none := by
    show (Function.update s.socket k { s.socket k with sock := none } k).sock = none
    rw [Function.update_self]
  refine sound.update member rfl rfl ?_ (fun q there k' yours => kept k' ?_) idle ?_ ?_ ?_
    (sound.kernel.same rfl rfl rfl)
  · have left := sound.leased.dispose (v := .idle) mine rfl
    refine left.congr fun k' => ?_
    show _ ↔ k' < s.connections ∧ k' ∉ k :: s.finished ∧ k' ∉ s.dropped
    simp only [List.mem_cons, not_or]
    exact ⟨fun all => ⟨all.1.1, ⟨all.2, all.1.2.1⟩, all.1.2.2⟩,
      fun all => ⟨⟨all.1, all.2.1.2, all.2.2⟩, all.2.1.1⟩⟩
  · exact sound.other mine there yours
  · exact sound.queued_kept fun k' mem => kept k' fun here => out (here ▸ mem)
  · intro k' mem
    rcases List.mem_cons.mp mem with rfl | older
    · exact ⟨gone, unset⟩
    · by_cases here : k' = k
      · rw [here]
        exact ⟨gone, unset⟩
      · exact ⟨(sound.finished k' older).1, (kept k' here).socket ▸ (sound.finished k' older).2⟩
  · intro k' mem
    obtain ⟨open', unset'⟩ := sound.dropped k' mem
    refine ⟨open', ?_⟩
    by_cases here : k' = k
    · rw [here]
      exact unset
    · rw [(kept k' here).socket]
      exact unset'

/-- A `Socket` that no fiber and no task has has no descriptor: its destructor closes nothing. -/
theorem unset (sound : Sound fibers n s) (made : k < s.connections) (unqueued : k ∉ s.tasks)
    (nobody : ∀ p ∈ fibers, (s.fiber p).client ≠ some k) : (s.socket k).sock = none := by
  by_contra set
  have finished : k ∉ s.finished := fun mem => set (sound.finished k mem).2
  have dropped : k ∉ s.dropped := fun mem => set (sound.dropped k mem).2
  rcases sound.leased.somewhere k ⟨made, finished, dropped⟩ with queued | ⟨p, mine⟩
  · exact unqueued queued
  · refine nobody p (sound.member fun idle => ?_) mine
    rw [idle] at mine
    cases mine

theorem destroy (sound : Sound fibers n s) (made : k < s.connections) (unqueued : k ∉ s.tasks)
    (nobody : ∀ p ∈ fibers, (s.fiber p).client ≠ some k) : Sound fibers n (s.destroy k) := by
  unfold Service.destroy
  rw [sound.unset made unqueued nobody]
  have blank : ∀ k', k' ≠ k → Function.update s.socket k ⟨none, false⟩ k' = s.socket k' :=
    fun k' there => Function.update_of_ne there _ _
  have unset : ∀ k', (s.socket k').sock = none →
      (Function.update s.socket k ⟨none, false⟩ k').sock = none := by
    intro k' unset
    by_cases here : k' = k
    · rw [here, Function.update_self]
    · rw [blank k' here]
      exact unset
  refine ⟨sound.leased, fun p => ?_, ?_, ?_, ?_, sound.kernel.same rfl rfl rfl, sound.outside,
    sound.pool⟩
  · refine (sound.standing p).kept (fun k' yours => ?_) rfl
    refine ⟨blank k' ?_, fun _ file => file, fun _ _ => rfl, id⟩
    rintro rfl
    refine nobody p (sound.member fun idle => ?_) yours
    rw [idle] at yours
    cases yours
  · refine sound.queued_kept fun k' mem => ⟨blank k' ?_, fun _ file => file, fun _ _ => rfl, id⟩
    rintro rfl
    exact unqueued mem
  · exact fun k' mem => (sound.finished k' mem).imp_right (unset k')
  · exact fun k' mem => (sound.dropped k' mem).imp_right (unset k')

theorem next (sound : Sound fibers n s) {a : ServiceMove Fid}
    (available : (serviceMachine fibers n).enabled s a) :
    Sound fibers n ((serviceMachine fibers n).next s a) := by
  cases a with
  | launch p =>
    have stands := sound.standing p
    rw [available.2] at stands
    exact sound.wander available.1 (by rw [available.2]; rfl) rfl stands
  | quit p =>
    have accepting : s.fiber p = .accepting := available
    have stands := sound.standing p
    rw [accepting] at stands
    have member : p ∈ fibers := sound.member fun idle => by
      rw [accepting] at idle
      cases idle
    exact sound.wander member (by rw [accepting]; rfl) rfl stands
  | accept p fd => exact sound.accept available.1 available.2
  | init p k fd ok => exact sound.init ok available
  | schedule p k => exact sound.schedule available
  | take p k => exact sound.take available.1 available.2.1 available.2.2
  | enter p k => exact sound.enter available
  | initialise p k fd => exact sound.initialise available
  | test p k fd => exact sound.test available
  | readOnce p k fd ok => exact sound.readOnce ok available
  | pool a => exact sound.poolStep available.1 available.2
  | assign p k fd con => exact sound.assign available.1 available.2
  | process p k fd ok => exact sound.process ok available
  | write p k fd ok renews => exact sound.write ok renews available
  | leave p k fd ok => exact sound.leave available.1 available.2
  | shut p k => exact sound.shut available
  | close p k => exact sound.close available
  | forget p k => exact sound.forget available
  | destroy k => exact sound.destroy available.1 available.2.1 available.2.2

end Sound

/-- Where a fiber uses an `http_conn`, it is the one of its own descriptor, and from `init` on this
`http_conn` has the fiber's own socket. -/
theorem Standing.opened {v : Fiber} (standing : Standing s p v) (user : v.user = some fd) :
    ∃ k, v.client = some k ∧ Opened s k fd ∧
      (v ≠ .initialising k fd → (s.users fd).client = some k) := by
  cases v with
  | initialising k fd' =>
    obtain rfl := Option.some.inj user
    exact ⟨k, rfl, standing.2, fun other => absurd rfl other⟩
  | testing k fd' | reading k fd' =>
    obtain rfl := Option.some.inj user
    exact ⟨k, rfl, standing.2.1, fun _ => standing.2.2⟩
  | getting k fd' | leaving k fd' ok =>
    obtain rfl := Option.some.inj user
    exact ⟨k, rfl, standing.1, fun _ => standing.2⟩
  | processing k fd' | writing k fd' =>
    obtain rfl := Option.some.inj user
    exact ⟨k, rfl, standing.2.1, fun _ => standing.2.2⟩
  | idle | accepting | accepted | announcing | entered | ending | closing | closed => cases user

/-- What the fibers of the server can rely on. -/
structure Separate (fibers : Finset Fid) (s : Service Fid) : Prop where
  exclusive : ∀ p q fd, (s.fiber p).user = some fd → (s.fiber q).user = some fd → p = q
  own : ∀ p fd, (s.fiber p).user = some fd → ∃ k, (s.fiber p).client = some k ∧
    s.file fd = some k ∧ s.socket k = ⟨some fd, true⟩ ∧
      (s.fiber p ≠ .initialising k fd → (s.users fd).client = some k)
  mysql : ∀ p q k k' fd fd' con, s.fiber p = .processing k fd → s.fiber q = .processing k' fd' →
    (s.users fd).mysql = some con → (s.users fd').mysql = some con → p = q
  closing : ∀ p k, s.fiber p = .closing k → ∃ fd, (s.socket k).sock = some fd ∧ s.file fd = some k
  closedOnce : s.closed.Nodup
  destructor : ∀ k < s.connections, k ∉ s.tasks → (∀ p ∈ fibers, (s.fiber p).client ≠ some k) →
    (s.socket k).sock = none
  owned : ∀ fd k, s.file fd = some k →
    k ∈ s.dropped ∨ (s.tasks.count k = 1 ∧ ∀ p, (s.fiber p).client ≠ some k) ∨
      (k ∉ s.tasks ∧ ∃! p, (s.fiber p).client = some k)

variable [DecidableEq Fid]

theorem Sound.separate (sound : Sound fibers n s) : Separate fibers s where
  exclusive p q fd mine yours := by
    obtain ⟨k, has, opened, -⟩ := (sound.standing p).opened mine
    obtain ⟨k', has', opened', -⟩ := (sound.standing q).opened yours
    obtain rfl : k = k' := Option.some.inj (opened.file.symm.trans opened'.file)
    exact sound.leased.single p q k has has'
  own p fd mine := by
    obtain ⟨k, has, opened, user⟩ := (sound.standing p).opened mine
    exact ⟨k, has, opened.file, opened.socket, user⟩
  mysql p q k k' fd fd' con here there mine yours := by
    have stands := sound.standing p
    have stands' := sound.standing q
    rw [here] at stands
    rw [there] at stands'
    have holds : s.pool.client p = .holding (some con) := by rw [← mine]; exact stands.1
    have holds' : s.pool.client q = .holding (some con) := by rw [← yours]; exact stands'.1
    -- the pool gives a connection to one client at a time
    have leased := (accounted_of_poolMachine sound.pool).leased
    exact leased.single p q con (by rw [holds]; rfl) (by rw [holds']; rfl)
  closing p k closing := by
    have stands := sound.standing p
    rw [closing] at stands
    exact stands.2
  closedOnce := sound.kernel.nodup
  destructor k made := sound.unset made
  owned fd k file := by
    obtain ⟨made, out⟩ := sound.kernel.accepted fd k file
    by_cases dropped : k ∈ s.dropped
    · exact .inl dropped
    · have unfinished : k ∉ s.finished := fun mem => out (sound.finished k mem).1
      exact .inr (sound.leased.one_place ⟨made, unfinished, dropped⟩)

/-- In every run of the server, and whatever numbers the kernel gives to new connections: an
`http_conn` is used by one fiber at a time, whose own connection is behind its descriptor and its
socket; the fibers in `process` use different database connections; a connection is closed once, by
its own fiber and by no destructor; and an open descriptor that nobody is going to close is one
that `Socket::init` has refused. -/
theorem separate_of_reachable (fibers : Finset Fid) (n : ℕ) (s : Service Fid)
    (reached : (serviceMachine fibers n).Reachable s) : Separate fibers s := by
  have sound : Sound fibers n s := by
    refine reached.invariant (I := Sound fibers n) ?_ ?_
    · rintro _ rfl
      exact Sound.initial fibers n
    · exact fun s a sound available _ => sound.next available
  exact sound.separate

end Sound

/-- The kernel gives the number of the first connection to the second one before the first fiber has
set `m_sock` to `-1`, and the `http_conn` of this number is used again. -/
def successors : List (ServiceMove ℕ) :=
  [.launch 0, .accept 0 7, .init 0 0 7 true, .schedule 0 0, .take 1 0, .enter 1 0,
    .initialise 1 0 7, .test 1 0 7, .readOnce 1 0 7 true, .pool (.size 1), .pool (.wait 1),
    .pool (.pop 1), .assign 1 0 7 (some 0), .process 1 0 7 true, .write 1 0 7 false false,
    .pool (.release 1), .pool (.post 1), .leave 1 0 7 false, .shut 1 0, .close 1 0, .accept 0 7,
    .init 0 1 7 true, .schedule 0 1, .take 2 1, .enter 2 1, .initialise 2 1 7, .forget 1 0,
    .destroy 0, .test 2 1 7, .readOnce 2 1 7 true, .pool (.size 2), .pool (.wait 2),
    .pool (.pop 2), .assign 2 1 7 (some 0)]

theorem separate_successors :
    ((serviceMachine {0, 1, 2} 1).after (.initial 1) successors).users 7 = ⟨some 1, some 0⟩ ∧
      Separate {0, 1, 2} ((serviceMachine {0, 1, 2} 1).after (.initial 1) successors) := by
  have starts : (serviceMachine {0, 1, 2} 1).init (.initial 1 : Service ℕ) := rfl
  have follows : (serviceMachine {0, 1, 2} 1).Follows (fun _ _ => True) (.initial 1 : Service ℕ)
      successors := by
    decide +kernel
  exact ⟨by decide +kernel, separate_of_reachable {0, 1, 2} 1 _
    ((Machine.Reaches.start starts).follow follows)⟩

end CoroutineService.Server
