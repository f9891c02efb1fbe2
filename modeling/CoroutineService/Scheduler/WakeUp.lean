import CoroutineService.Scheduler.Accounting
import Mathlib.Data.Fintype.Basic

/-!
# Wake-ups of idle workers

A worker that finds no task announces itself in `m_idleThreadCount` only after
it has given up `m_mutex`; a push reads that counter, outside the lock too, and
writes to the pipe only when it is positive. Three steps can therefore leave a
queued task to workers that sleep:

* the test of `hasIdleThreads` between the scan of a worker and its `++`,
* a push to a queue that is not empty, which does not call `tickle` at all,
* the draining of the pipe by a worker that may not run the task.

`WakeSafe` says of these steps that they do no harm where they are taken; runs
that keep to it lose no wake-up.

## Main results

* `attended_of_reaches`: no wake-up is lost in runs that keep to `WakeSafe`
* `attended_of_unpinned`: without pinned tasks the first of the three decides
* `lost_wakeUp`: a wake-up is lost
-/

set_option autoImplicit false

namespace CoroutineService.Scheduler

open CoroutineService.Transition

variable {Tid Fib Cb : Type*}

namespace Phase

/-- In `run`, and not blocked in `epoll_wait`. -/
def awake : Phase Tid Fib Cb → Bool
  | .starting | .blocked | .exited => false
  | _ => true

/-- On the way to the next scan of the queue. -/
def searches : Phase Tid Fib Cb → Bool
  | .starting | .retiring | .idleTop | .arming | .armed | .blocked | .exited => false
  | _ => true

/-- From a scan that found nothing to the end of `epoll_wait`. -/
def rests : Phase Tid Fib Cb → Bool
  | .retiring | .idleTop | .arming | .armed | .blocked => true
  | _ => false

theorem awake_of_searches {v : Phase Tid Fib Cb} (searching : v.searches = true) :
    v.awake = true := by
  cases v with
  | starting | retiring | idleTop | arming | armed | blocked | exited => cases searching
  | _ => rfl

end Phase

namespace State

/-- A worker that may run the task will scan the queue again by itself. -/
def searched [DecidableEq Tid] (workers : Finset Tid) (s : State Tid Fib Cb)
    (task : ScheduleTask Tid Fib Cb) : Prop :=
  ∃ v ∈ workers, task.runnable v = true ∧ (s.phase v).searches = true

/-- The thread `p` is still about to write to the pipe, or to decide whether to,
for a push it made. -/
def announces (s : State Tid Fib Cb) (p : Tid) : Prop :=
  s.notice p = .due true ∨ s.notice p = .passed true

instance (s : State Tid Fib Cb) (p : Tid) : Decidable (s.announces p) :=
  inferInstanceAs (Decidable (_ ∨ _))

/-- Somebody takes care that the task is found: a worker that searches, a byte in
the pipe, or a thread about to call `tickle`. -/
def covered [DecidableEq Tid] (workers : Finset Tid) (s : State Tid Fib Cb)
    (task : ScheduleTask Tid Fib Cb) : Prop :=
  s.searched workers task ∨ 0 < s.unread ∨ ∃ p, s.announces p

/-- A worker that may run the task has gone to rest, or is about to. -/
def exposed [DecidableEq Tid] (workers : Finset Tid) (s : State Tid Fib Cb)
    (task : ScheduleTask Tid Fib Cb) : Prop :=
  ∃ w ∈ workers, task.runnable w = true ∧ (s.phase w).rests = true

end State

variable [DecidableEq Tid] [DecidableEq Fib]
variable {workers : Finset Tid} {s s' : State Tid Fib Cb} {a : Move Tid Fib Cb} {w : Tid}
variable {task : ScheduleTask Tid Fib Cb}

/-- No task waits for a worker asleep: where a worker blocked in `epoll_wait` may
run a queued task, a worker that may run it is awake, or the pipe holds a byte,
or a thread is still about to call `tickle` for its push. -/
def NoLostWakeUp (workers : Finset Tid) (s : State Tid Fib Cb) : Prop :=
  ∀ task ∈ s.tasks, ∀ w ∈ workers, s.phase w = .blocked → task.runnable w = true →
    (∃ v ∈ workers, task.runnable v = true ∧ (s.phase v).awake = true) ∨
      0 < s.unread ∨ ∃ p, s.announces p

/-- The steps that may cost a wake-up do not cost one here. -/
def WakeSafe (workers : Finset Tid) (s : State Tid Fib Cb) : Move Tid Fib Cb → Prop
  | .hasIdleThreads p true =>
    -- the test finds nobody idle, although a worker has just given up its scan
    s.idleThreadCount = 0 → ∀ task ∈ s.tasks, ∀ w ∈ workers, s.phase w = .retiring →
      task.runnable w = true →
      s.searched workers task ∨ 0 < s.unread ∨ ∃ q, q ≠ p ∧ s.announces q
  | .scheduleLock _ task =>
    -- `need_tickle` is false
    s.tasks ≠ [] → task.nonempty = true → s.exposed workers task → s.covered workers task
  | .drain _ =>
    ∀ task ∈ s.tasks, s.exposed workers task → s.searched workers task ∨ ∃ q, s.announces q
  | _ => True

section Decidable

variable [Fintype Tid] [DecidableEq Cb]

instance : Decidable (s.searched workers task) :=
  inferInstanceAs (Decidable (∃ v ∈ workers, _ ∧ _))

instance : Decidable (s.exposed workers task) :=
  inferInstanceAs (Decidable (∃ w ∈ workers, _ ∧ _))

instance : Decidable (s.covered workers task) :=
  inferInstanceAs (Decidable (_ ∨ _ ∨ _))

instance : Decidable (NoLostWakeUp workers s) :=
  inferInstanceAs (Decidable (∀ task ∈ s.tasks, _))

instance : Decidable (WakeSafe workers s a) := by
  induction a using Move.casesOn with
  | hasIdleThreads p push =>
    induction push using Bool.casesOn <;> (dsimp only [WakeSafe]; infer_instance)
  | _ => dsimp only [WakeSafe]; infer_instance

end Decidable

/-- The invariant: every task that a resting worker may run is covered. -/
def Attended (workers : Finset Tid) (s : State Tid Fib Cb) : Prop :=
  ∀ task ∈ s.tasks, s.exposed workers task → s.covered workers task

omit [DecidableEq Fib] in
theorem Attended.noLostWakeUp (attended : Attended workers s) : NoLostWakeUp workers s := by
  intro task queued w member blocked may
  rcases attended task queued ⟨w, member, may, by rw [blocked]; rfl⟩ with search | other
  · obtain ⟨v, belongs, might, searching⟩ := search
    exact .inl ⟨v, belongs, might, Phase.awake_of_searches searching⟩
  · exact .inr other

/-! ### Steps that change nothing about the cover -/

omit [DecidableEq Fib] in
theorem State.exposed_of_goto {v : Phase Tid Fib Cb}
    (kept : task.runnable w = true → v.rests = true → (s.phase w).rests = true)
    (exposed : (s.goto w v).exposed workers task) : s.exposed workers task := by
  obtain ⟨u, member, may, resting⟩ := exposed
  by_cases moved : u = w
  · subst moved
    rw [State.goto_phase, Function.update_self] at resting
    exact ⟨u, member, may, kept may resting⟩
  · rw [State.goto_phase, Function.update_of_ne moved] at resting
    exact ⟨u, member, may, resting⟩

omit [DecidableEq Fib] in
theorem State.searched_goto {v : Phase Tid Fib Cb}
    (kept : task.runnable w = true → (s.phase w).searches = true → v.searches = true)
    (search : s.searched workers task) : (s.goto w v).searched workers task := by
  obtain ⟨u, member, may, searching⟩ := search
  refine ⟨u, member, may, ?_⟩
  by_cases moved : u = w
  · subst moved
    rw [State.goto_phase, Function.update_self]
    exact kept may searching
  · rwa [State.goto_phase, Function.update_of_ne moved]

omit [DecidableEq Fib] in
/-- A worker moves on, not to rest and not away from its search, as far as the
queued tasks it may run are concerned. -/
theorem Attended.goto (attended : Attended workers s) {v : Phase Tid Fib Cb}
    (rests : ∀ task ∈ s.tasks, task.runnable w = true → v.rests = true →
      (s.phase w).rests = true)
    (searches : ∀ task ∈ s.tasks, task.runnable w = true → (s.phase w).searches = true →
      v.searches = true) : Attended workers (s.goto w v) := by
  intro task queued exposed
  rcases attended task queued (State.exposed_of_goto (rests task queued) exposed) with
    search | other
  · exact .inl (State.searched_goto (searches task queued) search)
  · exact .inr other

omit [DecidableEq Fib] in
theorem Attended.sublist (attended : Attended workers s) {tasks : List (ScheduleTask Tid Fib Cb)}
    (queued : ∀ task ∈ tasks, task ∈ s.tasks) : Attended workers { s with tasks := tasks } :=
  fun task mem exposed => attended task (queued task mem) exposed

omit [DecidableEq Fib] in
/-- A thread that does not announce a push moves on in `tickle`. -/
theorem Attended.notify (attended : Attended workers s) {p : Tid} {n : Notice}
    (silent : ¬ s.announces p) : Attended workers (s.notify p n) := by
  intro task queued exposed
  rcases attended task queued exposed with search | unread | ⟨q, announces⟩
  · exact .inl search
  · exact .inr (.inl unread)
  · have other : q ≠ p := fun same => silent (same ▸ announces)
    refine .inr (.inr ⟨q, ?_⟩)
    simpa only [State.announces, State.notify_notice, Function.update_of_ne other] using announces

omit [DecidableEq Tid] [DecidableEq Fib] in
theorem State.not_announces {p : Tid} (quiet : s.notice p = .quiet) : ¬ s.announces p := by
  simp [State.announces, quiet]

omit [DecidableEq Fib] in
theorem attended_of_announces {p : Tid} (announces : s.announces p) : Attended workers s :=
  fun _ _ _ => .inr (.inr ⟨p, announces⟩)

/-! ### Steps that may cost a wake-up -/

omit [DecidableEq Tid] [DecidableEq Fib] in
/-- While nobody is counted as idle, only workers that have just given up their
scan rest. -/
theorem retiring_of_rests (counted : s.idleThreadCount = census workers Phase.idle s.phase)
    (none : s.idleThreadCount = 0) (member : w ∈ workers) (resting : (s.phase w).rests = true) :
    s.phase w = .retiring := by
  rw [counted] at none
  have outside := census_eq_zero_iff.mp none w member
  cases stands : s.phase w with
  | retiring => rfl
  | idleTop | arming | armed | blocked =>
    rw [stands] at outside
    cases outside
  | _ =>
    rw [stands] at resting
    cases resting

theorem Attended.push (attended : Attended workers s) {p : Tid}
    (available : guard workers s (.scheduleLock p task))
    (safe : WakeSafe workers s (.scheduleLock p task)) :
    Attended workers (next s (.scheduleLock p task)) := by
  obtain ⟨quiet, -, -⟩ := available
  by_cases empty : s.tasks = []
  · refine attended_of_announces (p := p) (.inl ?_)
    simp [next, pushTask, empty]
  · have unannounced : (pushTask task s.tasks).1 = false := by simp [pushTask, empty]
    simp only [next, unannounced]
    refine Attended.notify (fun other queued exposed => ?_) (State.not_announces quiet)
    by_cases carries : task.nonempty = true
    · have grown : other ∈ s.tasks ++ [task] := by simpa [pushTask, carries] using queued
      rcases List.mem_append.mp grown with old | new
      · exact attended other old exposed
      · obtain rfl := List.mem_singleton.mp new
        exact safe empty carries exposed
    · exact attended other (by simpa [pushTask, carries] using queued) exposed

theorem Attended.test (attended : Attended workers s) {p : Tid} {push : Bool}
    (counted : s.idleThreadCount = census workers Phase.idle s.phase)
    (available : guard workers s (.hasIdleThreads p push))
    (safe : WakeSafe workers s (.hasIdleThreads p push)) :
    Attended workers (next s (.hasIdleThreads p push)) := by
  have stands : s.notice p = .due push := available
  cases push with
  | false =>
    refine Attended.notify attended ?_
    simp [State.announces, stands]
  | true =>
    by_cases none : s.idleThreadCount = 0
    · intro other queued exposed
      obtain ⟨w, member, may, resting⟩ := exposed
      have window := retiring_of_rests counted none member resting
      rcases safe none other queued w member window may with search | unread | ⟨q, ne, announces⟩
      · exact .inl search
      · exact .inr (.inl unread)
      · refine .inr (.inr ⟨q, ?_⟩)
        simpa [next, State.announces, ne] using announces
    · refine attended_of_announces (p := p) (.inr ?_)
      simp [next, Nat.pos_of_ne_zero none]

theorem Attended.scan (attended : Attended workers s)
    (available : guard workers s (.scan w)) : Attended workers (next s (.scan w)) := by
  obtain ⟨-, quiet, stands⟩ := available
  have silent := State.not_announces quiet
  simp only [next]
  split
  case h_1 found =>
    refine Attended.notify (attended.goto (fun task queued may => ?_) fun task queued may => ?_)
      silent <;>
    · rw [not_runnable_of_scan_none found queued] at may
      cases may
  case h_2 task found =>
    split
    · refine Attended.notify (Attended.goto ?_ (fun _ _ _ resting => by cases resting)
        fun _ _ _ _ => rfl) silent
      exact attended.sublist fun task mem => mem_of_mem_scan_tasks mem
    · exact attended

theorem attended_drain (safe : WakeSafe workers s (.drain w)) :
    Attended workers (next s (.drain w)) := by
  intro task queued exposed
  have before : s.exposed workers task :=
    State.exposed_of_goto (s := { s with unread := 0 }) (fun _ resting => by cases resting) exposed
  rcases safe task queued before with search | announced
  · exact .inl (State.searched_goto (s := { s with unread := 0 }) (fun _ _ => rfl) search)
  · exact .inr (.inr announced)

/-- Every step that is safe keeps all tasks attended. -/
theorem Attended.next (attended : Attended workers s)
    (counted : s.idleThreadCount = census workers Phase.idle s.phase)
    (available : guard workers s a) (safe : WakeSafe workers s a) :
    Attended workers (Scheduler.next s a) := by
  cases a with
  | scheduleLock p task => exact attended.push available safe
  | hasIdleThreads p push => exact attended.test counted available safe
  | scan w => exact attended.scan available
  | drain w => exact attended_drain safe
  | tickle p => exact attended.notify (State.not_announces available.1)
  | writePipe p push => exact fun _ _ _ => .inr (.inl (Nat.succ_pos _))
  | construct p f | stop p => exact attended
  | resume w f | yield w f =>
    simp only [guard] at available
    simp only [Scheduler.next]
    split
    all_goals first
      | exact attended
      | exact Attended.goto attended (by simp [Phase.rests]) (by simp [Phase.searches])
  | checkState w f | checkStopping w quiet =>
    simp only [guard] at available
    simp only [Scheduler.next]
    split <;>
    exact Attended.goto attended (by simp [available, Phase.rests])
      (by simp [available, Phase.searches])
  | _ =>
    simp only [guard] at available
    exact Attended.goto attended (by simp [available, Phase.rests])
      (by simp [available, Phase.searches])

/-- No wake-up is lost in a run whose pushes, tests of `hasIdleThreads` and drains
are safe where they happen. -/
theorem attended_of_reaches (reached : (machine workers).Reaches (WakeSafe workers) s) :
    Attended workers s := by
  refine reached.invariant_of (J := fun s => s.idleThreadCount = census workers Phase.idle s.phase)
    (fun s prior => idle_of_reachable prior.reachable) (fun s starts task queued => ?_)
    fun s a counted attended available safe => ?_
  · obtain rfl : s = State.initial := starts
    exact absurd queued List.not_mem_nil
  · exact attended.next counted available.2 safe

theorem noLostWakeUp_of_reaches (reached : (machine workers).Reaches (WakeSafe workers) s) :
    NoLostWakeUp workers s :=
  (attended_of_reaches reached).noLostWakeUp

/-! ### Without pinned tasks -/

/-- No push is pinned, and no test of `hasIdleThreads` falls between the scan of
the last searching worker and its `++m_idleThreadCount`. -/
def UnpinnedSafe (workers : Finset Tid) (s : State Tid Fib Cb) : Move Tid Fib Cb → Prop
  | .scheduleLock _ task => task.thread = none
  | .hasIdleThreads p push => WakeSafe workers s (.hasIdleThreads p push)
  | _ => True

omit [DecidableEq Fib] in
theorem runnable_of_unpinned (unpinned : task.thread = none) : task.runnable w = true := by
  rw [ScheduleTask.runnable_iff, unpinned]
  exact nofun

omit [DecidableEq Fib] in
/-- Whoever covers one unpinned task covers them all. -/
theorem covered_of_unpinned {other : ScheduleTask Tid Fib Cb} (unpinned : task.thread = none)
    (covered : s.covered workers other) : s.covered workers task := by
  rcases covered with ⟨v, member, -, searching⟩ | rest
  · exact .inl ⟨v, member, runnable_of_unpinned unpinned, searching⟩
  · exact .inr rest

omit [DecidableEq Fib] in
/-- If all tasks are unpinned, pushes to a queue that is not empty and drains are
safe by themselves. -/
theorem Attended.wakeSafe_of_unpinned (attended : Attended workers s)
    (unpinned : ∀ task ∈ s.tasks, task.thread = none) (available : guard workers s a)
    (safe : UnpinnedSafe workers s a) : WakeSafe workers s a := by
  cases a with
  | scheduleLock p task =>
    intro queued _ exposed
    obtain ⟨first, waits⟩ := List.exists_mem_of_ne_nil s.tasks queued
    obtain ⟨w, member, -, resting⟩ := exposed
    have may : first.runnable w = true := runnable_of_unpinned (unpinned first waits)
    exact covered_of_unpinned safe (attended first waits ⟨w, member, may, resting⟩)
  | hasIdleThreads p push => exact safe
  | drain w =>
    obtain ⟨member, -, stands⟩ := available
    intro task queued _
    exact .inl ⟨w, member, runnable_of_unpinned (unpinned task queued), by rw [stands]; rfl⟩
  | _ => trivial

/-- Without pinned tasks only the test of `hasIdleThreads` can lose a wake-up. -/
theorem attended_of_unpinned (reached : (machine workers).Reaches (UnpinnedSafe workers) s) :
    (∀ task ∈ s.tasks, task.thread = none) ∧ Attended workers s := by
  refine reached.invariant_of (J := fun s => s.idleThreadCount = census workers Phase.idle s.phase)
    (I := fun s => (∀ task ∈ s.tasks, task.thread = none) ∧ Attended workers s)
    (fun s prior => idle_of_reachable prior.reachable) (fun s starts => ?_)
    fun s a counted holds available safe => ?_
  · obtain rfl : s = State.initial := starts
    exact ⟨fun task queued => absurd queued List.not_mem_nil,
      fun task queued => absurd queued List.not_mem_nil⟩
  · obtain ⟨unpinned, attended⟩ := holds
    refine ⟨fun task queued => ?_, attended.next counted available.2
      (attended.wakeSafe_of_unpinned unpinned available.2 safe)⟩
    rcases mem_tasks_next queued with old | ⟨p, rfl, -⟩
    · exact unpinned task old
    · exact safe

theorem noLostWakeUp_of_unpinned
    (reached : (machine workers).Reaches (UnpinnedSafe workers) s) : NoLostWakeUp workers s :=
  (attended_of_unpinned reached).2.noLostWakeUp

/-! ### Two runs -/

/-- The only worker blocks before the push, which finds it idle. -/
def pushAfterIdle : List (Move (Fin 2) ℕ ℕ) :=
  [.startRun 0, .scan 0, .enterIdle 0, .checkStopping 0 false, .computeTimeout 0, .epollWait 0,
    .scheduleLock 1 ⟨none, some 7, none⟩, .hasIdleThreads 1 true, .writePipe 1 true]

theorem noLostWakeUp_pushAfterIdle :
    let s := (machine {0}).after State.initial pushAfterIdle
    s.phase 0 = .blocked ∧ s.tasks ≠ [] ∧ NoLostWakeUp {0} s :=
  ⟨by decide, by decide,
    noLostWakeUp_of_reaches (Machine.Reaches.follow (.start rfl) (by decide))⟩

/-- The only worker has scanned the empty queue; the push finds `m_idleThreadCount`
still zero; the worker goes to sleep over the task. -/
def pushBeforeIdle : List (Move (Fin 2) ℕ ℕ) :=
  [.startRun 0, .scan 0, .scheduleLock 1 ⟨none, some 7, none⟩, .hasIdleThreads 1 true,
    .enterIdle 0, .checkStopping 0 false, .computeTimeout 0, .epollWait 0]

theorem lost_wakeUp :
    ¬ ∀ s : State (Fin 2) ℕ ℕ, (machine {0}).Reachable s → NoLostWakeUp {0} s := by
  intro never
  have kept := never _ (Machine.reachable_after rfl (by decide) :
    (machine {0}).Reachable ((machine {0}).after State.initial pushBeforeIdle))
  revert kept
  decide

end CoroutineService.Scheduler
