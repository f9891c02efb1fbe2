import CoroutineService.Scheduler.Machine

/-!
# Task accounting

Every nonempty task pushed is either still queued or was taken by exactly one
worker; workers take the earliest task they may run; and the two thread counters
count what their names say.

The ledger of `Transition.Dispatch` is carried along a run as a ghost record:
`scheduleLock` posts to it, the scan of a worker takes from it. The queue of the
scheduler refines it.
-/

set_option autoImplicit false

namespace CoroutineService.Scheduler

open CoroutineService.Transition

variable {Tid Fib Cb : Type*}

namespace Phase

/-- Between `m_activeThreadCount++` and `m_activeThreadCount--`: the worker has
taken a task and not finished it. -/
def busy : Phase Tid Fib Cb → Bool
  | .dispatching _ | .locked _ | .resuming _ | .switching _ | .inFiber _ | .yielding _
  | .returned _ | .finishing => true
  | _ => false

/-- Between `m_idleThreadCount++` and `m_idleThreadCount--`. -/
def idle : Phase Tid Fib Cb → Bool
  | .idleTop | .arming | .armed | .blocked | .woken _ | .idleReturned => true
  | _ => false

end Phase

variable [DecidableEq Tid] [DecidableEq Fib]
variable {workers : Finset Tid} {s : State Tid Fib Cb} {a : Move Tid Fib Cb}

/-- `m_activeThreadCount` follows the workers into and out of their tasks. -/
theorem active_next (available : guard workers s a)
    (counted : s.activeThreadCount = census workers Phase.busy s.phase) :
    (next s a).activeThreadCount = census workers Phase.busy (next s a).phase := by
  cases a with
  | scan w =>
    obtain ⟨member, -, stands⟩ := available
    have before : Phase.busy (s.phase w) = false := by rw [stands]; rfl
    simp only [next]
    split
    · simp [census_update_same, stands, Phase.busy, counted]
    · split
      · rw [State.notify_phase, State.goto_phase, census_update_enter member before rfl]
        simp [counted]
      · exact counted
  | finish w =>
    obtain ⟨member, stands⟩ := available
    have before : Phase.busy (s.phase w) = true := by rw [stands]; rfl
    simp only [next]
    rw [State.goto_phase, census_update_leave member before rfl]
    simp [counted]
  | resume w f | yield w f | checkState w f | checkStopping w quiet =>
    simp only [guard] at available
    simp only [next]
    split <;> simp [census_update_same, available, Phase.busy, counted]
  | _ =>
    simp only [guard] at available
    simp [next, census_update_same, available, Phase.busy, counted]

/-- `m_idleThreadCount` follows the workers into and out of the idle loop. -/
theorem idle_next (available : guard workers s a)
    (counted : s.idleThreadCount = census workers Phase.idle s.phase) :
    (next s a).idleThreadCount = census workers Phase.idle (next s a).phase := by
  cases a with
  | enterIdle w =>
    obtain ⟨member, -, stands, -⟩ := available
    have before : Phase.idle (s.phase w) = false := by rw [stands]; rfl
    simp only [next]
    rw [State.goto_phase, census_update_enter member before rfl]
    simp [counted]
  | leaveIdle w =>
    obtain ⟨member, stands⟩ := available
    have before : Phase.idle (s.phase w) = true := by rw [stands]; rfl
    simp only [next]
    rw [State.goto_phase, census_update_leave member before rfl]
    simp [counted]
  | resume w f | yield w f | checkState w f | checkStopping w quiet =>
    simp only [guard] at available
    simp only [next]
    split <;> simp [census_update_same, available, Phase.idle, counted]
  | scan w =>
    simp only [guard] at available
    simp only [next]
    split
    · simp [census_update_same, available, Phase.idle, counted]
    · split <;> simp [census_update_same, available, Phase.idle, counted]
  | _ =>
    simp only [guard] at available
    simp [next, census_update_same, available, Phase.idle, counted]

/-! ### The ledger of a run -/

/-- What a step does to the books: nonempty tasks are posted, scans take. -/
def record (_ : State Tid Fib Cb) (a : Move Tid Fib Cb)
    (L : Ledger (ScheduleTask Tid Fib Cb) Tid) : Ledger (ScheduleTask Tid Fib Cb) Tid :=
  match a with
  | .scheduleLock _ task => if task.nonempty then L.post task else L
  | .scan w => L.take ScheduleTask.runnable w
  | _ => L

/-- The two sections that change `m_tasks`. -/
def Move.onQueue : Move Tid Fib Cb → Bool
  | .scheduleLock _ _ | .scan _ => true
  | _ => false

theorem next_tasks_of_other (other : a.onQueue = false) : (next s a).tasks = s.tasks := by
  cases a with
  | scheduleLock p task => exact absurd other Bool.noConfusion
  | scan w => exact absurd other Bool.noConfusion
  | resume w f | yield w f | checkState w f | checkStopping w quiet =>
    simp only [next]
    split <;> rfl
  | _ => rfl

/-- The workers together with the books of their queue. -/
abbrev ledgered (workers : Finset Tid) :
    Machine (State Tid Fib Cb × Ledger (ScheduleTask Tid Fib Cb) Tid) (Move Tid Fib Cb) :=
  (machine workers).observe Ledger.empty record

/-- The books describe the queue: its tasks are the waiting items, all of them
nonempty, and the books are those of a dispatch queue. -/
structure Describes (s : State Tid Fib Cb) (L : Ledger (ScheduleTask Tid Fib Cb) Tid) : Prop where
  queue : s.tasks = L.items
  nonempty : ∀ task ∈ s.tasks, task.nonempty = true
  refines : (dispatchQueue ScheduleTask.runnable).Reachable L

variable {L : Ledger (ScheduleTask Tid Fib Cb) Tid}

omit [DecidableEq Fib] in
/-- A scan that finds something takes it from the queue as the ledger does. -/
theorem Describes.scan_found (described : Describes s L) {w : Tid} {task : ScheduleTask Tid Fib Cb}
    (found : (scan w s.tasks).task = some task) :
    ∃ e, (L.waiting.find? fun e => e.1.runnable w) = some e ∧ e.1 = task := by
  rw [scan_task, described.queue, Ledger.items, List.find?_map] at found
  obtain ⟨e, first, rfl⟩ := Option.map_eq_some_iff.mp found
  exact ⟨e, first, rfl⟩

omit [DecidableEq Fib] in
/-- The assertion of the scan never fails. -/
theorem Describes.found_nonempty (described : Describes s L) {w : Tid}
    {task : ScheduleTask Tid Fib Cb} (found : (scan w s.tasks).task = some task) :
    task.nonempty = true := by
  rw [scan_task] at found
  exact described.nonempty task (List.mem_of_find?_eq_some found)

/-- The queue after a scan is the queue the walk leaves behind. -/
theorem Describes.scan_tasks_next (described : Describes s L) {w : Tid} :
    (next s (.scan w)).tasks = s.tasks.eraseP (·.runnable w) := by
  simp only [next]
  split
  case h_1 found =>
    rw [scan_task] at found
    rw [List.eraseP_of_forall_not fun task mem => List.find?_eq_none.mp found task mem]
    rfl
  case h_2 task found =>
    rw [if_pos (described.found_nonempty found)]
    exact scan_tasks

/-- Each step keeps the books: the queue refines the dispatch queue. -/
theorem Describes.next (described : Describes s L) :
    Describes (next s a) (record s a L) := by
  cases a with
  | scheduleLock p task =>
    by_cases carries : task.nonempty = true
    · refine ⟨?_, fun other mem => ?_, ?_⟩
      · simp [Scheduler.next, record, pushTask, carries, Ledger.items_post, described.queue]
      · have grown : other ∈ s.tasks ++ [task] := by
          simpa [Scheduler.next, pushTask, carries] using mem
        rcases List.mem_append.mp grown with old | new
        · exact described.nonempty other old
        · rwa [List.mem_singleton.mp new]
      · have posts : record s (.scheduleLock p task) L = L.post task := if_pos carries
        rw [posts]
        exact described.refines.move (a := .post task) trivial trivial
    · have drops : record s (.scheduleLock p task) L = L := if_neg carries
      have same : (Scheduler.next s (.scheduleLock p task)).tasks = s.tasks := by
        simp [Scheduler.next, pushTask, carries]
      rw [drops]
      exact ⟨same.trans described.queue, same ▸ described.nonempty, described.refines⟩
  | scan w =>
    refine ⟨?_, fun other mem => ?_, ?_⟩
    · rw [described.scan_tasks_next, described.queue, record, Ledger.items_take]
    · rw [described.scan_tasks_next] at mem
      exact described.nonempty other (List.mem_of_mem_eraseP mem)
    · exact described.refines.move (a := .take w) trivial trivial
  | _ =>
    refine ⟨?_, fun other mem => ?_, described.refines⟩
    · exact (next_tasks_of_other (by rfl)).trans described.queue
    · exact described.nonempty other (by rwa [next_tasks_of_other (by rfl)] at mem)

theorem describes_of_reachable (reached : (ledgered workers).Reachable (s, L)) :
    Describes s L := by
  refine Machine.Reaches.invariant (I := fun p => Describes p.1 p.2) (fun p starts => ?_)
    (fun p a described _ _ => described.next) reached
  obtain ⟨initial, fresh⟩ := starts
  obtain ⟨s, L⟩ := p
  obtain rfl : s = State.initial := initial
  obtain rfl : L = Ledger.empty := fresh
  exact ⟨rfl, fun task mem => absurd mem (List.not_mem_nil), .start rfl⟩

/-- Along every run the counters count the workers. -/
theorem active_of_reachable (reached : (machine workers).Reachable s) :
    s.activeThreadCount = census workers Phase.busy s.phase := by
  refine reached.invariant (I := fun s => s.activeThreadCount = census workers Phase.busy s.phase)
    (fun s starts => ?_) fun s a counted available _ => ?_
  · obtain rfl : s = State.initial := starts
    exact (census_eq_zero_iff.mpr fun w _ => rfl).symm
  · exact active_next available.2 counted

theorem idle_of_reachable (reached : (machine workers).Reachable s) :
    s.idleThreadCount = census workers Phase.idle s.phase := by
  refine reached.invariant (I := fun s => s.idleThreadCount = census workers Phase.idle s.phase)
    (fun s starts => ?_) fun s a counted available _ => ?_
  · obtain rfl : s = State.initial := starts
    exact (census_eq_zero_iff.mpr fun w _ => rfl).symm
  · exact idle_next available.2 counted

/-- `Scheduler::stopping` holds only when no worker is in a task. -/
theorem not_busy_of_stopping (reached : (machine workers).Reachable s)
    (stops : s.stopping = true) {w : Tid} (member : w ∈ workers) :
    (s.phase w).busy = false := by
  have none : s.activeThreadCount = 0 := by
    simp only [State.stopping, Bool.and_eq_true, beq_iff_eq] at stops
    exact stops.2
  rw [active_of_reachable reached] at none
  exact census_eq_zero_iff.mp none w member

/-! ### The account of a run -/

/-- What holds between the scheduler and the books of its run. -/
structure Accounted (workers : Finset Tid) (s : State Tid Fib Cb)
    (L : Ledger (ScheduleTask Tid Fib Cb) Tid) : Prop where
  /-- The queue holds the waiting entries, in posting order. -/
  queue : s.tasks = L.waiting.map Prod.fst
  ordered : L.waiting.Pairwise fun e e' => e.2 < e'.2
  /-- As multisets, the tasks pushed are those queued and those taken. -/
  conserved : (L.posted : Multiset (ScheduleTask Tid Fib Cb)) =
    ↑s.tasks + ↑(L.taken.map fun entry => entry.1.1)
  /-- Each push is queued or was taken once: its stamp occurs once. -/
  once : (L.waiting ++ L.taken.map Prod.fst).Perm L.posted.zipIdx
  /-- A pinned task is taken only by the thread it is pinned to. -/
  pinned : ∀ entry ∈ L.taken, ∀ id, entry.1.1.thread = some id → entry.2 = id
  /-- A worker that takes a task takes the earliest one it may run; the others
  stay queued in their order. -/
  earliest : ∀ w task, (machine workers).enabled s (.scan w) →
    (scan w s.tasks).task = some task →
    ∃ e ∈ L.waiting, e.1 = task ∧ task.runnable w = true ∧
      (∀ e' ∈ L.waiting, e'.1.runnable w = true → e.2 ≤ e'.2) ∧
      (next s (.scan w)).phase w = .dispatching task ∧
      (record s (.scan w) L).taken = L.taken ++ [(e, w)] ∧
      (record s (.scan w) L).waiting = L.waiting.filter fun e' => e'.2 ≠ e.2
  active : s.activeThreadCount = (workers.filter fun w => (s.phase w).busy).card
  stopped : s.stopping = true → ∀ w ∈ workers, (s.phase w).busy = false

/-- Stamps forgotten, the entries of the books are the posted items. -/
theorem Ledger.posted_eq {T W : Type*} {L : Ledger T W}
    (stamped : (L.waiting ++ L.taken.map Prod.fst).Perm L.posted.zipIdx) :
    (L.posted : Multiset T) = ↑L.items + ↑(L.taken.map fun entry => entry.1.1) := by
  have unstamped := (stamped.map Prod.fst).symm
  rw [List.zipIdx_map_fst, List.map_append, List.map_map] at unstamped
  exact Multiset.coe_eq_coe.mpr unstamped

/-- Tasks are conserved and dispatched in order, and the counter of active
threads is exact, in every state of every run. -/
theorem accounted_of_reachable (reached : (ledgered workers).Reachable (s, L)) :
    Accounted workers s L := by
  have described := describes_of_reachable reached
  have balanced := balanced_of_reachable described.refines
  have ran : (machine workers).Reachable s := reached.reachable_of_observe
  refine ⟨described.queue, balanced.ordered, ?_, balanced.conserved, ?_, ?_,
    active_of_reachable ran, fun stops w member => not_busy_of_stopping ran stops member⟩
  · rw [described.queue]
    exact Ledger.posted_eq balanced.conserved
  · intro entry mem id pin
    exact (ScheduleTask.runnable_iff.mp (balanced.entitled entry mem) id pin).symm
  · intro w task available found
    obtain ⟨e, first, rfl⟩ := described.scan_found found
    obtain ⟨waits, entitled, earliest, others⟩ := balanced.take_earliest first
    refine ⟨e, waits, rfl, entitled, earliest, ?_, ?_, others⟩
    · simp [next, found, described.found_nonempty found]
    · simp [record, Ledger.take, first]

/-- A thread outside the pool pushes a fiber pinned to worker 1 and a callback;
worker 0 passes over the fiber and takes the callback. -/
def passOver : List (Move ℕ ℕ ℕ) :=
  [.construct 2 0, .scheduleLock 2 ⟨some 0, none, some 1⟩, .hasIdleThreads 2 true,
    .scheduleLock 2 ⟨none, some 7, none⟩, .startRun 0, .scan 0]

theorem accounted_passOver :
    let p := (ledgered {0, 1}).after (State.initial, Ledger.empty) passOver
    p.2.waiting = [(⟨some 0, none, some 1⟩, 0)] ∧
      p.2.taken = [((⟨none, some 7, none⟩, 1), 0)] ∧ Accounted {0, 1} p.1 p.2 :=
  ⟨by decide, by decide,
    accounted_of_reachable (Machine.reachable_after ⟨rfl, rfl⟩ (by decide))⟩

end CoroutineService.Scheduler
