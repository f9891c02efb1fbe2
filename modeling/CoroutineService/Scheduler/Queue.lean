import CoroutineService.Transition.Dispatch

/-!
# The task queue of the scheduler

`Scheduler::scheduleLock` appends a task under `m_mutex`; the first half of each
round of `Scheduler::run` walks the queue under the same mutex and takes the
first task that is not pinned to another thread.

## Main definitions

* `ScheduleTask`: a fiber or a callback, with the thread it is pinned to
* `pushTask`: the locked section of `scheduleLock`
* `scan`: the locked section of `run`

## Main results

* `scan_task`, `scan_tasks`: the walk finds and removes the first runnable task
* `scan_tickleMe_iff`: the worker relays a wake-up unless it emptied the queue
-/

set_option autoImplicit false

namespace CoroutineService.Scheduler

variable {Tid Fib Cb : Type*} [DecidableEq Tid]

/-- `Scheduler::ScheduleTask`. A null `fiber` or `cb` is `none`, and so is the
thread id `-1` that leaves the task unpinned. -/
structure ScheduleTask (Tid Fib Cb : Type*) where
  fiber : Option Fib
  cb : Option Cb
  thread : Option Tid
  deriving DecidableEq, Repr

namespace ScheduleTask

/-- The task carries work: `task.fiber || task.cb`. -/
def nonempty (task : ScheduleTask Tid Fib Cb) : Bool := task.fiber.isSome || task.cb.isSome

/-- The task is not passed over by the thread `id`: the negation of
`it->thread != -1 && it->thread != thread_id`. -/
def runnable (id : Tid) (task : ScheduleTask Tid Fib Cb) : Bool :=
  match task.thread with
  | none => true
  | some pinned => pinned = id

theorem runnable_iff {id : Tid} {task : ScheduleTask Tid Fib Cb} :
    task.runnable id = true ↔ ∀ pinned, task.thread = some pinned → pinned = id := by
  cases task with
  | mk fiber cb thread => cases thread <;> simp [runnable]

end ScheduleTask

/-- The locked section of `scheduleLock`: an empty task is dropped. The flag is
`need_tickle`, read before the push. -/
def pushTask (task : ScheduleTask Tid Fib Cb) (tasks : List (ScheduleTask Tid Fib Cb)) :
    Bool × List (ScheduleTask Tid Fib Cb) :=
  (tasks.isEmpty, if task.nonempty then tasks ++ [task] else tasks)

/-- What one walk over the queue yields: `tickle_me`, the task taken and the
queue left behind. -/
structure Scan (Tid Fib Cb : Type*) where
  tickleMe : Bool
  task : Option (ScheduleTask Tid Fib Cb)
  tasks : List (ScheduleTask Tid Fib Cb)
  deriving DecidableEq

/-- The locked section of `run` from the iterator on, with the `tickle_me`
gathered so far. After `erase` the iterator stands on the successor, so the
final `it != m_tasks.end()` holds when tasks follow the one taken. -/
def scanFrom (id : Tid) : List (ScheduleTask Tid Fib Cb) → Bool → Scan Tid Fib Cb
  | [], tickleMe => ⟨tickleMe, none, []⟩
  | task :: rest, tickleMe =>
    if task.runnable id then ⟨tickleMe || !rest.isEmpty, some task, rest⟩
    else
      let later := scanFrom id rest true
      { later with tasks := task :: later.tasks }

/-- The locked section of `run`. -/
def scan (id : Tid) (tasks : List (ScheduleTask Tid Fib Cb)) : Scan Tid Fib Cb :=
  scanFrom id tasks false

variable {id : Tid} {tasks : List (ScheduleTask Tid Fib Cb)} {tickleMe : Bool}

theorem scanFrom_task :
    (scanFrom id tasks tickleMe).task = tasks.find? (·.runnable id) := by
  induction tasks generalizing tickleMe with
  | nil => rfl
  | cons task rest ih =>
    by_cases takes : task.runnable id = true <;> simp [scanFrom, takes, ih]

theorem scanFrom_tasks :
    (scanFrom id tasks tickleMe).tasks = tasks.eraseP (·.runnable id) := by
  induction tasks generalizing tickleMe with
  | nil => rfl
  | cons task rest ih =>
    by_cases takes : task.runnable id = true <;> simp [scanFrom, takes, ih]

theorem scanFrom_tickleMe :
    (scanFrom id tasks tickleMe).tickleMe =
      (tickleMe || !(tasks.eraseP (·.runnable id)).isEmpty) := by
  induction tasks generalizing tickleMe with
  | nil => simp [scanFrom]
  | cons task rest ih =>
    by_cases takes : task.runnable id = true <;> simp [scanFrom, takes, ih]

/-- The walk takes the first runnable task. -/
theorem scan_task : (scan id tasks).task = tasks.find? (·.runnable id) := scanFrom_task

/-- The tasks left behind keep their order. -/
theorem scan_tasks : (scan id tasks).tasks = tasks.eraseP (·.runnable id) := scanFrom_tasks

/-- `tickle_me` is set exactly when the queue is not empty after the walk. -/
theorem scan_tickleMe_iff : (scan id tasks).tickleMe = true ↔ (scan id tasks).tasks ≠ [] := by
  simp [scan, scanFrom_tickleMe, scanFrom_tasks]

theorem mem_of_mem_scan_tasks {task : ScheduleTask Tid Fib Cb}
    (mem : task ∈ (scan id tasks).tasks) : task ∈ tasks := by
  rw [scan_tasks] at mem
  exact List.mem_of_mem_eraseP mem

/-- A worker that finds nothing leaves only tasks pinned to other threads. -/
theorem not_runnable_of_scan_none (found : (scan id tasks).task = none)
    {task : ScheduleTask Tid Fib Cb} (mem : task ∈ tasks) : task.runnable id = false := by
  rw [scan_task] at found
  simpa using List.find?_eq_none.mp found task mem

end CoroutineService.Scheduler
