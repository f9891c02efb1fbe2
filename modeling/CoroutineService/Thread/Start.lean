import CoroutineService.Thread.Semaphore

/-!
# Starting the threads of a scheduler

`Scheduler::start` constructs its threads one after the other while it holds `m_mutex`. The
constructor of `Thread` creates the thread and waits on the semaphore of the object; the new
thread notes its id in the object, takes the callback out of it, signals, and calls the callback,
which is `Scheduler::run` and soon wants `m_mutex` itself. When the constructor has returned, the
id is read and noted. Under `use_caller` the constructor of the scheduler has noted the id of its own
thread before, and a scheduler that has been stopped constructs none.

## Main definitions

* `Thread`: a `Thread` object with the thread that runs on it
* `machine`: the starting thread and all new threads
* `Begun`: the objects are as `start` has left them, and the ids are noted

## Main results

* `Agree.pass`: `wait` passes when the new thread is behind its `signal`
* `begun_of_reachable`: the invariant holds along every run
-/

set_option autoImplicit false

namespace CoroutineService.ThreadStart

open CoroutineService.Transition
open CoroutineService.Semaphore (Guarded)

/-- The two threads that use the semaphore of a `Thread` object. -/
inductive Party
  | starter
  | worker
  deriving DecidableEq, Repr

instance : Fintype Party := ⟨{.starter, .worker}, fun p => by cases p <;> simp⟩

/-- Where a new thread stands in `Thread::run`. -/
inductive Stage
  -- `pthread_create` has not been called.
  | unborn
  | born
  -- `t_thread`, `t_thread_name`, `m_id` and the thread's name are set.
  | identified
  -- The callback has been swapped out of the object.
  | taken
  -- `m_semaphore.signal()` has been called.
  | announced
  -- `cb()` has been called: `Scheduler::run`, before its first lock on `m_mutex`.
  | running
  -- Has had `m_mutex`.
  | scanning
  deriving DecidableEq, Repr

/-- A `Thread` object, and the local data of the thread on it. -/
structure Thread (Cb : Type*) where
  mId : ℤ
  mCb : Option Cb
  semaphore : Semaphore.State Party
  stage : Stage
  -- `t_thread_name`, and the name given to the kernel.
  tName : List Char
  kernelName : List Char
  -- The local `cb` of `Thread::run`.
  cb : Option Cb

/-- Where the starting thread stands. -/
inductive Post
  -- About to construct the thread `k`, or behind the loop.
  | constructing (k : ℕ)
  -- In the constructor of the thread `k`, on its semaphore.
  | waiting (k : ℕ)
  -- `pthread_create` has failed for the thread `k`, and the constructor has thrown.
  | thrown (k : ℕ)
  -- `m_stopping` was set, and `start` has returned.
  | refused
  deriving DecidableEq, Repr

/-- What `start` works with: how many threads, the ids the kernel gives them, their names, and
the callback. The calling thread has its id in `m_threadIds` if it is to work as well. -/
structure Order (Cb : Type*) where
  count : ℕ
  pid : ℕ → ℤ
  name : ℕ → List Char
  run : Cb
  rootThread : Option ℤ
  stopping : Bool

/-- The objects, the starting thread and `m_threadIds`. -/
structure State (Cb : Type*) where
  thread : ℕ → Thread Cb
  post : Post
  threadIds : List ℤ

/-- The atomic steps. -/
inductive Move
  -- `pthread_create` succeeds, and `m_semaphore.wait()` is called.
  | create (k : ℕ)
  -- `pthread_create` fails, and the constructor throws.
  | createFails (k : ℕ)
  -- The constructor returns, and `m_threads[k]->getId()` is noted.
  | note (k : ℕ)
  -- `m_id = GetThreadId()` and what stands before the swap.
  | identify (k : ℕ)
  -- `cb.swap(thread->m_cb)`.
  | take (k : ℕ)
  -- `m_semaphore.signal()` is called.
  | announce (k : ℕ)
  -- A step of a call on the semaphore of the thread `k`.
  | semaphore (k : ℕ) (step : Semaphore.Move Party)
  -- `cb()`.
  | call (k : ℕ)
  -- The first section under `m_mutex` in `Scheduler::run`.
  | scan (k : ℕ)
  deriving DecidableEq

variable {Cb : Type*}

/-- `Thread::Thread` before `pthread_create`. -/
def Thread.fresh (cb : Cb) : Thread Cb where
  mId := -1
  mCb := some cb
  semaphore := Semaphore.State.initial 0
  stage := .unborn
  tName := "UNKNOWN".toList
  kernelName := []
  cb := none

namespace State

/-- `start` has locked `m_mutex` and looked at `m_stopping`. -/
def initial (o : Order Cb) : State Cb where
  thread _ := .fresh o.run
  post := if o.stopping then .refused else .constructing 0
  threadIds := o.rootThread.toList

/-- `m_mutex` is free: `start` has returned or thrown. -/
def mutexFree (o : Order Cb) (s : State Cb) : Bool :=
  match s.post with
  | .constructing k => o.count ≤ k
  | .waiting _ => false
  | .thrown _ | .refused => true

/-- Overwrite the thread `k`. -/
def setThread (s : State Cb) (k : ℕ) (t : Thread Cb) : State Cb :=
  { s with thread := Function.update s.thread k t }

end State

/-- Calls of `wait` and `signal` are steps of their own. -/
def calls : Semaphore.Move Party → Bool
  | .wait _ | .signal _ => true
  | _ => false

/-- Where a thread has to stand to take a step. -/
def guard (o : Order Cb) (s : State Cb) : Move → Prop
  | .create k | .createFails k => s.post = .constructing k ∧ k < o.count
  | .note k => s.post = .waiting k ∧ (s.thread k).semaphore.phase .starter = .outside
  | .identify k => (s.thread k).stage = .born
  | .take k => (s.thread k).stage = .identified
  | .announce k => (s.thread k).stage = .taken
  | .semaphore k step =>
    calls step = false ∧ Semaphore.guard Finset.univ (s.thread k).semaphore step
  | .call k =>
    (s.thread k).stage = .announced ∧ (s.thread k).semaphore.phase .worker = .outside
  | .scan k => (s.thread k).stage = .running ∧ s.mutexFree o = true

instance (o : Order Cb) (s : State Cb) (a : Move) : Decidable (guard o s a) := by
  induction a using Move.casesOn <;> (dsimp only [guard]; infer_instance)

/-- What a step of `Thread::Thread` and `Thread::run` does to the thread `k`. -/
def Thread.next (o : Order Cb) (t : Thread Cb) : Move → Thread Cb
  | .create _ =>
    { t with semaphore := Semaphore.next t.semaphore (.wait .starter), stage := .born }
  | .identify k =>
    { t with
      mId := o.pid k
      tName := o.name k
      kernelName := (o.name k).take 15
      stage := .identified }
  | .take _ => { t with cb := t.mCb, mCb := t.cb, stage := .taken }
  | .announce _ =>
    { t with semaphore := Semaphore.next t.semaphore (.signal .worker), stage := .announced }
  | .semaphore _ step => { t with semaphore := Semaphore.next t.semaphore step }
  | .call _ => { t with stage := .running }
  | .scan _ => { t with stage := .scanning }
  | .createFails _ | .note _ => t

/-- The thread a step is about. -/
def Move.subject : Move → ℕ
  | .create k | .createFails k | .note k | .identify k | .take k | .announce k | .semaphore k _
  | .call k | .scan k => k

/-- What a step does. -/
def next (o : Order Cb) (s : State Cb) (a : Move) : State Cb :=
  let moved := s.setThread a.subject ((s.thread a.subject).next o a)
  match a with
  | .create k => { moved with post := .waiting k }
  | .createFails k => { moved with post := .thrown k }
  | .note k =>
    { moved with
      post := .constructing (k + 1)
      threadIds := s.threadIds ++ [(s.thread k).mId] }
  | _ => moved

/-- `Scheduler::start` together with the threads it starts. -/
def machine (o : Order Cb) : Machine (State Cb) Move where
  init s := s = State.initial o
  enabled := guard o
  next := next o

instance (o : Order Cb) (s : State Cb) (a : Move) : Decidable ((machine o).enabled s a) :=
  inferInstanceAs (Decidable (guard o s a))

/-- All steps but the wake-ups for no reason. -/
def Move.driven : Move → Bool
  | .semaphore _ step => step.inCall
  | _ => true

/-- How many threads have been constructed. -/
def Post.index : Post → ℕ
  | .constructing k | .waiting k | .thrown k => k
  | .refused => 0

/-! ### One thread -/

/-- How far `start` has got with a thread. -/
inductive Visit
  | ahead
  | inside
  | behind
  deriving DecidableEq, Repr

/-- Where `start` is, seen from the thread `k`. -/
def Post.visit (k : ℕ) : Post → Visit
  | .constructing j | .thrown j => if k < j then .behind else .ahead
  | .waiting j => if k < j then .behind else if k = j then .inside else .ahead
  | .refused => .ahead

/-- A phase of `wait`. -/
def inWait : Semaphore.Phase → Bool
  | .outside | .waiting | .testing | .asleep | .woken | .passing => true
  | _ => false

/-- A phase of `signal`. -/
def inSignal : Semaphore.Phase → Bool
  | .outside | .signalling | .raising | .notifying | .leaving => true
  | _ => false

/-- The counter has been raised, by a thread in this stage and phase. -/
def raised (stage : Stage) (worker : Semaphore.Phase) : Bool :=
  match stage with
  | .announced =>
    match worker with
    | .notifying | .leaving | .outside => true
    | _ => false
  | .running | .scanning => true
  | _ => false

/-- `wait` has passed. -/
def passed (v : Visit) (starter : Semaphore.Phase) : Bool :=
  match v with
  | .ahead => false
  | .inside =>
    match starter with
    | .passing | .outside => true
    | _ => false
  | .behind => true

/-- `m_id` has been written. -/
def Stage.known : Stage → Bool
  | .unborn | .born => false
  | _ => true

/-- The callback has left the object. -/
def Stage.emptied : Stage → Bool
  | .unborn | .born | .identified => false
  | _ => true

/-- The stage of the new thread, how far `start` has got with it, and where the two stand on the
semaphore, whose counter is the balance. -/
structure Agree (v : Visit) (stage : Stage) (starter worker : Semaphore.Phase) (count : ℤ) :
    Prop where
  waits : inWait starter = true
  away : v ≠ .inside → starter = .outside
  signals : inSignal worker = true
  silent : stage ≠ .announced → worker = .outside
  unborn : stage = .unborn ↔ v = .ahead
  balance : count + (passed v starter).toNat = (raised stage worker).toNat
  settled : passed v starter = true → raised stage worker = true ∧ worker = .outside

section Agree

variable {v : Visit} {stage : Stage} {starter worker : Semaphore.Phase} {count : ℤ}

/-- `start` is in the constructor of the thread while it is in the call of `wait`. -/
theorem Agree.inside (agree : Agree v stage starter worker count) (calls : starter ≠ .outside) :
    v = .inside := by
  by_contra outside
  exact calls (agree.away outside)

/-- The new thread has announced itself while it is in the call of `signal`. -/
theorem Agree.announced (agree : Agree v stage starter worker count) (calls : worker ≠ .outside) :
    stage = .announced := by
  by_contra other
  exact calls (agree.silent other)

theorem Agree.create (agree : Agree .ahead stage starter worker count) :
    Agree .inside .born .waiting worker count := by
  obtain rfl : stage = .unborn := agree.unborn.mpr rfl
  obtain rfl : worker = .outside := agree.silent (by decide)
  have balance := agree.balance
  exact ⟨rfl, nofun, rfl, fun _ => rfl, by simp, by simpa [passed, raised] using balance,
    by simp [passed]⟩

/-- The new thread goes on before its signal, or behind it. -/
theorem Agree.proceed (agree : Agree v stage starter worker count) (outside : worker = .outside)
    {stage' : Stage} (born : stage ≠ .unborn) (alive : stage' ≠ .unborn)
    (same : raised stage' .outside = raised stage .outside) :
    Agree v stage' starter worker count := by
  subst outside
  have visited : v ≠ .ahead := fun ahead => born (agree.unborn.mpr ahead)
  refine ⟨agree.waits, agree.away, rfl, fun _ => rfl, by simp [alive, visited], ?_, ?_⟩
  · rw [same]
    exact agree.balance
  · rw [same]
    exact agree.settled

theorem Agree.announce (agree : Agree v .taken starter worker count) :
    Agree v .announced starter .signalling count := by
  have visited : v ≠ .ahead := fun ahead => by cases agree.unborn.mpr ahead
  have unpassed : passed v starter = false := by
    by_contra through
    have raised := (agree.settled (by simpa using through)).1
    simp [ThreadStart.raised] at raised
  have balance := agree.balance
  simp only [unpassed, raised] at balance
  exact ⟨agree.waits, agree.away, rfl, by simp, by simp [visited],
    by simpa [unpassed, raised] using balance, by simp [unpassed]⟩

/-- The constructor returns. -/
theorem Agree.leave (agree : Agree .inside stage .outside worker count) :
    Agree .behind stage .outside worker count := by
  have born : stage ≠ .unborn := fun unborn => by cases agree.unborn.mp unborn
  refine ⟨rfl, fun _ => rfl, agree.signals, agree.silent, by simp [born], ?_, fun _ => ?_⟩
  · simpa [passed] using agree.balance
  · exact agree.settled rfl

/-- A step of `wait` that does not pass, or one behind it. -/
theorem Agree.waiting (agree : Agree v stage starter worker count) (calls : starter ≠ .outside)
    {starter' : Semaphore.Phase} (waits : inWait starter' = true)
    (same : passed .inside starter' = passed .inside starter) :
    Agree v stage starter' worker count := by
  obtain rfl := agree.inside calls
  refine ⟨waits, by simp, agree.signals, agree.silent, agree.unborn, ?_, ?_⟩
  · rw [same]
    exact agree.balance
  · rw [same]
    exact agree.settled

/-- A step of `signal` that does not touch the counter. -/
theorem Agree.signalling (agree : Agree v stage starter worker count) (calls : worker ≠ .outside)
    {worker' : Semaphore.Phase} (signals : inSignal worker' = true)
    (same : raised .announced worker' = raised .announced worker) :
    Agree v stage starter worker' count := by
  obtain rfl := agree.announced calls
  refine ⟨agree.waits, agree.away, signals, by simp, agree.unborn, ?_, fun through => ?_⟩
  · rw [same]
    exact agree.balance
  · exact absurd (agree.settled through).2 calls

theorem Agree.raise (agree : Agree v stage starter .raising count) :
    Agree v stage starter .notifying (count + 1) := by
  obtain rfl := agree.announced (by decide)
  have unpassed : passed v starter = false := by
    by_contra through
    have outside := (agree.settled (by simpa using through)).2
    cases outside
  have balance := agree.balance
  simp only [unpassed, raised] at balance
  refine ⟨agree.waits, agree.away, rfl, by simp, agree.unborn, ?_, by simp [unpassed]⟩
  simp only [unpassed, raised]
  simp at balance ⊢
  omega

/-- `wait` passes. The new thread does not hold the mutex, so it is behind its `signal`. -/
theorem Agree.pass (agree : Agree v stage .testing worker count) (positive : count ≠ 0)
    (free : worker.holds = none) : Agree v stage .passing worker (count - 1) := by
  obtain rfl := agree.inside (by decide)
  have balance := agree.balance
  simp only [passed] at balance
  have up : raised stage worker = true := by
    by_contra down
    simp only [Bool.not_eq_true] at down
    simp [down] at balance
    exact positive balance
  have outside : worker = .outside := by
    by_contra calls
    obtain rfl := agree.announced calls
    cases worker <;> simp_all [raised, Semaphore.Phase.holds]
  subst outside
  refine ⟨rfl, by simp, rfl, fun _ => rfl, agree.unborn, ?_, fun _ => ⟨up, rfl⟩⟩
  simp only [up, passed] at balance ⊢
  simp at balance ⊢
  omega

end Agree

/-- The object and its thread, when `start` has got so far with it. -/
structure Thread.Fits (o : Order Cb) (k : ℕ) (v : Visit) (t : Thread Cb) : Prop where
  guarded : Guarded Finset.univ t.semaphore
  agree : Agree v t.stage (t.semaphore.phase .starter) (t.semaphore.phase .worker)
    t.semaphore.cell.count
  named : t.mId = if t.stage.known then o.pid k else -1
  callback : t.mCb = (if t.stage.emptied then none else some o.run) ∧
    t.cb = if t.stage.emptied then some o.run else none

namespace Thread.Fits

variable {o : Order Cb} {s : State Cb} {a : Move} {k : ℕ} {v : Visit} {t : Thread Cb}

theorem start (o : Order Cb) (k : ℕ) : Fits o k .ahead (.fresh o.run) where
  guarded := Semaphore.guarded_initial (Int.le_refl 0)
  agree := ⟨rfl, fun _ => rfl, rfl, fun _ => rfl, by simp [Thread.fresh], rfl, by simp [passed]⟩
  named := rfl
  callback := ⟨rfl, rfl⟩

theorem create (fits : Fits o k .ahead t) : Fits o k .inside (t.next o (.create k)) where
  guarded := by
    have available : Semaphore.guard Finset.univ t.semaphore (.wait .starter) :=
      ⟨Finset.mem_univ Party.starter, fits.agree.away (by decide)⟩
    exact fits.guarded.next available
  agree := by
    have agree := fits.agree.create
    simpa [Thread.next, Semaphore.next] using agree
  named := by
    have named := fits.named
    rwa [fits.agree.unborn.mpr rfl] at named
  callback := by
    have callback := fits.callback
    rwa [fits.agree.unborn.mpr rfl] at callback

theorem identify (fits : Fits o k v t) (stands : t.stage = .born) :
    Fits o k v (t.next o (.identify k)) where
  guarded := fits.guarded
  agree := by
    have outside := fits.agree.silent (by simp [stands])
    have onward : Agree v .identified (t.semaphore.phase .starter) (t.semaphore.phase .worker)
        t.semaphore.cell.count :=
      fits.agree.proceed outside (by simp [stands]) (by decide) (by simp [stands, raised])
    exact onward
  named := rfl
  callback := by
    have callback := fits.callback
    rwa [stands] at callback

theorem take (fits : Fits o k v t) (stands : t.stage = .identified) :
    Fits o k v (t.next o (.take k)) where
  guarded := fits.guarded
  agree := by
    have outside := fits.agree.silent (by simp [stands])
    have onward : Agree v .taken (t.semaphore.phase .starter) (t.semaphore.phase .worker)
        t.semaphore.cell.count :=
      fits.agree.proceed outside (by simp [stands]) (by decide) (by simp [stands, raised])
    exact onward
  named := by
    have named := fits.named
    rwa [stands] at named
  callback := by
    have callback := fits.callback
    rw [stands] at callback
    exact ⟨callback.2, callback.1⟩

theorem announce (fits : Fits o k v t) (stands : t.stage = .taken) :
    Fits o k v (t.next o (.announce k)) where
  guarded := by
    have available : Semaphore.guard Finset.univ t.semaphore (.signal .worker) :=
      ⟨Finset.mem_univ Party.worker, fits.agree.silent (by simp [stands])⟩
    exact fits.guarded.next available
  agree := by
    have agree := fits.agree
    rw [stands] at agree
    simpa [Thread.next, Semaphore.next] using agree.announce
  named := by
    have named := fits.named
    rwa [stands] at named
  callback := by
    have callback := fits.callback
    rwa [stands] at callback

theorem call (fits : Fits o k v t) (stands : t.stage = .announced)
    (outside : t.semaphore.phase .worker = .outside) : Fits o k v (t.next o (.call k)) where
  guarded := fits.guarded
  agree := by
    have onward : Agree v .running (t.semaphore.phase .starter) (t.semaphore.phase .worker)
        t.semaphore.cell.count :=
      fits.agree.proceed outside (by simp [stands]) (by decide) (by simp [stands, raised])
    exact onward
  named := by
    have named := fits.named
    rwa [stands] at named
  callback := by
    have callback := fits.callback
    rwa [stands] at callback

theorem scan (fits : Fits o k v t) (stands : t.stage = .running) :
    Fits o k v (t.next o (.scan k)) where
  guarded := fits.guarded
  agree := by
    have outside := fits.agree.silent (by simp [stands])
    have onward : Agree v .scanning (t.semaphore.phase .starter) (t.semaphore.phase .worker)
        t.semaphore.cell.count :=
      fits.agree.proceed outside (by simp [stands]) (by decide) (by simp [stands, raised])
    exact onward
  named := by
    have named := fits.named
    rwa [stands] at named
  callback := by
    have callback := fits.callback
    rwa [stands] at callback

/-- The constructor returns. -/
theorem note (fits : Fits o k .inside t) (outside : t.semaphore.phase .starter = .outside) :
    Fits o k .behind t := by
  have agree := fits.agree
  rw [outside] at agree
  exact { fits with agree := outside ▸ agree.leave }

/-- The starting thread locks the mutex, for the first time or behind a wake-up. -/
theorem agree_lock_starter (fits : Fits o k v t)
    (locks : (t.semaphore.phase .starter).locks = true) :
    (t.semaphore.phase .starter).locked = .testing ∧
      Agree v t.stage .testing (t.semaphore.phase .worker) t.semaphore.cell.count := by
  have agree := fits.agree
  have waits := agree.waits
  cases stands : t.semaphore.phase .starter with
  | waiting | woken =>
    rw [stands] at agree
    exact ⟨rfl, agree.waiting (by decide) rfl rfl⟩
  | signalling => simp [stands, inWait] at waits
  | _ => simp [stands, Semaphore.Phase.locks] at locks

/-- The new thread locks the mutex. -/
theorem agree_lock_worker (fits : Fits o k v t)
    (locks : (t.semaphore.phase .worker).locks = true) :
    (t.semaphore.phase .worker).locked = .raising ∧
      Agree v t.stage (t.semaphore.phase .starter) .raising t.semaphore.cell.count := by
  have agree := fits.agree
  have signals := agree.signals
  cases stands : t.semaphore.phase .worker with
  | signalling =>
    rw [stands] at agree
    exact ⟨rfl, agree.signalling (by decide) rfl rfl⟩
  | waiting | woken => simp [stands, inSignal] at signals
  | _ => simp [stands, Semaphore.Phase.locks] at locks

/-- The starting thread looks at the counter, and passes or falls asleep. -/
theorem agree_test (fits : Fits o k v t) (stands : t.semaphore.phase .starter = .testing) :
    Agree v t.stage ((Semaphore.next t.semaphore (.test .starter)).phase .starter)
      ((Semaphore.next t.semaphore (.test .starter)).phase .worker)
      (Semaphore.next t.semaphore (.test .starter)).cell.count := by
  have agree := fits.agree
  have holding : (t.semaphore.phase .starter).holds = some () := by rw [stands]; rfl
  -- the new thread does not have the mutex
  have free : (t.semaphore.phase .worker).holds = none := by
    by_contra held
    obtain ⟨k, held⟩ := Option.ne_none_iff_exists'.mp held
    cases fits.guarded.kept.unique held holding
  rw [stands] at agree
  simp only [Semaphore.next]
  split
  · have onward : Agree v t.stage .asleep (t.semaphore.phase .worker) t.semaphore.cell.count :=
      agree.waiting (by decide) rfl rfl
    simpa using onward
  · rename_i positive
    simpa using agree.pass positive free

/-- The new thread notifies, and wakes the starting thread if that is asleep. -/
theorem agree_notify (fits : Fits o k v t) (stands : t.semaphore.phase .worker = .notifying)
    (sleeper : Option Party) (asleep : ∀ p ∈ sleeper, t.semaphore.phase p = .asleep) :
    Agree v t.stage ((Semaphore.next t.semaphore (.notify .worker sleeper)).phase .starter)
      ((Semaphore.next t.semaphore (.notify .worker sleeper)).phase .worker)
      (Semaphore.next t.semaphore (.notify .worker sleeper)).cell.count := by
  have agree := fits.agree
  rw [stands] at agree
  have onward : Agree v t.stage (t.semaphore.phase .starter) .leaving t.semaphore.cell.count :=
    agree.signalling (by decide) rfl rfl
  cases sleeper with
  | none => simpa [Semaphore.next] using onward
  | some q =>
    have asleep := asleep q rfl
    cases q with
    | worker => cases stands.symm.trans asleep
    | starter =>
      rw [asleep] at onward
      have woken : Agree v t.stage .woken .leaving t.semaphore.cell.count :=
        onward.waiting (by decide) rfl rfl
      simpa [Semaphore.next] using woken

/-- The call of the starting thread returns. -/
theorem agree_unlock_starter (fits : Fits o k v t)
    (unlocks : (t.semaphore.phase .starter).unlocks = true) :
    Agree v t.stage .outside (t.semaphore.phase .worker) t.semaphore.cell.count := by
  have agree := fits.agree
  have waits := agree.waits
  cases stands : t.semaphore.phase .starter with
  | passing =>
    rw [stands] at agree
    exact agree.waiting (by decide) rfl rfl
  | leaving => simp [stands, inWait] at waits
  | _ => simp [stands, Semaphore.Phase.unlocks] at unlocks

/-- The call of the new thread returns. -/
theorem agree_unlock_worker (fits : Fits o k v t)
    (unlocks : (t.semaphore.phase .worker).unlocks = true) :
    Agree v t.stage (t.semaphore.phase .starter) .outside t.semaphore.cell.count := by
  have agree := fits.agree
  have signals := agree.signals
  cases stands : t.semaphore.phase .worker with
  | leaving =>
    rw [stands] at agree
    exact agree.signalling (by decide) rfl rfl
  | passing => simp [stands, inSignal] at signals
  | _ => simp [stands, Semaphore.Phase.unlocks] at unlocks

/-- A step on the semaphore. -/
theorem agree_next (fits : Fits o k v t) {step : Semaphore.Move Party} (inside : calls step = false)
    (available : Semaphore.guard Finset.univ t.semaphore step) :
    Agree v t.stage ((Semaphore.next t.semaphore step).phase .starter)
      ((Semaphore.next t.semaphore step).phase .worker)
      (Semaphore.next t.semaphore step).cell.count := by
  have agree := fits.agree
  have waits := agree.waits
  have signals := agree.signals
  cases step with
  | wait p | signal p => cases inside
  | lock p =>
    cases p with
    | starter =>
      obtain ⟨locked, onward⟩ := fits.agree_lock_starter available.1
      simpa [Semaphore.next, locked] using onward
    | worker =>
      obtain ⟨locked, onward⟩ := fits.agree_lock_worker available.1
      simpa [Semaphore.next, locked] using onward
  | test p =>
    have stands : t.semaphore.phase p = .testing := available
    cases p with
    | starter => exact fits.agree_test stands
    | worker => simp [stands, inSignal] at signals
  | wake p =>
    have stands : t.semaphore.phase p = .asleep := available
    cases p with
    | worker => simp [stands, inSignal] at signals
    | starter =>
      rw [stands] at agree
      have onward : Agree v t.stage .woken (t.semaphore.phase .worker) t.semaphore.cell.count :=
        agree.waiting (by decide) rfl rfl
      simpa [Semaphore.next] using onward
  | raise p =>
    have stands : t.semaphore.phase p = .raising := available
    cases p with
    | starter => simp [stands, inWait] at waits
    | worker =>
      rw [stands] at agree
      simpa [Semaphore.next] using agree.raise
  | notify p sleeper =>
    have stands : t.semaphore.phase p = .notifying := by
      cases sleeper <;> exact available.1
    cases p with
    | starter => simp [stands, inWait] at waits
    | worker =>
      refine fits.agree_notify stands sleeper fun q mem => ?_
      obtain rfl := Option.mem_def.mp mem
      exact available.2
  | unlock p =>
    cases p with
    | starter => simpa [Semaphore.next] using fits.agree_unlock_starter available
    | worker => simpa [Semaphore.next] using fits.agree_unlock_worker available

theorem semaphore (fits : Fits o k v t) {step : Semaphore.Move Party} (inside : calls step = false)
    (available : Semaphore.guard Finset.univ t.semaphore step) :
    Fits o k v (t.next o (.semaphore k step)) where
  guarded := fits.guarded.next available
  agree := fits.agree_next inside available
  named := fits.named
  callback := fits.callback

end Thread.Fits

/-! ### All threads -/

/-- Every thread is as `start` has left it, and the ids of those constructed are noted. -/
structure Begun (o : Order Cb) (s : State Cb) : Prop where
  fits : ∀ k, (s.thread k).Fits o k (s.post.visit k)
  noted : s.threadIds = o.rootThread.toList ++ (List.range s.post.index).map o.pid
  within : s.post.index ≤ o.count
  entered : ∀ k, s.post = .waiting k ∨ s.post = .thrown k → k < o.count
  refused : s.post = .refused ↔ o.stopping = true

variable {o : Order Cb} {s : State Cb} {a : Move} {k j : ℕ}

theorem visit_waiting_self : (Post.waiting k).visit k = .inside := by simp [Post.visit]

theorem visit_constructing_self : (Post.constructing k).visit k = .ahead := by simp [Post.visit]

theorem visit_create (other : j ≠ k) :
    (Post.waiting k).visit j = (Post.constructing k).visit j := by
  simp [Post.visit, other]

theorem visit_note (other : j ≠ k) :
    (Post.constructing (k + 1)).visit j = (Post.waiting k).visit j := by
  have same : j < k + 1 ↔ j < k := by omega
  simp [Post.visit, other, same]

theorem visit_noted : (Post.constructing (k + 1)).visit k = .behind := by simp [Post.visit]

/-- One thread moves, and `start` stays where it is. -/
theorem Begun.setThread {t : Thread Cb} (begun : Begun o s)
    (fits : t.Fits o k (s.post.visit k)) : Begun o (s.setThread k t) where
  fits j := by
    by_cases same : j = k
    · subst same
      simpa [State.setThread] using fits
    · simpa [State.setThread, same] using begun.fits j
  noted := begun.noted
  within := begun.within
  entered := begun.entered
  refused := begun.refused

/-- A scheduler that starts threads has not been stopped. -/
theorem Begun.running (begun : Begun o s) (starts : s.post ≠ .refused) : o.stopping = false :=
  Bool.eq_false_of_not_eq_true fun stopped => starts (begun.refused.mpr stopped)

theorem Begun.create (begun : Begun o s) (stands : s.post = .constructing k) (within : k < o.count) :
    Begun o (ThreadStart.next o s (.create k)) := by
  have fits := begun.fits k
  rw [stands, visit_constructing_self] at fits
  have running := begun.running (by simp [stands])
  refine ⟨fun j => ?_, ?_, within.le, ?_, by simp [ThreadStart.next, running]⟩
  · by_cases same : j = k
    · subst same
      simpa [ThreadStart.next, State.setThread, Move.subject, visit_waiting_self] using
        fits.create
    · have other := begun.fits j
      rw [stands] at other
      simpa [ThreadStart.next, State.setThread, Move.subject, same, visit_create same] using other
  · have noted := begun.noted
    rw [stands] at noted
    exact noted
  · intro j same
    obtain rfl : k = j := by simpa [ThreadStart.next] using same
    exact within

theorem Begun.createFails (begun : Begun o s) (stands : s.post = .constructing k)
    (within : k < o.count) : Begun o (ThreadStart.next o s (.createFails k)) := by
  have running := begun.running (by simp [stands])
  refine ⟨fun j => ?_, ?_, within.le, ?_, by simp [ThreadStart.next, running]⟩
  · have fits := begun.fits j
    rw [stands, show (Post.constructing k).visit j = (Post.thrown k).visit j from rfl] at fits
    by_cases same : j = k
    · subst same
      simpa [ThreadStart.next, State.setThread, Move.subject, Thread.next] using fits
    · simpa [ThreadStart.next, State.setThread, Move.subject, same] using fits
  · have noted := begun.noted
    rw [stands] at noted
    exact noted
  · intro j same
    obtain rfl : k = j := by simpa [ThreadStart.next] using same
    exact within

/-- The constructor has returned, and the id is noted. -/
theorem Begun.note (begun : Begun o s) (stands : s.post = .waiting k)
    (outside : (s.thread k).semaphore.phase .starter = .outside) :
    Begun o (ThreadStart.next o s (.note k)) := by
  have within := begun.entered k (.inl stands)
  have fits := begun.fits k
  rw [stands, visit_waiting_self] at fits
  -- the new thread has announced itself, and has written its id before
  have known : (s.thread k).stage.known = true := by
    have raised := (fits.agree.settled (by rw [outside]; rfl)).1
    cases stage : (s.thread k).stage <;> simp_all [ThreadStart.raised, Stage.known]
  have named := fits.named
  rw [known] at named
  have running := begun.running (by simp [stands])
  refine ⟨fun j => ?_, ?_, within, by simp [ThreadStart.next],
    by simp [ThreadStart.next, running]⟩
  · by_cases same : j = k
    · subst same
      have left := fits.note outside
      simpa [ThreadStart.next, State.setThread, Move.subject, Thread.next, visit_noted] using left
    · have other := begun.fits j
      rw [stands] at other
      simpa [ThreadStart.next, State.setThread, Move.subject, same, visit_note same] using other
  · have noted := begun.noted
    rw [stands] at noted
    simp [ThreadStart.next, noted, named, Post.index, List.range_succ]

theorem Begun.next (begun : Begun o s) (available : guard o s a) :
    Begun o (ThreadStart.next o s a) := by
  cases a with
  | identify k => exact begun.setThread ((begun.fits k).identify available)
  | take k => exact begun.setThread ((begun.fits k).take available)
  | announce k => exact begun.setThread ((begun.fits k).announce available)
  | semaphore k step => exact begun.setThread ((begun.fits k).semaphore available.1 available.2)
  | call k => exact begun.setThread ((begun.fits k).call available.1 available.2)
  | scan k => exact begun.setThread ((begun.fits k).scan available.1)
  | create k => exact begun.create available.1 available.2
  | createFails k => exact begun.createFails available.1 available.2
  | note k => exact begun.note available.1 available.2

theorem begun_initial (o : Order Cb) : Begun o (State.initial o) where
  fits k := by
    have ahead : (State.initial o).post.visit k = .ahead := by
      unfold State.initial
      cases o.stopping <;> simp [Post.visit]
    rw [ahead]
    exact Thread.Fits.start o k
  noted := by
    unfold State.initial
    cases o.stopping <;> simp [Post.index]
  within := by
    unfold State.initial
    cases o.stopping <;> simp [Post.index]
  entered k post := by
    unfold State.initial at post
    cases stopping : o.stopping <;> simp [stopping] at post
  refused := by
    unfold State.initial
    cases o.stopping <;> simp

theorem begun_of_reachable (reached : (machine o).Reachable s) : Begun o s := by
  refine reached.invariant (fun s starts => ?_) fun s a begun available _ => ?_
  · obtain rfl : s = State.initial o := starts
    exact begun_initial o
  · exact begun.next available

end CoroutineService.ThreadStart
