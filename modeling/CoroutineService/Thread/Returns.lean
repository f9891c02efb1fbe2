import CoroutineService.Thread.Start

/-!
# The start of a scheduler comes to its end

Every step that somebody has to take, all but wake-ups for no reason, lowers the number of steps
that are left, and where no step is left, no thread hangs on a semaphore.

## Main definitions

* `State.rank`: the number of steps that are left
* `Started`: what holds of the ids, the objects and the progress of `start`

## Main results

* `started_of_reachable`: `start` notes the ids of its threads, and always returns
-/

set_option autoImplicit false

namespace CoroutineService.ThreadStart

open CoroutineService.Transition
open CoroutineService.Semaphore (Guarded)

variable {Cb : Type*} {o : Order Cb} {s : State Cb} {a : Move} {k : ℕ}

/-- A thread that has been created is one of those `start` was to create. -/
theorem Begun.lt_of_born (begun : Begun o s) (born : (s.thread k).stage ≠ .unborn) :
    k < o.count := by
  have visited : s.post.visit k ≠ .ahead := fun ahead =>
    born ((begun.fits k).agree.unborn.mpr ahead)
  have within := begun.within
  cases post : s.post with
  | waiting j =>
    have entered := begun.entered j (.inl post)
    simp only [post, Post.visit] at visited
    split at visited
    · omega
    · split at visited
      · omega
      · exact absurd rfl visited
  | constructing j | thrown j =>
    simp only [post, Post.visit] at visited
    simp only [post, Post.index] at within
    split at visited
    · omega
    · exact absurd rfl visited
  | refused =>
    simp only [post, Post.visit] at visited
    exact absurd rfl visited

/-- Where nobody has been, no step of a call can be taken. -/
theorem Thread.Fits.born_of_step {v : Visit} {t : Thread Cb} (fits : t.Fits o k v)
    {step : Semaphore.Move Party} (inside : calls step = false)
    (available : Semaphore.guard Finset.univ t.semaphore step) : t.stage ≠ .unborn := by
  intro unborn
  have starter := fits.agree.away (by rw [fits.agree.unborn.mp unborn]; decide)
  have worker := fits.agree.silent (by simp [unborn])
  have outside : ∀ p, t.semaphore.phase p = .outside := by
    intro p
    cases p with
    | starter => exact starter
    | worker => exact worker
  cases step with
  | wait p | signal p => cases inside
  | notify p sleeper => cases sleeper <;> simp [Semaphore.guard, outside] at available
  | _ =>
    simp [Semaphore.guard, outside, Semaphore.Phase.locks, Semaphore.Phase.unlocks] at available

/-- How many steps are left to a thread outside the semaphore, and to those that are to come from
it, inside. -/
def Stage.rank : Stage → ℕ
  | .unborn => 16
  | .born => 12
  | .identified => 11
  | .taken => 10
  | .announced => 2
  | .running => 1
  | .scanning => 0

/-- The same with the calls under way. -/
def Thread.rank (t : Thread Cb) : ℕ :=
  t.stage.rank + effort Finset.univ Semaphore.Phase.rank t.semaphore.phase

/-- How many threads are left to construct. -/
def Post.rank (count : ℕ) : Post → ℕ
  | .constructing k | .waiting k => count - k
  | .thrown _ | .refused => 0

/-- How many steps are left. -/
def State.rank (o : Order Cb) (s : State Cb) : ℕ :=
  effort (Finset.range o.count) Thread.rank s.thread + s.post.rank o.count

theorem Thread.rank_le (t : Thread Cb) : t.rank ≤ 30 := by
  have calls : effort Finset.univ Semaphore.Phase.rank t.semaphore.phase ≤ 2 * 7 :=
    effort_le Semaphore.Phase.rank_le
  have stage : t.stage.rank ≤ 16 := by cases t.stage <;> simp [Stage.rank]
  simp only [Thread.rank]
  omega

theorem State.rank_le (o : Order Cb) (s : State Cb) : s.rank o ≤ o.count * 31 := by
  have threads : effort (Finset.range o.count) Thread.rank s.thread ≤
      (Finset.range o.count).card * 30 := effort_le Thread.rank_le
  have post : s.post.rank o.count ≤ o.count := by
    cases s.post <;> simp [Post.rank]
  simp only [State.rank, Finset.card_range] at threads ⊢
  omega

/-- The threads a step is about are among those to be constructed. -/
theorem Begun.subject_lt (begun : Begun o s) (available : guard o s a) : a.subject < o.count := by
  cases a with
  | create k | createFails k => exact available.2
  | note k => exact begun.entered k (.inl available.1)
  | identify k | take k | announce k =>
    have stands : (s.thread k).stage = _ := available
    exact begun.lt_of_born (k := k) (by simp [stands])
  | semaphore k step =>
    exact begun.lt_of_born ((begun.fits k).born_of_step available.1 available.2)
  | call k | scan k => exact begun.lt_of_born (k := k) (by simp [available.1])

/-- Where a thread has to stand for a step of its own. -/
def Thread.stands (v : Visit) (t : Thread Cb) : Move → Prop
  | .create _ => v = .ahead
  | .identify _ => t.stage = .born
  | .take _ => t.stage = .identified
  | .announce _ => t.stage = .taken
  | .semaphore _ step => step.inCall = true ∧ Semaphore.guard Finset.univ t.semaphore step
  | .call _ => t.stage = .announced
  | .scan _ => t.stage = .running
  | .createFails _ | .note _ => False

/-- A step of a thread takes effort of that thread. -/
theorem Thread.Fits.rank_next {v : Visit} {t : Thread Cb} (fits : t.Fits o k v)
    (moves : t.stands v a) : (t.next o a).rank < t.rank := by
  cases a with
  | create k =>
    have ahead : v = .ahead := moves
    have stage := fits.agree.unborn.mpr ahead
    have starter := fits.agree.away (by rw [ahead]; decide)
    have calls : effort Finset.univ Semaphore.Phase.rank
          (Function.update t.semaphore.phase Party.starter .waiting) +
        (t.semaphore.phase .starter).rank =
        effort Finset.univ Semaphore.Phase.rank t.semaphore.phase + Semaphore.Phase.rank .waiting :=
      effort_update (Finset.mem_univ _)
    simp only [starter, Semaphore.Phase.rank] at calls
    simp only [Thread.rank, Thread.next, Semaphore.next, Semaphore.State.goto_phase, stage,
      Stage.rank]
    omega
  | announce k =>
    have stands : t.stage = .taken := moves
    have worker := fits.agree.silent (by simp [stands])
    have calls : effort Finset.univ Semaphore.Phase.rank
          (Function.update t.semaphore.phase Party.worker .signalling) +
        (t.semaphore.phase .worker).rank =
        effort Finset.univ Semaphore.Phase.rank t.semaphore.phase +
          Semaphore.Phase.rank .signalling :=
      effort_update (Finset.mem_univ _)
    simp only [worker, Semaphore.Phase.rank] at calls
    simp only [Thread.rank, Thread.next, Semaphore.next, Semaphore.State.goto_phase, stands,
      Stage.rank]
    omega
  | semaphore k step =>
    have dropped := fits.guarded.effort_next moves.2 moves.1
    simp only [Thread.rank, Thread.next]
    omega
  | identify k | take k | call k | scan k =>
    have stands : t.stage = _ := moves
    simp [Thread.rank, Thread.next, stands, Stage.rank]
  | createFails k | note k => exact moves.elim

theorem Begun.rank_next (begun : Begun o s) (available : guard o s a) (driven : a.driven = true) :
    (ThreadStart.next o s a).rank o < s.rank o := by
  have within := begun.subject_lt available
  have fits := begun.fits a.subject
  have exchanged : effort (Finset.range o.count) Thread.rank
        (Function.update s.thread a.subject ((s.thread a.subject).next o a)) +
      (s.thread a.subject).rank =
      effort (Finset.range o.count) Thread.rank s.thread +
        ((s.thread a.subject).next o a).rank :=
    effort_update (Finset.mem_range.mpr within)
  cases a with
  | create k =>
    obtain ⟨stands, -⟩ := available
    rw [stands] at fits
    have lower := fits.rank_next (a := .create k) visit_constructing_self
    simp only [Move.subject] at exchanged lower within
    simp only [State.rank, ThreadStart.next, State.setThread, Move.subject, stands, Post.rank]
    omega
  | createFails k =>
    obtain ⟨stands, -⟩ := available
    simp only [Move.subject, Thread.next] at exchanged within
    simp only [State.rank, ThreadStart.next, State.setThread, Move.subject, stands, Post.rank,
      Thread.next]
    omega
  | note k =>
    obtain ⟨stands, -⟩ := available
    simp only [Move.subject, Thread.next] at exchanged within
    simp only [State.rank, ThreadStart.next, State.setThread, Move.subject, stands, Post.rank,
      Thread.next]
    omega
  | identify k =>
    have lower := fits.rank_next (a := .identify k) available
    simp only [State.rank, ThreadStart.next, State.setThread]
    omega
  | take k =>
    have lower := fits.rank_next (a := .take k) available
    simp only [State.rank, ThreadStart.next, State.setThread]
    omega
  | announce k =>
    have lower := fits.rank_next (a := .announce k) available
    simp only [State.rank, ThreadStart.next, State.setThread]
    omega
  | semaphore k step =>
    have lower := fits.rank_next (a := .semaphore k step) ⟨driven, available.2⟩
    simp only [State.rank, ThreadStart.next, State.setThread]
    omega
  | call k =>
    have lower := fits.rank_next (a := .call k) available.1
    simp only [State.rank, ThreadStart.next, State.setThread]
    omega
  | scan k =>
    have lower := fits.rank_next (a := .scan k) available.1
    simp only [State.rank, ThreadStart.next, State.setThread]
    omega

/-- What is known of a thread whose constructor has returned. -/
theorem Thread.Fits.returned {v : Visit} {t : Thread Cb} (fits : t.Fits o k v)
    (behind : v = .behind) : t.mId = o.pid k ∧ t.mCb = none ∧ t.cb = some o.run ∧
      (∀ p, t.semaphore.phase p = .outside) ∧ (t.stage = .announced ∨ t.stage = .running ∨
        t.stage = .scanning) := by
  subst behind
  obtain ⟨raised, worker⟩ := fits.agree.settled rfl
  have starter := fits.agree.away (by decide)
  have stage : t.stage = .announced ∨ t.stage = .running ∨ t.stage = .scanning := by
    cases stands : t.stage <;> simp_all [ThreadStart.raised]
  have named := fits.named
  have callback := fits.callback
  have known : t.stage.known = true ∧ t.stage.emptied = true := by
    rcases stage with stage | stage | stage <;> simp [stage, Stage.known, Stage.emptied]
  rw [known.1] at named
  rw [known.2] at callback
  refine ⟨named, callback.1, callback.2, fun p => ?_, stage⟩
  cases p with
  | starter => exact starter
  | worker => exact worker

theorem visit_of_lt (passed : k < s.post.index) : s.post.visit k = .behind := by
  cases post : s.post with
  | constructing j | thrown j | waiting j =>
    simp only [post, Post.index] at passed
    simp [Post.visit, passed]
  | refused =>
    simp only [post, Post.index] at passed
    exact absurd passed (Nat.not_lt_zero k)

/-- Behind the constructor the new thread works on its own data. -/
theorem Begun.untouched (begun : Begun o s) (passed : k < s.post.index)
    (available : guard o s a) (about : a.subject = k) : a = .call k ∨ a = .scan k := by
  obtain ⟨-, -, -, outside, stage⟩ := (begun.fits k).returned (visit_of_lt passed)
  cases a with
  | call j => exact .inl (congrArg _ about)
  | scan j => exact .inr (congrArg _ about)
  | create j | createFails j | note j =>
    obtain rfl : j = k := about
    rw [available.1] at passed
    exact absurd passed (Nat.lt_irrefl j)
  | identify j | take j | announce j =>
    obtain rfl : j = k := about
    have stands : (s.thread j).stage = _ := available
    rw [stands] at stage
    simp at stage
  | semaphore j step =>
    obtain rfl : j = k := about
    obtain ⟨inside, available⟩ := available
    cases step with
    | wait p | signal p => cases inside
    | notify p sleeper => cases sleeper <;> simp [Semaphore.guard, outside] at available
    | _ =>
      simp [Semaphore.guard, outside, Semaphore.Phase.locks, Semaphore.Phase.unlocks] at available

/-- A thread that cannot take a step is in its loop, or waits for `m_mutex` before it. -/
theorem Begun.stuck (begun : Begun o s) (rests : ∀ a, guard o s a → a.driven = false) (k : ℕ) :
    ((s.thread k).stage = .unborn ∨ (s.thread k).stage = .scanning ∨
        (s.thread k).stage = .running ∧ s.mutexFree o = false) ∧
      ((s.thread k).stage ≠ .unborn → (s.thread k).semaphore.phase .starter = .outside) := by
  have fits := begun.fits k
  have never : ∀ a : Move, a.driven = true → ¬guard o s a := by
    intro a driven available
    rw [rests a available] at driven
    cases driven
  have settled := fits.guarded.rest fun step available => by
    by_cases call : calls step = true
    · cases step <;> first | rfl | cases call
    · by_contra driven
      exact never (.semaphore k step) (by simpa [Move.driven] using driven)
        ⟨by simpa using call, available⟩
  have worker : (s.thread k).semaphore.phase .worker = .outside := by
    refine (settled .worker).resolve_right fun asleep => ?_
    have signals := fits.agree.signals
    rw [asleep.1] at signals
    cases signals
  have stage : (s.thread k).stage = .unborn ∨ (s.thread k).stage = .scanning ∨
      (s.thread k).stage = .running ∧ s.mutexFree o = false := by
    cases stands : (s.thread k).stage with
    | unborn => exact .inl rfl
    | born => exact absurd stands (never (.identify k) rfl)
    | identified => exact absurd stands (never (.take k) rfl)
    | taken => exact absurd stands (never (.announce k) rfl)
    | announced => exact absurd ⟨stands, worker⟩ (never (.call k) rfl)
    | scanning => exact .inr (.inl rfl)
    | running =>
      refine .inr (.inr ⟨rfl, ?_⟩)
      by_contra free
      exact never (.scan k) rfl ⟨stands, by simpa using free⟩
  refine ⟨stage, fun born => (settled .starter).resolve_right fun asleep => ?_⟩
  -- who has signalled has not left the counter at zero
  have balance := fits.agree.balance
  have raised : ThreadStart.raised (s.thread k).stage .outside = true := by
    rcases stage with unborn | scanning | ⟨running, -⟩
    · exact absurd unborn born
    · rw [scanning]
      rfl
    · rw [running]
      rfl
  have inside := fits.agree.inside (by simp [asleep.1])
  rw [asleep.1, asleep.2, worker, raised, inside] at balance
  simp [ThreadStart.passed] at balance

/-- What holds while `start` constructs its threads. -/
structure Started (o : Order Cb) (s : State Cb) : Prop where
  /-- The ids noted are those of the threads, in the order of their construction, behind that of
  the calling thread if it is to work as well. -/
  noted : s.threadIds = o.rootThread.toList ++ (List.range s.post.index).map o.pid
  /-- A constructor returns when the id has been written and the callback has been taken. -/
  returned : ∀ k < s.post.index, (s.thread k).mId = o.pid k ∧ (s.thread k).mCb = none ∧
    (s.thread k).cb = some o.run
  /-- From then on, the new thread does not touch the object any more. -/
  untouched : ∀ k < s.post.index, ∀ a, (machine o).enabled s a → a.subject = k →
    a = .call k ∨ a = .scan k
  /-- Without wake-ups for no reason, everything comes to rest. -/
  ends : ∀ schedule, (machine o).Follows (fun _ a => a.driven = true) s schedule →
    schedule.length ≤ o.count * 31
  /-- A scheduler that has been stopped starts no thread. -/
  refused : o.stopping = true → s.post = .refused ∧ ∀ k, (s.thread k).stage = .unborn
  /-- At rest, `start` has returned or thrown, and the threads it has constructed are in their
  loops. -/
  rest : (∀ a, (machine o).enabled s a → a.driven = false) →
    (s.post = (if o.stopping then .refused else .constructing o.count) ∨
        ∃ k < o.count, s.post = .thrown k) ∧
      ∀ k < s.post.index, (s.thread k).stage = .scanning

theorem Begun.rest (begun : Begun o s) (rests : ∀ a, guard o s a → a.driven = false) :
    (s.post = (if o.stopping then .refused else .constructing o.count) ∨
        ∃ k < o.count, s.post = .thrown k) ∧
      ∀ k < s.post.index, (s.thread k).stage = .scanning := by
  have ended : s.post = (if o.stopping then .refused else .constructing o.count) ∨
      ∃ k < o.count, s.post = .thrown k := by
    cases post : s.post with
    | refused => exact .inl (by simp [begun.refused.mp post])
    | constructing k =>
      have within := begun.within
      have running := begun.running (by simp [post])
      rw [post, Post.index] at within
      rw [running]
      refine .inl (congrArg _ (within.antisymm ?_))
      by_contra fewer
      have driven := rests (.create k) ⟨post, not_le.mp fewer⟩
      cases driven
    | waiting k =>
      have fits := begun.fits k
      rw [post, visit_waiting_self] at fits
      have born : (s.thread k).stage ≠ .unborn := fun unborn => by
        cases fits.agree.unborn.mp unborn
      have driven := rests (.note k) ⟨post, (begun.stuck rests k).2 born⟩
      cases driven
    | thrown k => exact .inr ⟨k, begun.entered k (.inr post), rfl⟩
  have free : s.mutexFree o = true := by
    rcases ended with returned | ⟨k, -, thrown⟩
    · unfold State.mutexFree
      rw [returned]
      cases o.stopping <;> simp
    · simp [State.mutexFree, thrown]
  refine ⟨ended, fun k passed => ?_⟩
  rcases (begun.stuck rests k).1 with unborn | scanning | ⟨-, taken⟩
  · cases (visit_of_lt passed).symm.trans ((begun.fits k).agree.unborn.mp unborn)
  · exact scanning
  · rw [free] at taken
    cases taken

theorem Begun.unborn (begun : Begun o s) (stopping : o.stopping = true) :
    s.post = .refused ∧ ∀ k, (s.thread k).stage = .unborn := by
  have refused := begun.refused.mpr stopping
  refine ⟨refused, fun k => ?_⟩
  have fits := begun.fits k
  rw [refused] at fits
  exact fits.agree.unborn.mpr rfl

/-- Whatever the order in which the threads take their steps, `start` notes the ids of its
threads, and returns although it holds `m_mutex` while they are on their way to it. -/
theorem started_of_reachable (reached : (machine o).Reachable s) : Started o s := by
  have begun := begun_of_reachable reached
  refine ⟨begun.noted, fun k passed => ?_, fun k passed a available about =>
    begun.untouched passed available about, fun schedule follows => ?_,
    begun.unborn, begun.rest⟩
  · obtain ⟨named, emptied, taken, -⟩ := (begun.fits k).returned (visit_of_lt passed)
    exact ⟨named, emptied, taken⟩
  · have bound : schedule.length ≤ s.rank o :=
      Machine.length_le_of_drops (M := machine o) (I := Begun o)
        (fun _ _ begun available _ => begun.next available)
        (fun _ _ begun available driven => begun.rank_next available driven) begun follows
    exact bound.trans (State.rank_le o s)

/-- One thread. The starting thread is asleep before the new one signals. -/
def single : List Move :=
  [.create 0, .semaphore 0 (.lock .starter), .semaphore 0 (.test .starter), .identify 0, .take 0,
    .announce 0, .semaphore 0 (.lock .worker), .semaphore 0 (.raise .worker),
    .semaphore 0 (.notify .worker (some .starter)), .semaphore 0 (.unlock .worker), .call 0,
    .semaphore 0 (.lock .starter), .semaphore 0 (.test .starter), .semaphore 0 (.unlock .starter),
    .note 0, .scan 0]

/-- Its number, id and name. The calling thread is to work as well. -/
def one : Order Unit := ⟨1, fun _ => 4711, fun _ => "Scheduler_0".toList, (), some 4710, false⟩

theorem started_single :
    ((machine one).after (State.initial one) single).threadIds = [4710, 4711] ∧
      Started one ((machine one).after (State.initial one) single) :=
  ⟨by decide, started_of_reachable (Machine.reachable_after rfl (by decide))⟩

end CoroutineService.ThreadStart
