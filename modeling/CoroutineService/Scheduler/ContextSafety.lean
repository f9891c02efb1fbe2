import CoroutineService.Scheduler.Contexts
import CoroutineService.Scheduler.FiberSafety
import CoroutineService.Scheduler.IdleFibers

/-!
# Every fiber goes on where it stopped

A `swapcontext` saves the registers in the context of one fiber and loads those of another. Only
the thread-local pointers tell which; were one of them stale, a thread would save its registers
over those of somebody else, or go back to a point it has left. The pointers are right in every
run: they name the fiber whose code the thread executes, the fiber of its loop, and its own.

## Main results

* `Standing.goOver`: what a `swapcontext` keeps
* `ContextsExact.next`: what a step of the workers keeps
* `contextsExact_of_reachable`: every thread executes the code of its fiber from where that has
  come to
* `lost_of_not_scheduled`: on the thread of `stop()` this needs `run_in_scheduler`
-/

set_option autoImplicit false

namespace CoroutineService.Scheduler

open CoroutineService.Transition

variable {Tid Fib Cb : Type*}

section Places

variable [DecidableEq Tid]

variable {u : Setup Tid Fib} {s s' : State Tid Fib Cb} {g : Contexts Tid Fib}
variable {w : Tid} {x y : Coroutine Tid Fib} {f : Fib} {r : Region Fib}

theorem Setup.loop_ne_idle {w' : Tid} : u.loop w ≠ .idle w' := by
  unfold Setup.loop
  split <;> simp

theorem Setup.loop_ne_task : u.loop w ≠ .task f := by
  unfold Setup.loop
  split <;> simp

/-- Two workers do not share the fiber of the loop. -/
theorem Setup.loop_injective {w' : Tid} (same : u.loop w = u.loop w') : w = w' := by
  unfold Setup.loop at same
  split at same
  · rename_i mine
    split at same
    · rename_i yours
      exact Option.some.inj (mine.symm.trans yours)
    · cases same
  · split at same
    · cases same
    · exact Coroutine.thread.inj same

/-- Which fibers a worker executes where. -/
theorem coroutine_eq_loop {w' : Tid} (on : r.coroutine u w = u.loop w') : w = w' := by
  cases r with
  | before | after =>
    simp only [Region.coroutine, Setup.loop] at on
    split at on
    · cases on
    · exact Coroutine.thread.inj on
  | loop => exact Setup.loop_injective on
  | idle => exact absurd on.symm Setup.loop_ne_idle
  | task g => exact absurd on.symm Setup.loop_ne_task

theorem coroutine_eq_idle {w' : Tid} (on : r.coroutine u w = .idle w') : w = w' ∧ r = .idle := by
  cases r with
  | idle => exact ⟨Coroutine.idle.inj on, rfl⟩
  | loop => exact absurd on Setup.loop_ne_idle
  | before | after | task g => cases on

theorem coroutine_eq_task (on : r.coroutine u w = .task f) : r = .task f := by
  cases r with
  | task g => exact congrArg _ (Coroutine.task.inj on)
  | loop => exact absurd on Setup.loop_ne_task
  | before | after | idle => cases on

theorem coroutine_eq_thread {w' : Tid} (on : r.coroutine u w = .thread w') : w = w' := by
  cases r with
  | before | after => exact Coroutine.thread.inj on
  | loop =>
    simp only [Region.coroutine, Setup.loop] at on
    split at on
    · cases on
    · exact Coroutine.thread.inj on
  | idle | task g => cases on

/-! ### Steps that stay on the stack -/

/-- The stack on which a thread executes. -/
theorem Standing.stack_cpu (standing : Standing u s g) :
    (g.frames.cpu w).stack = s.place u w := by
  rw [standing.exact.standing w]

/-- A step that leaves every thread on its stack. -/
theorem Standing.stay (standing : Standing u s g) (same : ∀ w, s'.place u w = s.place u w)
    (entered : ∀ w, (s'.phase w).region.entered = (s.phase w).region.entered)
    (grown : ∀ f, (s.fiber f).constructed = true → (s'.fiber f).constructed = true) :
    Standing u s' g := by
  have places : s'.place u = s.place u := funext same
  have owns : ∀ w, s'.hasFiber u w ↔ s.hasFiber u w := by
    intro w
    simp only [State.hasFiber, entered w]
  refine ⟨places ▸ standing.exact, fun w => ?_, fun w => ?_, fun w => ?_, fun x code ran => ?_,
    fun w f here => ?_, fun f fresh => ?_, fun w outside => ?_⟩
  · simp only [standing.current w, owns, places]
  · simp only [standing.own w, owns]
  · simp only [standing.scheduling w, owns]
  · exact standing.calls x code (by simpa only [places] using ran)
  · exact (standing.built w f (places ▸ here)).imp_left (grown f)
  · refine standing.unbuilt f ?_
    by_contra built
    rw [grown f (by simpa using built)] at fresh
    cases fresh
  · exact standing.unentered w ((entered w).symm.trans outside)

/-- Fibers that are resumed by the loop of their worker. -/
theorem Standing.other_loop (standing : Standing u s g) (fiber : s.hasFiber u w)
    (way : u.root = some w → u.inScheduler x = true) : g.other u w x = some (u.loop w) := by
  by_cases scheduled : u.inScheduler x = true
  · simp [Contexts.other, scheduled, standing.scheduling w, fiber]
  · have foreign : u.root ≠ some w := fun root => scheduled (way root)
    simp [Contexts.other, scheduled, standing.own w, fiber, Setup.loop, foreign]

/-- The fiber of the loop is resumed by that of the thread. -/
theorem Standing.other_scheduler (standing : Standing u s g) (fiber : s.hasFiber u w) :
    g.other u w .scheduler = some (.thread w) := by
  simp [Contexts.other, Setup.inScheduler, standing.own w, fiber]

section Steps

variable [DecidableEq Fib]

/-- The code a thread executes goes on. -/
theorem Standing.execute (standing : Standing u s g) (p : Tid) :
    Standing u s (g.execute p) where
  exact := standing.exact.execute p
  current := standing.current
  own := standing.own
  scheduling := standing.scheduling
  calls x code ran := by
    refine standing.calls x code ?_
    by_cases here : s.place u p = x
    · exact .inr ⟨p, here⟩
    · refine ran.imp_left fun ran => ?_
      have apart : x ≠ (g.frames.cpu p).stack := by
        rw [standing.stack_cpu]
        exact fun same => here same.symm
      simpa [Contexts.execute, Stacks.execute, apart] using ran
  built := standing.built
  unbuilt f fresh := by
    have apart : Coroutine.task f ≠ (g.frames.cpu p).stack := by
      rw [standing.stack_cpu]
      intro here
      rw [(standing.built p f here.symm).1] at fresh
      cases fresh
    simpa [Contexts.execute, Stacks.execute, apart] using standing.unbuilt f fresh
  unentered w outside := by
    have apart : Coroutine.idle w ≠ (g.frames.cpu p).stack := by
      rw [standing.stack_cpu]
      intro here
      obtain ⟨rfl, idle⟩ := coroutine_eq_idle here.symm
      rw [idle] at outside
      cases outside
    simpa [Contexts.execute, Stacks.execute, apart] using standing.unentered w outside

/-- A fiber on whose stack no code has run yet is constructed. -/
theorem Standing.construct (standing : Standing u s g) (unused : g.frames.ran x = 0) :
    Standing u s (g.construct x) :=
  { standing with exact := standing.exact.make unused }

/-! ### Going over to another stack -/

/-- The thread `w` goes over from its stack to one nobody stands on, and all others stay. -/
theorem Standing.goOver (standing : Standing u s g) (fiber : s.hasFiber u w)
    (still : ∀ w', w' ≠ w → s'.phase w' = s.phase w')
    (grown : ∀ f, (s.fiber f).constructed = true → (s'.fiber f).constructed = true)
    (mine : s.place u w = x) (arrives : s'.place u w = y) (free : ∀ w', s.place u w' ≠ y)
    (entered : (s'.phase w).region.entered = true)
    (task : ∀ f, y = .task f →
      (s.fiber f).constructed = true ∧ (u.root = some w → u.runInScheduler f = true)) :
    Standing u s' (g.goOver w x y) := by
  have places : s'.place u = Function.update (s.place u) w y := by
    funext w'
    by_cases here : w' = w
    · rw [here, Function.update_self, arrives]
    · rw [Function.update_of_ne here, State.place, still w' here, State.place]
  have fibers : ∀ w', w' ≠ w → (s'.hasFiber u w' ↔ s.hasFiber u w') := by
    intro w' away
    simp only [State.hasFiber, still w' away]
  have fiber' : s'.hasFiber u w := .inr entered
  have apart : y ≠ x := fun same => free w (mine.trans same.symm)
  -- what is loaded is the context of `y`, which no thread has touched
  have loaded : ((g.frames.swap w x y).cpu w) = ⟨y, g.frames.ran y⟩ := by
    simp [Stacks.swap, Stacks.save, Stacks.load, apart, standing.exact.suspended y free]
  refine ⟨?_, fun w' => ?_, fun w' => ?_, fun w' => ?_, fun z code ran => ?_,
    fun w' f here => ?_, fun f fresh => ?_, fun w' outside => ?_⟩
  · rw [places]
    simpa [Contexts.goOver] using standing.exact.swap mine free
  · by_cases here : w' = w
    · subst here
      simp [Contexts.goOver, fiber', arrives]
    · simp only [Contexts.goOver, Contexts.mainFunc_tFiber, Function.update_of_ne here,
        standing.current w', fibers w' here, places]
  · by_cases here : w' = w
    · subst here
      simpa [Contexts.goOver, fiber', fiber] using standing.own w'
    · simp only [Contexts.goOver, Contexts.mainFunc_tThreadFiber, standing.own w', fibers w' here]
  · by_cases here : w' = w
    · subst here
      simpa [Contexts.goOver, fiber', fiber] using standing.scheduling w'
    · simp only [Contexts.goOver, Contexts.mainFunc_tSchedulerFiber, standing.scheduling w',
        fibers w' here]
  · have ran' : g.frames.ran z ≠ 0 ∨ ∃ w', s'.place u w' = z := by
      simpa [Contexts.goOver, Stacks.swap, Stacks.save, Stacks.load] using ran
    simp only [Contexts.goOver, Contexts.mainFunc, loaded]
    by_cases same : z = y
    · subst same
      by_cases first : g.frames.ran z = 0
      · simp [first]
      · simpa [first] using standing.calls z code (.inl first)
    · have before : g.frames.ran z ≠ 0 ∨ ∃ w', s.place u w' = z := by
        refine ran'.imp_right fun stood => ?_
        obtain ⟨w', here⟩ := stood
        refine ⟨w', ?_⟩
        by_cases moved : w' = w
        · subst moved
          exact absurd (here.symm.trans arrives) same
        · rwa [places, Function.update_of_ne moved] at here
      split
      · simpa [same] using standing.calls z code before
      · exact standing.calls z code before
  · refine And.imp_left (grown f) ?_
    by_cases moved : w' = w
    · subst moved
      exact task f (arrives.symm.trans here)
    · rw [places, Function.update_of_ne moved] at here
      exact standing.built w' f here
  · have unbuilt : (s.fiber f).constructed = false := by
      by_contra built
      rw [grown f (by simpa using built)] at fresh
      cases fresh
    simpa [Contexts.goOver, Stacks.swap, Stacks.save, Stacks.load] using standing.unbuilt f unbuilt
  · have away : w' ≠ w := by
      rintro rfl
      rw [entered] at outside
      cases outside
    rw [still w' away] at outside
    simpa [Contexts.goOver, Stacks.swap, Stacks.save, Stacks.load] using
      standing.unentered w' outside

/-! ### The steps of the workers -/

/-- The region a worker is in stays the same in all steps but those that go over. -/
def Move.crosses : Move Tid Fib Cb → Bool
  | .startRun _ | .switchIn _ _ | .switchOut _ _ | .enterIdle _ | .idleYield _ | .checkStopping _ _
  | .leaveRun _ => true
  | _ => false

variable {workers : Finset Tid} {a : Move Tid Fib Cb}

theorem region_next (available : guard workers s a) (stays : a.crosses = false) (w : Tid) :
    ((next s a).phase w).region = (s.phase w).region := by
  by_cases mine : a.worker = some w
  case neg => rw [phase_next_of_ne mine]
  case pos =>
    cases a with
    | scheduleLock p task | tickle p | hasIdleThreads p push | writePipe p push | construct p g
    | stop p => cases mine
    | startRun v | switchIn v g | switchOut v g | enterIdle v | idleYield v | checkStopping v q
    | leaveRun v => cases stays
    | scan v =>
      obtain rfl : v = w := Option.some.inj mine
      obtain ⟨-, -, stands⟩ := available
      simp only [next]
      split
      · simp [stands, Phase.region]
      · split <;> simp [stands, Phase.region]
    | resume v g =>
      obtain rfl : v = w := Option.some.inj mine
      obtain ⟨-, stands⟩ := available
      simp only [next]
      split <;> simp [stands, Phase.region]
    | yield v g =>
      obtain rfl : v = w := Option.some.inj mine
      obtain ⟨-, -, stands⟩ := available
      simp only [next]
      split <;> simp [stands, Phase.region]
    | checkState v g =>
      obtain rfl : v = w := Option.some.inj mine
      obtain ⟨-, stands⟩ := available
      simp only [next]
      split <;> simp [stands, Phase.region]
    | _ =>
      obtain rfl := Option.some.inj mine
      simp only [guard] at available
      simp [next, available, Phase.region]

theorem idleEnded_of_stays (stays : a.crosses = false) : (next s a).idleEnded = s.idleEnded := by
  refine idleEnded_next fun w same => ?_
  subst same
  cases stays

/-- The code of a thread goes on in the same part of its program. -/
theorem ContextsExact.remain (agree : ContextsExact u s g)
    (regions : ∀ w, ((next s a).phase w).region = (s.phase w).region)
    (ended : (next s a).idleEnded = s.idleEnded) : ContextsExact u (next s a) g where
  standing := by
    refine agree.standing.stay (fun w => ?_) (fun w => ?_) fun _ => constructed_next
    · rw [State.place, regions w, State.place]
    · rw [regions w]
  asserted :=
    { idles := fun w => by
        rw [regions w, ended]
        exact agree.asserted.idles w
      loop := fun w root => by
        rw [regions w]
        exact agree.asserted.loop w root
      going := fun w outside => by
        rw [regions w] at outside
        rw [ended]
        exact agree.asserted.going w outside
      sound := agree.asserted.sound }

theorem ContextsExact.stay (agree : ContextsExact u s g) (available : guard workers s a)
    (stays : a.crosses = false) : ContextsExact u (next s a) g :=
  agree.remain (region_next available stays) (idleEnded_of_stays stays)

/-- The idle fiber goes on with its loop. -/
theorem ContextsExact.remainIdle (agree : ContextsExact u s g) {quiet : Bool}
    (available : guard workers s (.checkStopping w quiet))
    (goes : ¬(quiet && s.stopping) = true) :
    ContextsExact u (next s (.checkStopping w quiet)) g := by
  obtain ⟨-, stands⟩ := available
  refine agree.remain (fun w' => ?_) ?_
  · by_cases here : w' = w
    · subst here
      simp [next, goes, stands, Phase.region]
    · have foreign : (Move.checkStopping w quiet : Move Tid Fib Cb).worker ≠ some w' := fun same =>
        here (Option.some.inj same).symm
      rw [phase_next_of_ne foreign]
  · simp [next, goes]

/-- A task's fiber is constructed, on whose stack no code has run. -/
theorem ContextsExact.construct (agree : ContextsExact u s g)
    (unbuilt : (s.fiber f).constructed = false) : ContextsExact u s (g.construct (.task f)) where
  standing := agree.standing.construct (agree.standing.unbuilt f unbuilt)
  asserted :=
    { idles := fun w => by simpa [Contexts.construct] using agree.asserted.idles w
      loop := fun w root => by simpa [Contexts.construct] using agree.asserted.loop w root
      going := agree.asserted.going
      sound := agree.asserted.sound }

/-- A worker ends its own idle fiber only. -/
theorem idleEnded_next_of_ne {w' : Tid} (worker : a.worker = some w) (away : w' ≠ w) :
    (next s a).idleEnded w' = s.idleEnded w' := by
  by_cases ends : a = .checkStopping w true
  · subst ends
    simp only [next]
    split <;> simp [away]
  · refine congrFun (idleEnded_next fun v same => ends ?_) w'
    subst same
    obtain rfl := Option.some.inj worker
    rfl

/-- A worker goes over to a stack nobody stands on, after it has written states of its own
fibers. -/
theorem ContextsExact.cross {σ : Coroutine Tid Fib → FiberState} (agree : ContextsExact u s g)
    (worker : a.worker = some w) (fiber : s.hasFiber u w) (mine : s.place u w = x)
    (arrives : (next s a).place u w = y) (free : ∀ w', s.place u w' ≠ y)
    (entered : ((next s a).phase w).region.entered = true)
    (task : ∀ f, y = .task f →
      (s.fiber f).constructed = true ∧ (u.root = some w → u.runInScheduler f = true))
    (idle : σ (.idle w) = ((next s a).phase w).region.idleState ((next s a).idleEnded w))
    (loop : u.root = some w → σ .scheduler = ((next s a).phase w).region.loopState)
    (rest : ∀ z, z ≠ .idle w → (z = .scheduler → u.root ≠ some w) → σ z = g.state z) :
    ContextsExact u (next s a) ({ g with state := σ }.goOver w x y) := by
  have still : ∀ w', w' ≠ w → (next s a).phase w' = s.phase w' := fun w' away =>
    phase_next_of_ne fun same => away (Option.some.inj (same.symm.trans worker))
  have standing : Standing u s { g with state := σ } := { agree.standing with }
  refine ⟨standing.goOver fiber still (fun _ => constructed_next) mine arrives free entered
    task, fun w' => ?_, fun w' root => ?_, fun w' outside => ?_, ?_⟩
  · by_cases here : w' = w
    · subst here
      simpa [Contexts.goOver] using idle
    · rw [still w' here, idleEnded_next_of_ne worker here, ← agree.asserted.idles w']
      simpa [Contexts.goOver] using rest (.idle w') (by simpa using here) (by simp)
  · by_cases here : w' = w
    · subst here
      simpa [Contexts.goOver] using loop root
    · rw [still w' here, ← agree.asserted.loop w' root]
      have elsewhere : u.root ≠ some w := by
        rw [root]
        simpa using here
      simpa [Contexts.goOver] using rest .scheduler (by simp) fun _ => elsewhere
  · have away : w' ≠ w := by
      rintro rfl
      rw [entered] at outside
      cases outside
    rw [still w' away] at outside
    rw [idleEnded_next_of_ne worker away]
    exact agree.asserted.going w' outside
  · simpa [Contexts.goOver] using agree.asserted.sound

/-- `resume` of a task. -/
theorem ContextsExact.switchIn (agree : ContextsExact u s g) (safe : FiberSafe s)
    (available : guard workers s (.switchIn w f))
    (way : u.root = some w → u.runInScheduler f = true) :
    ContextsExact u (next s (.switchIn w f)) (g.enter u w (.task f)) := by
  have stands := available.2
  obtain ⟨⟨-, saved⟩, mine⟩ := safe.fits stands rfl
  have place : s.place u w = u.loop w := by rw [State.place, stands]; rfl
  have fiber : s.hasFiber u w := .inr (by rw [stands]; rfl)
  have built : (s.fiber f).constructed = true := by
    by_contra unbuilt
    rw [safe.fresh f (by simpa using unbuilt)] at mine
    cases mine
  -- whoever executes the fiber would hold its lock, and its context would not be saved
  have free : ∀ w', s.place u w' ≠ .task f := by
    intro w' on
    have region := coroutine_eq_task on
    cases stands' : s.phase w' with
    | inFiber h | yielding h =>
      obtain rfl : h = f := by simpa [stands', Phase.region] using region
      obtain ⟨⟨-, unsaved⟩, -⟩ := safe.fits stands' rfl
      rw [saved] at unsaved
      cases unsaved
    | _ => simp [stands', Phase.region] at region
  have idle := agree.asserted.idles w
  have loop := agree.asserted.loop w
  rw [stands] at idle loop
  rw [Contexts.enter, agree.standing.other_loop (x := .task f) fiber way]
  refine agree.cross (σ := g.state) rfl fiber place ?_ free ?_ ?_ ?_ ?_ fun _ _ _ => rfl
  · simp [State.place, next, Phase.region, Region.coroutine]
  · simp [next, Phase.region, Region.entered]
  · intro h same
    obtain rfl := Coroutine.task.inj same
    exact ⟨built, way⟩
  · simpa [next, Phase.region, Region.idleState] using idle
  · intro root
    simpa [next, Phase.region, Region.loopState] using loop root

/-- `yield` of a task. -/
theorem ContextsExact.switchOut (agree : ContextsExact u s g)
    (available : guard workers s (.switchOut w f)) :
    ContextsExact u (next s (.switchOut w f)) (g.leave u w (some (.task f))) := by
  obtain ⟨-, stands⟩ := available
  have place : s.place u w = .task f := by rw [State.place, stands]; rfl
  have way := (agree.standing.built w f place).2
  have fiber : s.hasFiber u w := .inr (by rw [stands]; rfl)
  have free : ∀ w', s.place u w' ≠ u.loop w := by
    intro w' on
    obtain rfl := coroutine_eq_loop on
    exact Setup.loop_ne_task (on.symm.trans place)
  have idle := agree.asserted.idles w
  have loop := agree.asserted.loop w
  rw [stands] at idle loop
  rw [Contexts.leave, agree.standing.other_loop (x := .task f) fiber way]
  refine agree.cross (σ := g.state) rfl fiber place ?_ free ?_ ?_ ?_ ?_ fun _ _ _ => rfl
  · simp [State.place, next, Phase.region, Region.coroutine]
  · simp [next, Phase.region, Region.entered]
  · exact fun h same => absurd same Setup.loop_ne_task
  · simpa [next, Phase.region, Region.idleState] using idle
  · intro root
    simpa [next, Phase.region, Region.loopState] using loop root

/-- `resume` of an idle fiber. -/
theorem ContextsExact.enterIdle (agree : ContextsExact u s g)
    (available : guard workers s (.enterIdle w)) :
    ContextsExact u (next s (.enterIdle w)) (g.resume u w (.idle w)) := by
  obtain ⟨-, -, stands, alive⟩ := available
  have place : s.place u w = u.loop w := by rw [State.place, stands]; rfl
  have fiber : s.hasFiber u w := .inr (by rw [stands]; rfl)
  have free : ∀ w', s.place u w' ≠ .idle w := by
    intro w' on
    obtain ⟨rfl, -⟩ := coroutine_eq_idle on
    exact Setup.loop_ne_idle (place.symm.trans on)
  have ready : g.state (.idle w) = .ready := by
    rw [agree.asserted.idles w, stands, alive]
    rfl
  have loop := agree.asserted.loop w
  rw [stands] at loop
  have standing : Standing u s { g with state := Function.update g.state (.idle w) .running } :=
    { agree.standing with }
  rw [Contexts.resume, if_pos ready, Contexts.enter,
    standing.other_loop (x := .idle w) fiber fun _ => rfl]
  refine agree.cross rfl fiber place ?_ free ?_ nofun ?_ ?_ ?_
  · simp [State.place, next, Phase.region, Region.coroutine]
  · simp [next, Phase.region, Region.entered]
  · simp [next, Phase.region, Region.idleState]
  · intro root
    simpa [next, Phase.region, Region.loopState] using loop root
  · intro z other _
    exact Function.update_of_ne other _ _

/-- `yield` of an idle fiber: between two rounds of its loop, and at its end. -/
theorem ContextsExact.leaveIdle (agree : ContextsExact u s g) {σ : Coroutine Tid Fib → FiberState}
    (worker : a.worker = some w) (inside : (s.phase w).region = .idle)
    (returned : ((next s a).phase w).region = .loop)
    (idle : σ (.idle w) = Region.idleState ((next s a).idleEnded w) (.loop : Region Fib))
    (rest : ∀ z, z ≠ .idle w → σ z = g.state z) :
    ContextsExact u (next s a) ({ g with state := σ }.leave u w (some (.idle w))) := by
  have place : s.place u w = .idle w := by rw [State.place, inside]; rfl
  have fiber : s.hasFiber u w := .inr (by rw [inside]; rfl)
  have free : ∀ w', s.place u w' ≠ u.loop w := by
    intro w' on
    obtain rfl := coroutine_eq_loop on
    exact Setup.loop_ne_idle (on.symm.trans place)
  have standing : Standing u s { g with state := σ } := { agree.standing with }
  have loop := agree.asserted.loop w
  rw [inside] at loop
  rw [Contexts.leave, standing.other_loop (x := .idle w) fiber fun _ => rfl]
  refine agree.cross worker fiber place ?_ free ?_ ?_ ?_ ?_ fun z other _ => rest z other
  · rw [State.place, returned]
    rfl
  · rw [returned]
    rfl
  · exact fun h same => absurd same Setup.loop_ne_task
  · rw [returned]
    exact idle
  · intro root
    rw [returned, rest .scheduler nofun]
    exact loop root

theorem ContextsExact.idleYield (agree : ContextsExact u s g)
    (consistent : Consistent s.phase s.idleEnded) (available : guard workers s (.idleYield w)) :
    ContextsExact u (next s (.idleYield w)) (g.yield u w (some (.idle w))) := by
  obtain ⟨-, -, stands⟩ := available
  have inside : (s.phase w).region = .idle := by rw [stands]; rfl
  have running : g.state (.idle w) = .running := by
    rw [agree.asserted.idles w, inside]
    rfl
  have alive : s.idleEnded w = false := (consistent w).1 (by rw [stands]; rfl)
  simp only [Contexts.yield, running]
  refine agree.leaveIdle rfl inside ?_ ?_ fun z other => Function.update_of_ne other _ _
  · simp [next, Phase.region]
  · simp [next, alive, Region.idleState]

/-- The idle fiber ends: what `MainFunc` does. -/
theorem ContextsExact.endIdle (agree : ContextsExact u s g) {quiet : Bool}
    (available : guard workers s (.checkStopping w quiet))
    (ends : (quiet && s.stopping) = true) :
    ContextsExact u (next s (.checkStopping w quiet)) (g.finish u w) := by
  obtain ⟨-, stands⟩ := available
  have inside : (s.phase w).region = .idle := by rw [stands]; rfl
  have place : s.place u w = .idle w := by rw [State.place, inside]; rfl
  have called : g.curr (.idle w) = some (.idle w) :=
    agree.standing.calls _ nofun (.inr ⟨w, place⟩)
  simp only [Contexts.finish, agree.standing.stack_cpu, place, called, Contexts.yield,
    Function.update_self]
  refine agree.leaveIdle rfl inside ?_ ?_ fun z other => Function.update_of_ne other _ _
  · simp [next, ends, Phase.region]
  · simp [next, ends, Region.idleState]

/-- `stop()` resumes the fiber of the loop. -/
theorem ContextsExact.startRoot (agree : ContextsExact u s g) (root : u.root = some w)
    (available : guard workers s (.startRun w)) :
    ContextsExact u (next s (.startRun w)) (g.resume u w .scheduler) := by
  obtain ⟨-, -, stands⟩ := available
  have outside : (s.phase w).region = .before := by rw [stands]; rfl
  have place : s.place u w = .thread w := by rw [State.place, outside]; rfl
  have fiber : s.hasFiber u w := .inl root
  have looped : u.loop w = .scheduler := if_pos root
  have free : ∀ w', s.place u w' ≠ .scheduler := by
    intro w' on
    obtain rfl := coroutine_eq_loop (on.trans looped.symm)
    cases place.symm.trans on
  have ready : g.state .scheduler = .ready := by
    rw [agree.asserted.loop w root, outside]
    rfl
  have idle := agree.asserted.idles w
  rw [outside] at idle
  have standing : Standing u s { g with state := Function.update g.state .scheduler .running } :=
    { agree.standing with }
  rw [Contexts.resume, if_pos ready, Contexts.enter, standing.other_scheduler fiber]
  refine agree.cross rfl fiber place ?_ free ?_ nofun ?_ ?_ ?_
  · simp [State.place, next, Phase.region, Region.coroutine, looped]
  · simp [next, Phase.region, Region.entered]
  · simpa [next, Phase.region, Region.idleState] using idle
  · simp [next, Phase.region, Region.loopState]
  · intro z _ foreign
    refine Function.update_of_ne ?_ _ _
    rintro rfl
    exact foreign rfl root

/-- The fiber of the loop ends and goes back to `stop()`. -/
theorem ContextsExact.endRoot (agree : ContextsExact u s g) (root : u.root = some w)
    (available : guard workers s (.leaveRun w)) :
    ContextsExact u (next s (.leaveRun w)) (g.finish u w) := by
  obtain ⟨-, -, stands, ended⟩ := available
  have inside : (s.phase w).region = .loop := by rw [stands]; rfl
  have looped : u.loop w = .scheduler := if_pos root
  have place : s.place u w = .scheduler := by rw [State.place, inside, ← looped]; rfl
  have fiber : s.hasFiber u w := .inl root
  have free : ∀ w', s.place u w' ≠ .thread w := by
    intro w' on
    obtain rfl := coroutine_eq_thread on
    cases place.symm.trans on
  have called : g.curr .scheduler = some .scheduler :=
    agree.standing.calls _ nofun (.inr ⟨w, place⟩)
  have idle := agree.asserted.idles w
  rw [inside] at idle
  have standing : Standing u s { g with state := Function.update g.state .scheduler .term } :=
    { agree.standing with }
  simp only [Contexts.finish, agree.standing.stack_cpu, place, called, Contexts.yield,
    Function.update_self, Contexts.leave, standing.other_scheduler fiber]
  refine agree.cross rfl fiber place ?_ free ?_ nofun ?_ ?_ ?_
  · simp [State.place, next, Phase.region, Region.coroutine]
  · simp [next, Phase.region, Region.entered]
  · simpa [next, Phase.region, Region.idleState] using idle
  · simp [next, Phase.region, Region.loopState]
  · intro z _ foreign
    refine Function.update_of_ne ?_ _ _
    rintro rfl
    exact foreign rfl root

/-- The other threads return from `run` on their own stack. -/
theorem ContextsExact.endForeign (agree : ContextsExact u s g) (foreign : u.root ≠ some w)
    (available : guard workers s (.leaveRun w)) : ContextsExact u (next s (.leaveRun w)) g := by
  obtain ⟨-, -, stands, ended⟩ := available
  have looped : u.loop w = .thread w := if_neg foreign
  have still : ∀ w', w' ≠ w → (next s (.leaveRun w)).phase w' = s.phase w' := fun w' away =>
    phase_next_of_ne fun same => away (Option.some.inj same).symm
  refine ⟨agree.standing.stay (fun w' => ?_) (fun w' => ?_) fun _ => constructed_next,
    fun w' => ?_, fun w' root => ?_, fun w' outside => ?_, agree.asserted.sound⟩
  · by_cases here : w' = w
    · subst here
      simp [State.place, next, stands, Phase.region, Region.coroutine, looped]
    · rw [State.place, still w' here, State.place]
  · by_cases here : w' = w
    · subst here
      simp [next, stands, Phase.region, Region.entered]
    · rw [still w' here]
  · by_cases here : w' = w
    · subst here
      simpa [next, stands, Phase.region, Region.idleState] using agree.asserted.idles w'
    · rw [still w' here]
      exact agree.asserted.idles w'
  · have away : w' ≠ w := by
      rintro rfl
      exact foreign root
    rw [still w' away]
    exact agree.asserted.loop w' root
  · have away : w' ≠ w := by
      rintro rfl
      simp [next, Phase.region, Region.entered] at outside
    rw [still w' away] at outside
    exact agree.asserted.going w' outside

/-- A new thread makes its own fiber, which executes the loop. -/
theorem ContextsExact.startForeign (agree : ContextsExact u s g) (foreign : u.root ≠ some w)
    (available : guard workers s (.startRun w)) :
    ContextsExact u (next s (.startRun w)) (g.getThis w) := by
  obtain ⟨-, -, stands⟩ := available
  have looped : u.loop w = .thread w := if_neg foreign
  have place : s.place u w = .thread w := by rw [State.place, stands]; rfl
  have none' : ¬s.hasFiber u w := by simp [State.hasFiber, foreign, stands, Phase.region,
    Region.entered]
  have still : ∀ w', w' ≠ w → (next s (.startRun w)).phase w' = s.phase w' := fun w' away =>
    phase_next_of_ne fun same => away (Option.some.inj same).symm
  have fiber : (next s (.startRun w)).hasFiber u w := by
    simp [State.hasFiber, next, Phase.region, Region.entered]
  have places : (next s (.startRun w)).place u = s.place u := by
    funext w'
    by_cases here : w' = w
    · subst here
      rw [place]
      simp [State.place, next, Phase.region, Region.coroutine, looped]
    · rw [State.place, still w' here, State.place]
  have fibers : ∀ w', w' ≠ w → ((next s (.startRun w)).hasFiber u w' ↔ s.hasFiber u w') := by
    intro w' away
    simp only [State.hasFiber, still w' away]
  have absent : g.tFiber w = none := by rw [agree.standing.current w, if_neg none']
  simp only [Contexts.getThis, absent]
  refine ⟨⟨?_, fun w' => ?_, fun w' => ?_, fun w' => ?_, fun x code ran => ?_, fun w' f here => ?_,
    fun f fresh => ?_, fun w' outside => ?_⟩, fun w' => ?_, fun w' root => ?_,
    fun w' outside => ?_, agree.asserted.sound⟩
  · rw [places]
    exact agree.standing.exact.save place
  · by_cases here : w' = w
    · subst here
      simp [fiber, places, place]
    · simp only [Function.update_of_ne here, agree.standing.current w', fibers w' here, places]
  · by_cases here : w' = w
    · subst here
      simp [fiber]
    · simp only [Function.update_of_ne here, agree.standing.own w', fibers w' here]
  · by_cases here : w' = w
    · subst here
      simp [fiber, looped]
    · simp only [Function.update_of_ne here, agree.standing.scheduling w', fibers w' here]
  · exact agree.standing.calls x code (by simpa only [places, Stacks.save] using ran)
  · exact agree.standing.built w' f (places ▸ here)
  · exact agree.standing.unbuilt f fresh
  · have away : w' ≠ w := by
      rintro rfl
      simp [next, Phase.region, Region.entered] at outside
    rw [still w' away] at outside
    exact agree.standing.unentered w' outside
  · have idle := agree.asserted.idles w'
    by_cases here : w' = w
    · subst here
      simpa [next, stands, Phase.region, Region.idleState] using idle
    · rw [still w' here]
      simpa [next] using idle
  · have away : w' ≠ w := by
      rintro rfl
      exact foreign root
    rw [still w' away]
    simpa using agree.asserted.loop w' root
  · have away : w' ≠ w := by
      rintro rfl
      simp [next, Phase.region, Region.entered] at outside
    rw [still w' away] at outside
    exact agree.asserted.going w' outside

/-- `run` constructs the idle fiber of the worker. -/
theorem ContextsExact.constructIdle (agree : ContextsExact u s g)
    (unused : g.frames.ran (.idle w) = 0)
    (ready : (s.phase w).region.idleState (s.idleEnded w) = .ready) :
    ContextsExact u s (g.construct (.idle w)) where
  standing := agree.standing.construct unused
  asserted :=
    { idles := fun w' => by
        by_cases here : w' = w
        · subst here
          simp [Contexts.construct, ready]
        · simpa [Contexts.construct, here] using agree.asserted.idles w'
      loop := fun w' root => by simpa [Contexts.construct] using agree.asserted.loop w' root
      going := agree.asserted.going
      sound := agree.asserted.sound }

theorem ContextsExact.execute (agree : ContextsExact u s g) (p : Tid) :
    ContextsExact u s (g.execute p) :=
  ⟨agree.standing.execute p, { agree.asserted with }⟩

/-- Task fibers that the thread of `stop()` executes return to the loop. -/
def Move.scheduled (u : Setup Tid Fib) : Move Tid Fib Cb → Prop
  | .switchIn w f => u.root = some w → u.runInScheduler f = true
  | _ => True

theorem ContextsExact.next (agree : ContextsExact u s g) (safe : FiberSafe s)
    (consistent : Consistent s.phase s.idleEnded) (available : guard workers s a)
    (way : a.scheduled u) : ContextsExact u (next s a) (g.record u s a) := by
  cases a with
  | construct p f =>
    obtain ⟨-, -, unbuilt⟩ := id available
    exact ((agree.execute p).construct unbuilt).stay available rfl
  | makeFiber w task f =>
    obtain ⟨-, -, -, -, -, unbuilt⟩ := id available
    exact ((agree.execute w).construct unbuilt).stay available rfl
  | switchIn w f => exact (agree.execute w).switchIn safe available way
  | switchOut w f =>
    have ahead := agree.execute w
    have stands := available.2
    have place : s.place u w = .task f := by rw [State.place, stands]; rfl
    -- both the thread and the `MainFunc` of the fiber know it
    have called := ahead.standing.calls (.task f) nofun (.inr ⟨w, place⟩)
    have current : (g.execute w).tFiber w = some (.task f) := by
      rw [ahead.standing.current w, if_pos (.inr (by rw [stands]; rfl)), place]
    have yields := ahead.switchOut available
    simp only [Contexts.record, Move.thread, ahead.standing.stack_cpu, place, called, current,
      ite_self]
    exact yields
  | enterIdle w => exact (agree.execute w).enterIdle available
  | idleYield w =>
    have ahead := agree.execute w
    have stands := available.2.2
    have place : s.place u w = .idle w := by rw [State.place, stands]; rfl
    have current : (g.execute w).tFiber w = some (.idle w) := by
      rw [ahead.standing.current w, if_pos (.inr (by rw [stands]; rfl)), place]
    have yields := ahead.idleYield consistent available
    simp only [Contexts.record, Move.thread, current]
    exact yields
  | checkStopping w quiet =>
    have ahead := agree.execute w
    by_cases ends : (quiet && s.stopping) = true
    · simp only [Contexts.record, ends, if_true]
      exact ahead.endIdle available ends
    · simp only [Contexts.record, ends]
      exact ahead.remainIdle available ends
  | leaveRun w =>
    by_cases root : u.root = some w
    · simp only [Contexts.record, root, if_true]
      exact (agree.execute w).endRoot root available
    · simp only [Contexts.record, root, if_false]
      exact (agree.execute w).endForeign root available
  | startRun w =>
    have ahead := agree.execute w
    have outside : (s.phase w).region.entered = false := by rw [available.2.2]; rfl
    have unused := ahead.standing.unentered w outside
    have alive := ahead.asserted.going w outside
    have entered : ContextsExact u (Scheduler.next s (.startRun w))
        (if u.root = some w then (g.execute w).resume u w .scheduler
          else (g.execute w).getThis w) := by
      split
      · exact ahead.startRoot ‹_› available
      · exact ahead.startForeign ‹_› available
    refine entered.constructIdle ?_ ?_
    · split <;> simpa using unused
    · simp [Scheduler.next, alive, Phase.region, Region.idleState]
  | _ => exact (agree.execute _).stay available rfl

/-- Why tasks have to return to the loop: a fiber constructed without `run_in_scheduler` and
resumed by the thread of `stop()` has the loop save itself where `stop()` had been saved. -/
theorem lost_of_not_scheduled (agree : ContextsExact u s g) (root : u.root = some w)
    (available : guard workers s (.switchIn w f)) (way : u.runInScheduler f = false) :
    ((g.record u s (.switchIn w f)).frames.ctx (.thread w)).stack = .scheduler := by
  have stands := available.2
  have ahead := (agree.execute w).standing
  have fiber : s.hasFiber u w := .inl root
  have place : s.place u w = .scheduler := by
    rw [State.place, stands]
    exact if_pos root
  have left : (g.execute w).other u w (.task f) = some (.thread w) := by
    simp [Contexts.other, Setup.inScheduler, way, ahead.own w, fiber]
  simp only [Contexts.record, Contexts.enter, Move.thread, left]
  have loaded := ahead.stack_cpu (w := w)
  simpa [Contexts.goOver, Stacks.swap, Stacks.save, Stacks.load, place] using loaded

instance decidableScheduled (u : Setup Tid Fib) (a : Move Tid Fib Cb) :
    Decidable (a.scheduled u) := by
  induction a using Move.casesOn <;> (dsimp only [Move.scheduled]; infer_instance)

end Steps

end Places

/-- The caller's thread is the only worker. It executes a fiber, which yields once, and then its
idle fiber, until that ends. -/
def stopped : List (Move ℕ ℕ ℕ) :=
  [.construct 0 7, .scheduleLock 0 ⟨some 7, none, none⟩, .hasIdleThreads 0 true, .stop 0,
    .startRun 0, .scan 0, .lockFiber 0 ⟨some 7, none, none⟩ 7, .checkState 0 7, .resume 0 7,
    .switchIn 0 7, .scheduleLock 0 ⟨some 7, none, none⟩, .hasIdleThreads 0 true, .yield 0 7,
    .switchOut 0 7, .unlockFiber 0 7, .finish 0, .scan 0, .lockFiber 0 ⟨some 7, none, none⟩ 7,
    .checkState 0 7, .resume 0 7, .switchIn 0 7, .terminate 0 7, .switchOut 0 7, .unlockFiber 0 7,
    .finish 0, .scan 0, .enterIdle 0, .checkStopping 0 true, .leaveIdle 0, .scan 0, .leaveRun 0]

end CoroutineService.Scheduler
