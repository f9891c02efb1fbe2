import CoroutineService.Containers.KeyedSet
import CoroutineService.Transition.Machine
import Mathlib.Algebra.Order.Ring.Int
import Mathlib.Order.Defs.LinearOrder
import Mathlib.Logic.Function.Basic

/-!
# Timers

`TimerManager` keeps its timers in a set ordered by `Timer::Comparator`, which
compares `m_next` alone. Time points are 64-bit counts of nanoseconds; every
reading of the system clock is an argument of the operation that takes it.

## Main definitions

* `Timer`, `TimerManager`: the objects
* `addTimer`, `cancel`, `refresh`, `reset`, `listExpiredCb`: the operations
* `timerMachine`: the operations one at a time
-/

set_option autoImplicit false

namespace CoroutineService.Timers

open CoroutineService.Containers CoroutineService.Transition

/-- Arithmetic on a 64-bit representation. -/
def wrap (t : ℤ) : ℤ := Int.bmod t (2 ^ 64)

/-- `t + std::chrono::milliseconds(ms)`, in nanoseconds. -/
def later (t : ℤ) (ms : ℕ) : ℤ := wrap (t + ms * 1000000)

/-- `t - std::chrono::milliseconds(ms)`. -/
def earlier (t : ℤ) (ms : ℕ) : ℤ := wrap (t - ms * 1000000)

variable {Cb : Type*}

/-- `Timer`. An empty `m_cb` is `none`. -/
structure Timer (Cb : Type*) where
  recurring : Bool
  ms : ℕ
  next : ℤ
  cb : Option Cb

/-- `TimerManager` and the timers it has made, named in the order of their
construction. `timers` is `m_timers` in order; `cbs` collects what `listExpiredCb`
hands out, with the timer it comes from. -/
structure TimerManager (Cb : Type*) where
  timer : ℕ → Timer Cb
  created : ℕ
  timers : List ℕ
  tickled : Bool
  previouseTime : ℤ
  cbs : List (ℕ × Option Cb)

namespace TimerManager

/-- A new manager, constructed at the time `now`. -/
def initial (now : ℤ) : TimerManager Cb where
  timer _ := ⟨false, 0, 0, none⟩
  created := 0
  timers := []
  tickled := false
  previouseTime := now
  cbs := []

variable (s : TimerManager Cb)

/-- What `Timer::Comparator` compares. -/
def key (t : ℕ) : ℤ := (s.timer t).next

/-- Write to the timer `t`. -/
def put (t : ℕ) (timer : Timer Cb) : TimerManager Cb :=
  { s with timer := Function.update s.timer t timer }

/-- `m_timers.insert`. -/
def insert (t : ℕ) : TimerManager Cb := { s with timers := insertBy s.key t s.timers }

/-- `m_timers.find` and `m_timers.erase` of what it found. -/
def erase (t : ℕ) : TimerManager Cb := { s with timers := eraseBy s.key t s.timers }

/-- `m_timers.find(timer) != m_timers.end()`. -/
def finds (t : ℕ) : Bool := (findBy s.key t s.timers).isSome

/-- `addTimer(std::shared_ptr<Timer>)`; the result tells whether
`onTimerInsertedAtFront` is called. -/
def addShared (t : ℕ) : Bool × TimerManager Cb :=
  let s := s.insert t
  let atFront := findBy s.key t s.timers = s.timers.head? ∧ s.tickled = false
  (atFront, if atFront then { s with tickled := true } else s)

/-- `addTimer(ms, cb, recurring)` at the time `now`; the new timer is `s.created`. -/
def addTimer (ms : ℕ) (cb : Option Cb) (recurring : Bool) (now : ℤ) : Bool × TimerManager Cb :=
  let t := s.created
  let s := { s with created := s.created + 1 }
  let s := s.put t ⟨recurring, ms, later now ms, cb⟩
  s.addShared t

/-- `Timer::cancel`. -/
def cancel (t : ℕ) : Bool × TimerManager Cb :=
  if (s.timer t).cb.isNone then (false, s)
  else
    let s := s.put t { s.timer t with cb := none }
    (true, if s.finds t then s.erase t else s)

/-- `Timer::refresh` at the time `now`. -/
def refresh (t : ℕ) (now : ℤ) : Bool × TimerManager Cb :=
  if (s.timer t).cb.isNone then (false, s)
  else if s.finds t = false then (false, s)
  else
    let s := s.erase t
    let s := s.put t { s.timer t with next := later now (s.timer t).ms }
    (true, s.insert t)

/-- `Timer::reset` at the time `now`. -/
def reset (t ms : ℕ) (fromNow : Bool) (now : ℤ) : Bool × TimerManager Cb :=
  if ms = (s.timer t).ms ∧ fromNow = false then (true, s)
  else if (s.timer t).cb.isNone then (false, s)
  else if s.finds t = false then (false, s)
  else
    let s := s.erase t
    let start := if fromNow then now else earlier (s.timer t).next (s.timer t).ms
    let s := s.put t { s.timer t with ms := ms, next := later start ms }
    (true, (s.addShared t).2)

/-- `detectClockRollover` at the time `now`. -/
def detectClockRollover (now : ℤ) : Bool × TimerManager Cb :=
  (now < earlier s.previouseTime (60 * 60 * 1000), { s with previouseTime := now })

/-- The condition of the loop in `listExpiredCb`. -/
def due (rollover : Bool) (now : ℤ) : Bool :=
  match s.timers with
  | [] => false
  | t :: _ => rollover || s.key t ≤ now

/-- The body of the loop. -/
def expireFirst (now : ℤ) : TimerManager Cb :=
  match s.timers with
  | [] => s
  | t :: rest =>
    let s := { s with timers := rest, cbs := s.cbs ++ [(t, (s.timer t).cb)] }
    if (s.timer t).recurring then
      (s.put t { s.timer t with next := later now (s.timer t).ms }).insert t
    else s.put t { s.timer t with cb := none }

/-- The loop, if it ends after at most that many rounds. A timer that is due again
at once keeps it running. -/
def expireLoop (rollover : Bool) (now : ℤ) : ℕ → TimerManager Cb → Option (TimerManager Cb)
  | 0, s => if s.due rollover now then none else some s
  | rounds + 1, s =>
    if s.due rollover now then expireLoop rollover now rounds (s.expireFirst now) else some s

/-- `listExpiredCb`, which reads the clock twice. -/
def listExpiredCb (now now' : ℤ) (rounds : ℕ) : Option (TimerManager Cb) :=
  let (rollover, s) := s.detectClockRollover now'
  expireLoop rollover now rounds s

variable {s} in
theorem exists_of_due {rollover : Bool} {now : ℤ} (more : s.due rollover now = true) :
    ∃ t rest, s.timers = t :: rest := by
  cases whole : s.timers with
  | nil => simp [due, whole] at more
  | cons t rest => exact ⟨t, rest, rfl⟩

/-- What is true where the loop ends, and before a round if it is true behind it, is true
of every set the loop may begin with. -/
@[elab_as_elim]
theorem expireLoop_rule {rollover : Bool} {now : ℤ} {s s' : TimerManager Cb}
    {motive : TimerManager Cb → Prop} (idle : ¬s'.due rollover now = true → motive s')
    (round : ∀ (s : TimerManager Cb) (rounds : ℕ), s.due rollover now = true →
      expireLoop rollover now rounds (s.expireFirst now) = some s' →
      motive (s.expireFirst now) → motive s)
    {rounds : ℕ} (ends : expireLoop rollover now rounds s = some s') : motive s := by
  induction rounds generalizing s with
  | zero =>
    unfold expireLoop at ends
    split at ends
    case isTrue => cases ends
    case isFalse spent => exact Option.some_inj.mp ends ▸ idle (Option.some_inj.mp ends ▸ spent)
  | succ rounds ih =>
    unfold expireLoop at ends
    split at ends
    case isTrue more => exact round s rounds more ends (ih ends)
    case isFalse spent => exact Option.some_inj.mp ends ▸ idle (Option.some_inj.mp ends ▸ spent)

end TimerManager

/-- The operations. A pass of `listExpiredCb` is labelled with a number of rounds
within which it ends. -/
inductive Move (Cb : Type*)
  | addTimer (ms : ℕ) (cb : Option Cb) (recurring : Bool) (now : ℤ)
  | cancel (t : ℕ)
  | refresh (t : ℕ) (now : ℤ)
  | reset (t ms : ℕ) (fromNow : Bool) (now : ℤ)
  | listExpiredCb (now now' : ℤ) (rounds : ℕ)

/-- The operations, run one at a time on timers that exist. -/
def timerMachine : Machine (TimerManager Cb) (Move Cb) where
  init s := ∃ now, s = TimerManager.initial now
  enabled s
    | .addTimer _ _ _ _ => True
    | .cancel t | .refresh t _ | .reset t _ _ _ => t < s.created
    | .listExpiredCb now now' rounds => (s.listExpiredCb now now' rounds).isSome = true
  next s
    | .addTimer ms cb recurring now => (s.addTimer ms cb recurring now).2
    | .cancel t => (s.cancel t).2
    | .refresh t now => (s.refresh t now).2
    | .reset t ms fromNow now => (s.reset t ms fromNow now).2
    | .listExpiredCb now now' rounds => (s.listExpiredCb now now' rounds).getD s

instance (s : TimerManager Cb) (a : Move Cb) : Decidable (timerMachine.enabled s a) := by
  cases a <;> (dsimp only [timerMachine]; infer_instance)

end CoroutineService.Timers
