import CoroutineService.Timers.Termination

/-!
# What a pass fires

A pass of `listExpiredCb` is to take the timers whose time has come out of the set, the
earliest first, and to leave the others alone. It puts the recurring ones back while it is
still going through the set. With a new deadline in the future they come to stand among
the timers that are not touched. A new deadline that is not in the future, which the
conversion of `m_ms` to a signed duration and the addition to the clock make possible,
brings the timer back into the pass.

## Main definitions

* `TimerManager.expired`: the timers whose time has come
* `TimerManager.FiresExpired`: what a pass is to do

## Main results

* `firesExpired_of_drains`: a pass over a set that drains fires exactly the expired timers
* `firesExpired_iff_drains`: a pass over any other set does not
-/

set_option autoImplicit false

namespace CoroutineService.Timers

open CoroutineService.Containers CoroutineService.Transition

variable {Cb : Type*}

namespace TimerManager

variable {s s' : TimerManager Cb} {t u : ℕ} {now : ℤ} {rest : List ℕ}

/-- The timers whose time has come, in the order of their deadlines. -/
def expired (s : TimerManager Cb) (now : ℤ) : List ℕ := s.timers.filter fun t => s.key t ≤ now

/-- A pass at the time `now` that begins with `s` and ends with `s'` hands out the
callbacks of the expired timers in the order of their deadlines, leaves the other timers
as they are, and takes the callback from the expired timers that do not recur. No timer is
left that has expired. -/
structure FiresExpired (s s' : TimerManager Cb) (now : ℤ) : Prop where
  inOrder : SortedBy s.key (s.expired now)
  fires : s'.cbs = s.cbs ++ (s.expired now).map fun t => (t, (s.timer t).cb)
  spares : ∀ t ∈ s.timers, now < s.key t → t ∈ s'.timers ∧ s'.timer t = s.timer t
  clears : ∀ t ∈ s.expired now, (s.timer t).recurring = false → (s'.timer t).cb = none
  ends : ∀ t ∈ s'.timers, now < s'.key t

theorem Ordered.sorted_expired (ordered : s.Ordered) : SortedBy s.key (s.expired now) :=
  ordered.sorted.sublist List.filter_sublist

/-! ### One round -/

theorem cbs_expireFirst (whole : s.timers = t :: rest) :
    (s.expireFirst now).cbs = s.cbs ++ [(t, (s.timer t).cb)] := by
  unfold expireFirst
  rw [whole]
  dsimp only
  split <;> rfl

/-- A timer that does not recur loses its callback. -/
theorem timer_expireFirst_once (whole : s.timers = t :: rest)
    (once : ¬(s.timer t).recurring = true) :
    (s.expireFirst now).timer t = { s.timer t with cb := none } := by
  unfold expireFirst
  rw [whole]
  dsimp only
  rw [if_neg once]
  exact Function.update_self _ _ _

/-- The first timer of a set that is due has expired, and a round of a set that drains
leaves the other expired timers to the rounds behind it. -/
theorem Drains.expired_eq (drains : s.Drains false now) (ordered : s.Ordered)
    (whole : s.timers = t :: rest) (due : DueAt false now (s.key t)) :
    s.expired now = t :: (s.expireFirst now).expired now := by
  obtain ⟨out, -, -⟩ := ordered.pop whole []
  have reached : s.key t ≤ now := due.resolve_left Bool.false_ne_true
  have behind : rest.filter (fun u => (s.expireFirst now).key u ≤ now) =
      rest.filter fun u => s.key u ≤ now := by
    refine List.filter_congr fun u mem => ?_
    rw [key_expireFirst now whole (ne_of_mem_of_not_mem mem out)]
  have first : s.expired now = t :: rest.filter fun u => s.key u ≤ now := by
    unfold expired
    rw [whole, List.filter_cons_of_pos (by simpa using reached)]
  rw [first, ← behind]
  unfold expired
  by_cases recurring : (s.timer t).recurring = true
  · rcases drains.not_due ordered whole due recurring with refused | ahead
    · rw [refused]
    · -- the timer is back, but the pass does not see it again
      rw [timers_expireFirst_recurring whole recurring, filter_insertBy]
      refine decide_eq_false fun again => ahead (.inr ?_)
      rwa [key_expireFirst_recurring now whole recurring] at again
  · rw [timers_expireFirst_once whole recurring]

/-! ### The whole pass -/

/-- The loop writes to timers of the set only. -/
theorem timer_expireLoop_of_notMem {rollover : Bool} {rounds : ℕ}
    (ends : expireLoop rollover now rounds s = some s') (out : t ∉ s.timers) :
    s'.timer t = s.timer t := by
  revert out
  refine expireLoop_rule (fun _ _ => rfl) (fun s _ more _ onward out => ?_) ends
  obtain ⟨first, rest, whole⟩ := exists_of_due more
  have other : t ≠ first := fun here => out (by rw [whole, here]; exact List.mem_cons_self)
  have out' : t ∉ (s.expireFirst now).timers := fun mem => by
    rcases mem_expireFirst whole mem with here | behind
    · exact other here
    · exact out (whole ▸ List.mem_cons_of_mem first behind)
  exact (onward out').trans (timer_expireFirst now whole other)

/-- Where the loop stops, no timer has expired. -/
theorem Ordered.firesExpired_idle (ordered : s.Ordered) (idle : ¬s.due false now = true) :
    FiresExpired s s now := by
  have ahead : ∀ t ∈ s.timers, now < s.key t := fun t mem =>
    not_le.mp fun reached => idle (ordered.due_of_mem mem (.inr reached))
  have none : s.expired now = [] :=
    List.filter_eq_nil_iff.mpr fun t mem => by simpa using ahead t mem
  refine ⟨ordered.sorted_expired, ?_, fun t mem _ => ⟨mem, rfl⟩, ?_, ahead⟩
  · rw [none, List.map_nil, List.append_nil]
  · rw [none]
    exact fun t mem => absurd mem List.not_mem_nil

/-- What the rest of the loop does after a round, seen from before the round. -/
theorem FiresExpired.of_expireFirst {rounds : ℕ} (drains : s.Drains false now)
    (ordered : s.Ordered) (whole : s.timers = t :: rest) (due : DueAt false now (s.key t))
    (loop : expireLoop false now rounds (s.expireFirst now) = some s')
    (fires : FiresExpired (s.expireFirst now) s' now) : FiresExpired s s' now := by
  obtain ⟨out, -, -⟩ := ordered.pop whole []
  have reached : s.key t ≤ now := due.resolve_left Bool.false_ne_true
  have whole' := drains.expired_eq ordered whole due
  have other : ∀ u ∈ s.timers, now < s.key u → u ≠ t := by
    rintro u - ahead rfl
    exact absurd reached (not_le.mpr ahead)
  -- the expired timers behind the first one are those of the tail of the set
  have behind : ∀ u ∈ (s.expireFirst now).expired now, u ≠ t := by
    have sorted : SortedBy s.key (s.expired now) := ordered.sorted_expired
    rw [whole'] at sorted
    rintro u mem rfl
    exact lt_irrefl _ ((List.pairwise_cons.mp sorted).1 u mem)
  refine ⟨ordered.sorted_expired, ?_, ?_, ?_, fires.ends⟩
  · have same : ((s.expireFirst now).expired now).map
        (fun u => (u, ((s.expireFirst now).timer u).cb)) =
          ((s.expireFirst now).expired now).map fun u => (u, (s.timer u).cb) := by
      refine List.map_congr_left fun u mem => ?_
      rw [timer_expireFirst now whole (behind u mem)]
    rw [fires.fires, cbs_expireFirst whole, whole', same, List.append_assoc, List.map_cons,
      List.singleton_append]
  · intro u mem ahead
    have apart := other u mem ahead
    have stays : u ∈ (s.expireFirst now).timers := by
      refine mem_expireFirst_of_mem whole ?_
      rw [whole] at mem
      exact (List.mem_cons.mp mem).resolve_left apart
    obtain ⟨mem', same⟩ := fires.spares u stays (by rwa [key_expireFirst now whole apart])
    exact ⟨mem', same.trans (timer_expireFirst now whole apart)⟩
  · intro u mem once
    rw [whole'] at mem
    rcases List.mem_cons.mp mem with rfl | later
    · -- the first timer is gone for good, and nothing writes to it any more
      have gone : ¬(s.timer u).recurring = true := by simp [once]
      have out' : u ∉ (s.expireFirst now).timers := by
        rw [timers_expireFirst_once whole gone]
        exact out
      rw [timer_expireLoop_of_notMem loop out', timer_expireFirst_once whole gone]
    · refine fires.clears u later ?_
      rw [timer_expireFirst now whole (behind u later)]
      exact once

/-- A pass over a set that drains fires the expired timers and nothing else. -/
theorem firesExpired_of_drains {rounds : ℕ} (drains : s.Drains false now) (ordered : s.Ordered)
    (loop : expireLoop false now rounds s = some s') : FiresExpired s s' now := by
  revert drains ordered
  refine expireLoop_rule (fun idle _ ordered => ordered.firesExpired_idle idle)
    (fun s _ more loop onward drains ordered => ?_) loop
  obtain ⟨t, rest, whole⟩ := exists_of_due more
  have first := (due_cons whole).mp more
  have fires := onward (drains.expireFirst ordered whole first) ordered.expireFirst
  exact fires.of_expireFirst drains ordered whole first loop

end TimerManager

open TimerManager

/-- A pass fires the expired timers if and only if no recurring one among them comes back
into it. -/
theorem firesExpired_iff_drains (s : TimerManager Cb) (ordered : s.Ordered) (now now' : ℤ)
    (forward : (s.detectClockRollover now').1 = false) :
    (∃ rounds s', s.listExpiredCb now now' rounds = some s' ∧ FiresExpired s s' now) ↔
      s.Drains false now := by
  have noted : (s.detectClockRollover now').2.Ordered := ⟨ordered.sorted, ordered.known⟩
  have pass (rounds : ℕ) : s.listExpiredCb now now' rounds =
      expireLoop false now rounds (s.detectClockRollover now').2 := by
    unfold listExpiredCb
    rw [← forward]
  simp only [pass]
  constructor
  · rintro ⟨rounds, s', loop, -⟩
    exact drains_of_expireLoop (s := (s.detectClockRollover now').2) noted
      (Option.isSome_iff_exists.mpr ⟨s', loop⟩)
  · intro drains
    have ends := expireLoop_ends (s := (s.detectClockRollover now').2) drains noted le_rfl
    obtain ⟨s', loop⟩ := Option.isSome_iff_exists.mp ends
    have fires := firesExpired_of_drains (s := (s.detectClockRollover now').2) drains noted loop
    exact ⟨_, s', loop, fires.inOrder, fires.fires, fires.spares, fires.clears, fires.ends⟩

/-- A second later one of the two timers is put back and the other one is not. -/
theorem firesExpired_twoTimers :
    ∃ rounds s', twoTimers.listExpiredCb 7201000000000 7201000000000 rounds = some s' ∧
      FiresExpired twoTimers s' 7201000000000 :=
  (firesExpired_iff_drains twoTimers (ordered_of_reachable reachable_twoTimers) 7201000000000
    7201000000000 (by decide +kernel)).mpr (by decide +kernel)

/-- A timer that recurs with the largest 64-bit period, which as a duration is one
millisecond back. -/
def endless : TimerManager Unit :=
  timerMachine.after (TimerManager.initial 7200000000000)
    [.addTimer (2 ^ 64 - 1) (some ()) true 7200000000000]

theorem reachable_endless : timerMachine.Reachable endless := by
  have starts : timerMachine.init (TimerManager.initial 7200000000000 : TimerManager Unit) :=
    ⟨_, rfl⟩
  have follows : timerMachine.Follows (fun _ _ => True)
      (TimerManager.initial 7200000000000 : TimerManager Unit)
      [.addTimer (2 ^ 64 - 1) (some ()) true 7200000000000] := by
    decide +kernel
  exact (Machine.Reaches.start starts).follow follows

/-- With a 64-bit period of at least a millisecond, and without a rollover of the clock, a
pass may be kept from its end by one timer. -/
theorem not_firesExpired :
    ¬ ∀ s : TimerManager Unit, s.Ordered → ∀ now now',
      (s.detectClockRollover now').1 = false →
      (∀ t ∈ s.timers, (s.timer t).recurring = true →
        1 ≤ (s.timer t).ms ∧ (s.timer t).ms < 2 ^ 64) →
      ∃ rounds s', s.listExpiredCb now now' rounds = some s' ∧ FiresExpired s s' now := by
  intro fires
  have ordered := ordered_of_reachable reachable_endless
  obtain ⟨rounds, s', loop, -⟩ :=
    fires endless ordered 7200000000000 7200000000000 (by decide +kernel) (by decide +kernel)
  have ends : (endless.listExpiredCb 7200000000000 7200000000000 rounds).isSome = true := by
    rw [loop]
    rfl
  have drains := drains_of_expireLoop
    (s := (endless.detectClockRollover 7200000000000).2) ⟨ordered.sorted, ordered.known⟩ ends
  have stuck : ¬(endless.detectClockRollover 7200000000000).2.Drains
      (endless.detectClockRollover 7200000000000).1 7200000000000 := by
    decide +kernel
  exact stuck drains

end CoroutineService.Timers
