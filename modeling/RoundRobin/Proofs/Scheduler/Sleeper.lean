import RoundRobin.Proofs.Scheduler.Frame

/-!
# The life of a sleeper

How a thread falls asleep, what advances the tick counter, and which sleepers a tick wakes.
-/

namespace RoundRobin.Scheduler

variable {s s' s₁ : Scheduler} {b r n sp sp' now wake : Nat} {a : Action}

/-- The tick counter, the charges and the calibrated speed are the same. -/
structure SameClock (s s' : Scheduler) : Prop where
  ticks : s'.ticks = s.ticks
  stats : s'.stats = s.stats
  loopsPerTick : s'.loopsPerTick = s.loopsPerTick

theorem Reclaimed.sameClock (h : Reclaimed s s') : SameClock s s' := by
  cases h <;> exact ⟨rfl, rfl, rfl⟩

theorem Woken.sameClock (h : Woken now s s') : SameClock s s' := by
  induction h with
  | done => exact ⟨rfl, rfl, rfl⟩
  | next _ _ _ _ ih => exact ⟨ih.ticks, ih.stats, ih.loopsPerTick⟩

theorem Departs.sameClock (hd : Departs s r a s₁) : SameClock s s₁ := by
  cases hd with
  | idles _ hback | exits _ hback =>
      exact ⟨hback.sameClock.ticks, hback.sameClock.stats, hback.sameClock.loopsPerTick⟩
  | yields _ hback =>
      exact ⟨hback.sameClock.ticks, hback.sameClock.stats, hback.sameClock.loopsPerTick⟩
  | blocks => exact ⟨rfl, rfl, rfl⟩
  | sleeps => exact ⟨rfl, rfl, rfl⟩

theorem Dispatched.sameClock (hd : Dispatched s sp r s' sp' n) : SameClock s s' := by
  have helect : ∀ n, SameClock s (s.elect n) := by
    intro n
    rw [elect_def, dequeue_frame]
    exact ⟨rfl, rfl, rfl⟩
  have hpark : ∀ s : Scheduler, SameClock s (s.park r) := by
    intro s
    unfold park
    split <;> exact ⟨rfl, rfl, rfl⟩
  cases hd with
  | stay => exact helect r
  | switch =>
      have hleft := hpark (s.elect n)
      exact ⟨hleft.ticks.trans (helect n).ticks, hleft.stats.trans (helect n).stats,
        hleft.loopsPerTick.trans (helect n).loopsPerTick⟩

/-- Only the tick handler advances the tick counter. -/
theorem Step.ticks_eq (hstep : Step s sp r a s' sp' n) :
    s'.ticks = if a = .interrupt then s.ticks + 1 else s.ticks := by
  cases hstep with
  | counted => rfl
  | prioritised => rfl
  | unblocked => rfl
  | created => rfl
  | departed hdeparts hdispatched =>
      rw [hdispatched.sameClock.ticks, hdeparts.sameClock.ticks, if_neg]
      rintro rfl
      cases hdeparts
  | woke hwoken => exact hwoken.sameClock.ticks
  | interrupted _ _ hwoken => exact hwoken.sameClock.ticks

/-- Only ticks are charged. -/
theorem Step.stats_eq (hstep : Step s sp r a s' sp' n) (hcount : a ≠ .count)
    (hinterrupt : a ≠ .interrupt) : s'.stats = s.stats := by
  cases hstep with
  | counted => exact absurd rfl hcount
  | prioritised => rfl
  | unblocked => rfl
  | created => rfl
  | departed hdeparts hdispatched =>
      exact hdispatched.sameClock.stats.trans hdeparts.sameClock.stats
  | woke hwoken => exact hwoken.sameClock.stats
  | interrupted => exact absurd rfl hinterrupt

/-- No step calibrates. -/
theorem Step.loopsPerTick_eq (hstep : Step s sp r a s' sp' n) :
    s'.loopsPerTick = s.loopsPerTick := by
  cases hstep with
  | counted => rfl
  | prioritised => rfl
  | unblocked => rfl
  | created => rfl
  | departed hdeparts hdispatched =>
      exact hdispatched.sameClock.loopsPerTick.trans hdeparts.sameClock.loopsPerTick
  | woke hwoken => exact hwoken.sameClock.loopsPerTick
  | interrupted _ _ hwoken => exact hwoken.sameClock.loopsPerTick

/-- A thread that goes to sleep is on the sleep queue after the switch to another one. -/
theorem Step.falls_asleep (hstep : Step s sp r (.sleep wake) s' sp' n) (h : s.Settled Active r) :
    s'.threads.get r =
      { s.threads.get r with
        owner := .sleep, linked := true, wakeTick := some wake, status := .blocked,
        context.sp := sp } := by
  cases hstep with
  | departed hdeparts hdispatched =>
      have hleft := hdeparts.settled h
      cases hdeparts with
      | sleeps hother =>
          have hget : ((s.putToSleep r wake).mark r .blocked).threads.get r =
              { s.threads.get r with
                owner := .sleep, linked := true, wakeTick := some wake, status := .blocked } := by
            rw [get_mark, if_pos rfl, get_putToSleep, if_pos rfl, h.linked.sleep.kind_eq]
          rw [hdispatched.get_of_left hleft, hget]
          · rw [hget]
            simp
          · exact hother
          · rw [hget]
            simp

theorem Step.get_of_later (hstep : Step s sp r .interrupt s' sp' n)
    (hwake : (s.threads.get b).wakeTick = some wake) (hlater : s.ticks + 1 < wake) :
    s'.threads.get b = s.threads.get b := by
  cases hstep with
  | departed hdeparts => cases hdeparts
  | interrupted stats sliceTicks hwoken => exact hwoken.get_of_later hwake hlater

theorem Step.get_of_due (hstep : Step s sp r .interrupt s' sp' n) (h : s.Settled Active r)
    (howner : (s.threads.get b).owner = .sleep) (hwake : (s.threads.get b).wakeTick = some wake)
    (hdue : wake ≤ s.ticks + 1) :
    s'.threads.get b =
      { s.threads.get b with
        owner := .ready, linked := true, wakeTick := none, status := .ready } := by
  cases hstep with
  | departed hdeparts => cases hdeparts
  | interrupted stats sliceTicks hwoken =>
      exact hwoken.get_of_due (h.advance.counted stats sliceTicks) howner hwake hdue

theorem Step.later_of_asleep (hstep : Step s sp r .interrupt s' sp' n) (h : s.Settled Active r)
    (howner : (s'.threads.get b).owner = .sleep) :
    ∃ wake, (s'.threads.get b).wakeTick = some wake ∧ s'.ticks < wake := by
  cases hstep with
  | departed hdeparts => cases hdeparts
  | interrupted stats sliceTicks hwoken =>
      rw [hwoken.sameClock.ticks]
      exact hwoken.later_of_asleep (h.advance.counted stats sliceTicks) howner

end RoundRobin.Scheduler
