import RoundRobin.Proofs.Host.Operation

/-!
# Ticks and sleep on the host

When the operations of the clock return on the host processor, and what they leave.
-/

namespace RoundRobin.Host

/-- The host after it was asked for a yield. -/
def yieldRequested (h : Host) : Host :=
  { h with yieldPending := true }

/-- The host after a tick was charged to the thread in `r`, with a request to yield at the end of
the slice. -/
def ticked (h : Host) (r : Nat) : Host :=
  let h := h.withScheduler (h.scheduler.charge r)
  if h.scheduler.sliceTicks ≥ Config.timeSlice then h.yieldRequested else h

end RoundRobin.Host

namespace RoundRobin.Scheduler

open Host

variable {h h' : Host} {u : Unit} {b : Nat}

theorem criticalSection_eq_ok_iff {α : Type} {body : HostM α} {a : α} :
    Port.criticalSection body h = .ok a h' ↔
      ∃ h₁, body (h.withLevel .off) = .ok a h₁ ∧ h' = h₁.withLevel h.level := by
  simp only [Port.criticalSection, bind_eq_ok_iff, disable_eq_ok_iff, setLevel_eq_ok_iff,
    pure_eq_ok_iff, and_assoc, exists_and_left, exists_eq_left]
  constructor
  · rintro ⟨a, h₁, hbody, rfl, rfl⟩
    exact ⟨h₁, hbody, rfl⟩
  · rintro ⟨h₁, hbody, rfl⟩
    exact ⟨a, h₁, hbody, rfl, rfl⟩

theorem requestYield_eq_ok_iff :
    (Port.requestYield : HostM Unit) h = .ok u h' ↔ h' = h.yieldRequested := by
  change EStateM.Result.ok () h.yieldRequested = _ ↔ _
  simp [eq_comm]

theorem readTicks_eq_ok_iff {n : Nat} :
    (readTicks : HostM Nat) h = .ok n h' ↔ n = h.scheduler.ticks ∧ h' = h := by
  simp only [readTicks, criticalSection_eq_ok_iff, bind_eq_ok_iff, get_eq_ok_iff,
    pure_eq_ok_iff, and_assoc, exists_and_left, exists_eq_left, scheduler_withLevel,
    withLevel_withLevel, withLevel_self]

theorem setPriority_eq_ok_iff {priority : Nat} :
    (setPriority priority : HostM Unit) h = .ok u h' ↔
      Thread.requirePriority priority = .ok () ∧ ∃ r, h.IsCurrent r ∧
        h' = h.withScheduler (h.scheduler.alter r fun t => { t with priority }) := by
  simp only [setPriority, criticalSection_eq_ok_iff, bind_eq_ok_iff, liftM_eq_ok_iff,
    current_eq_ok_iff, modifyThread_eq_ok_iff, and_assoc, exists_and_left, exists_eq_left,
    exists_unit]
  rfl

theorem sleepUntil_eq_ok_iff {wake : Nat} :
    (sleepUntil wake : HostM Unit) h = .ok u h' ↔
      h.inInterrupt = false ∧ h.level = .off ∧ ∃ r, h.IsCurrent r ∧ h.scheduler.idle ≠ some r ∧
        (h.scheduler.threads.get r).Free ∧
        (block : HostM Unit) (h.withScheduler (h.scheduler.putToSleep r wake)) = .ok u h' := by
  simp only [sleepUntil, bind_eq_ok_iff, inInterrupt_eq_ok_iff, level_eq_ok_iff, liftM_eq_ok_iff,
    require_eq_ok_iff, current_eq_ok_iff, isIdle_eq_ok_iff, modifyThread_eq_ok_iff,
    pushSleeper_eq_ok_iff, and_assoc, exists_and_left, exists_eq_left, exists_const,
    beq_eq_false_iff_ne, scheduler_withScheduler, withScheduler_withScheduler, get_alter, if_true,
    Option.some.injEq, exists_eq_left']
  rfl

theorem sleep_eq_ok_iff {n : Nat} :
    (sleep n : HostM Unit) h = .ok u h' ↔
      h.level = .on ∧ ((n = 0 ∧ h' = h) ∨
        (n ≠ 0 ∧ h.scheduler.ticks + n < Word.limit64 ∧ ∃ h₁,
          (sleepUntil (h.scheduler.ticks + n) : HostM Unit) (h.withLevel .off) = .ok () h₁ ∧
          h' = h₁.withLevel .on)) := by
  simp only [sleep, bind_eq_ok_iff, level_eq_ok_iff, liftM_eq_ok_iff, require_eq_ok_iff,
    ite_eq_ok_iff, readTicks_eq_ok_iff, disable_eq_ok_iff, Word.add_eq_ok_iff,
    setLevel_eq_ok_iff, pure_eq_ok_iff, and_assoc, exists_and_left, exists_eq_left, exists_eq_left',
    exists_const, exists_unit, not_not, true_and]
  constructor
  · rintro ⟨hlevel, ⟨hn, hlt, h₁, hrun, rfl⟩ | ⟨hn, rfl⟩⟩
    · exact ⟨hlevel, Or.inr ⟨hn, hlt, h₁, hrun, by rw [hlevel]⟩⟩
    · exact ⟨hlevel, Or.inl ⟨hn, rfl⟩⟩
  · rintro ⟨hlevel, ⟨hn, rfl⟩ | ⟨hn, hlt, h₁, hrun, rfl⟩⟩
    · exact ⟨hlevel, Or.inr ⟨hn, rfl⟩⟩
    · exact ⟨hlevel, Or.inl ⟨hn, hlt, h₁, hrun, by rw [hlevel]⟩⟩

/-- A sleep for a duration is a sleep for the whole ticks in it; below one tick nothing happens. -/
theorem sleepFor_eq_ok_iff {num denom : Nat} :
    (sleepFor num denom : HostM Unit) h = .ok u h' ↔
      num * Config.tickHz < Word.limit64 ∧ denom ≠ 0 ∧
        (num * Config.tickHz / denom = 0 →
          ∃ count, spinCount h.scheduler.loopsPerTick num denom = .ok count) ∧
        (sleep (num * Config.tickHz / denom) : HostM Unit) h = .ok u h' := by
  simp only [sleepFor, bind_eq_ok_iff, liftM_eq_ok_iff, Word.mul_eq_ok_iff, Word.div_eq_ok_iff,
    level_eq_ok_iff, require_eq_ok_iff, ite_eq_ok_iff, get_eq_ok_iff, pure_eq_ok_iff, and_assoc,
    exists_and_left, exists_eq_left, exists_eq_left', exists_const, true_and]
  refine and_congr_right fun _ => and_congr_right fun _ => ?_
  constructor
  · rintro ⟨hlevel, ⟨hpos, hsleep⟩ | ⟨hzero, count, hcount, rfl⟩⟩
    · exact ⟨fun hzero => absurd hzero (Nat.ne_of_gt hpos), hsleep⟩
    · rw [Nat.eq_zero_of_not_pos hzero]
      exact ⟨fun _ => ⟨count, hcount⟩, sleep_eq_ok_iff.mpr ⟨hlevel, Or.inl ⟨rfl, rfl⟩⟩⟩
  · rintro ⟨hspin, hsleep⟩
    obtain ⟨hlevel, ⟨hzero, rfl⟩ | ⟨hpos, -⟩⟩ := sleep_eq_ok_iff.mp hsleep
    · obtain ⟨count, hcount⟩ := hspin hzero
      exact ⟨hlevel, Or.inr ⟨by omega, count, hcount, rfl⟩⟩
    · exact ⟨hlevel, Or.inl ⟨Nat.pos_of_ne_zero hpos, hsleep⟩⟩

theorem wakeDue_eq_ok_iff_of_not_due {now count : Nat}
    (hdue : ¬ h.scheduler.sleepers.Due h.scheduler.threads now) :
    (wakeDue now count : HostM Unit) h = .ok u h' ↔ h' = h := by
  cases count with
  | zero => simp [wakeDue]
  | succ count =>
      simp only [wakeDue, bind_eq_ok_iff, popSleeper_eq_ok_iff]
      constructor
      · rintro ⟨_, _, ⟨-, rfl, rfl⟩ | ⟨t, rest, w, hcons, hw, hle, -⟩, hrest⟩
        · exact (pure_eq_ok_iff.mp hrest).2
        · exact absurd (SleepQueue.due_of_cons hcons hw hle) hdue
      · rintro rfl
        exact ⟨_, _, Or.inl ⟨hdue, rfl, rfl⟩, pure_eq_ok_iff.mpr ⟨rfl, rfl⟩⟩

theorem wakeDue_eq_ok_iff_of_due {now count wake : Nat} {rest : List Nat}
    (hcons : h.scheduler.sleepers.queue.members = b :: rest)
    (hwake : (h.scheduler.threads.get b).wakeTick = some wake) (hle : wake ≤ now) :
    (wakeDue now (count + 1) : HostM Unit) h = .ok u h' ↔
      (h.scheduler.threads.get b).owner = h.scheduler.sleepers.queue.kind ∧
        (h.scheduler.threads.get b).IsValid ∧ (h.scheduler.threads.get b).status = .blocked ∧
        (wakeDue now count : HostM Unit) (h.withScheduler (h.scheduler.rouse b)) = .ok u h' := by
  have hunblock : ∀ h₁, (unblock b : HostM Unit) (h.withScheduler
      ((h.scheduler.unshelve b).alter b fun c => { c with wakeTick := none })) = .ok () h₁ ↔
        (h.scheduler.threads.get b).IsValid ∧ (h.scheduler.threads.get b).status = .blocked ∧
          h₁ = h.withScheduler (h.scheduler.rouse b) := by
    intro h₁
    simp only [unblock_eq_ok_iff, scheduler_withScheduler, get_alter, get_unshelve, if_true,
      withScheduler_withScheduler]
    constructor
    · rintro ⟨hvalid, hblocked, -, rfl⟩
      exact ⟨hvalid, hblocked, rfl⟩
    · rintro ⟨hvalid, hblocked, rfl⟩
      exact ⟨hvalid, hblocked, ⟨rfl, rfl⟩, rfl⟩
  simp only [wakeDue, bind_eq_ok_iff, popSleeper_eq_ok_iff]
  constructor
  · rintro ⟨_, _, ⟨hdue, -⟩ | ⟨_, _, _, hcons', -, -, rfl, howner, rfl⟩, hrest⟩
    · exact absurd (SleepQueue.due_of_cons hcons hwake hle) hdue
    · cases hcons.symm.trans hcons'
      simp only [bind_eq_ok_iff, modifyThread_eq_ok_iff, exists_eq_left, exists_const,
        scheduler_withScheduler, withScheduler_withScheduler] at hrest
      obtain ⟨_, _, hrun, hrest⟩ := hrest
      obtain ⟨hvalid, hblocked, rfl⟩ := (hunblock _).mp hrun
      exact ⟨howner, hvalid, hblocked, hrest⟩
  · rintro ⟨howner, hvalid, hblocked, hrest⟩
    refine ⟨_, _, Or.inr ⟨b, rest, wake, hcons, hwake, hle, rfl, howner, rfl⟩, ?_⟩
    simp only [bind_eq_ok_iff, modifyThread_eq_ok_iff, exists_eq_left, exists_const,
      scheduler_withScheduler, withScheduler_withScheduler]
    exact ⟨(), _, (hunblock _).mpr ⟨hvalid, hblocked, rfl⟩, hrest⟩

/-- The loop of the alarm touches the state of the scheduler alone. -/
theorem frame_wakeDue {now count : Nat} (hrun : (wakeDue now count : HostM Unit) h = .ok u h') :
    h' = h.withScheduler h'.scheduler := by
  induction count generalizing h with
  | zero =>
      obtain ⟨-, rfl⟩ := pure_eq_ok_iff.mp hrun
      rfl
  | succ count ih =>
      by_cases hdue : h.scheduler.sleepers.Due h.scheduler.threads now
      · obtain ⟨wake, hwake, hle⟩ := hdue
        obtain ⟨b, hhead, htick⟩ := Option.bind_eq_some_iff.mp hwake
        obtain ⟨rest, hmembers⟩ := List.head?_eq_some_iff.mp hhead
        rw [wakeDue_eq_ok_iff_of_due hmembers htick hle] at hrun
        have hrest := ih hrun.2.2.2
        exact hrest
      · rw [wakeDue_eq_ok_iff_of_not_due hdue] at hrun
        subst hrun
        rfl

theorem wake_eq_ok_iff {now : Nat} :
    (wake now : HostM Unit) h = .ok u h' ↔
      (wakeDue now h.scheduler.sleepers.queue.members.length : HostM Unit) h = .ok u h' := by
  simp only [wake, bind_eq_ok_iff, get_eq_ok_iff, and_assoc, exists_and_left, exists_eq_left]

theorem set_withStats_eq_ok_iff {s : Scheduler} {stats : TickStats} :
    (set { s with stats } : HostM PUnit) h = .ok u h' ↔ h' = h.withScheduler (s.withStats stats) :=
  set_eq_ok_iff

theorem modify_withSlice_eq_ok_iff {sliceTicks : Nat} :
    (modify fun s => { s with sliceTicks } : HostM PUnit) h = .ok u h' ↔
      h' = h.withScheduler (h.scheduler.withSlice sliceTicks) :=
  modify_eq_ok_iff

theorem tick_eq_ok_iff :
    (tick : HostM Unit) h = .ok u h' ↔
      ∃ r, h.IsCurrent r ∧ h.scheduler.tally r + 1 < Word.limit64 ∧
        h.scheduler.sliceTicks + 1 < Word.limit32 ∧ h' = h.ticked r := by
  simp only [tick, bind_eq_ok_iff, current_eq_ok_iff, get_eq_ok_iff, isIdle_eq_ok_iff,
    ite_eq_ok_iff, thread_eq_ok_iff, liftM_eq_ok_iff, Word.add_eq_ok_iff, set_withStats_eq_ok_iff,
    modify_withSlice_eq_ok_iff, requestYield_eq_ok_iff, pure_eq_ok_iff, and_assoc,
    exists_and_left, exists_eq_left, exists_eq_left', exists_const, beq_iff_eq,
    scheduler_withScheduler, withScheduler_withScheduler]
  have hyield : ∀ g : Host, ((h.scheduler.sliceTicks + 1 ≥ Config.timeSlice ∧
      h' = g.yieldRequested) ∨ (¬ h.scheduler.sliceTicks + 1 ≥ Config.timeSlice ∧ True ∧ h' = g)) ↔
        h' = if h.scheduler.sliceTicks + 1 ≥ Config.timeSlice then g.yieldRequested else g := by
    intro g
    split <;> simp [*]
  refine exists_congr fun r => and_congr_right fun _ => ?_
  have hticked : h.ticked r = if h.scheduler.sliceTicks + 1 ≥ Config.timeSlice then
      (h.withScheduler (h.scheduler.charge r)).yieldRequested
      else h.withScheduler (h.scheduler.charge r) := rfl
  rw [hticked]
  simp only [hyield, charge, charged, tally]
  by_cases hidle : h.scheduler.idle = some r
  · simp only [hidle, true_and, not_true_eq_false, false_and, or_false, if_true]
  · by_cases huser : (h.scheduler.threads.get r).isUser
    · simp only [hidle, huser, true_and, not_true_eq_false, not_false_eq_true, false_and,
        or_false, false_or, if_true, if_false]
    · simp only [hidle, huser, true_and, not_false_eq_true, false_and, false_or, if_false,
        Bool.false_eq_true]

theorem timerInterrupt_eq_ok_iff :
    (timerInterrupt : HostM Unit) h = .ok u h' ↔
      h.scheduler.ticks + 1 < Word.limit64 ∧ ∃ h₁,
        (tick : HostM Unit) (h.withScheduler h.scheduler.advance) = .ok () h₁ ∧
        (wake (h.scheduler.ticks + 1) : HostM Unit) h₁ = .ok u h' := by
  simp only [timerInterrupt, bind_eq_ok_iff, get_eq_ok_iff, liftM_eq_ok_iff, Word.add_eq_ok_iff,
    modify_eq_ok_iff, and_assoc, exists_and_left, exists_eq_left, exists_eq_left', exists_const,
    exists_unit]
  rfl

end RoundRobin.Scheduler
