import RoundRobin.Proofs.Host.Clock
import RoundRobin.Proofs.Scheduler.Step

/-!
# The steps behind the operations

Every operation of the scheduler that returns on the host amounts to one step of the scheduling
state.
-/

namespace RoundRobin.Host

open Scheduler

variable {h h' : Host} {u : Unit} {b c r : Nat}

/-- Between the hosts `h` and `h'` the action `a` was taken in the thread in `r`, and `n` runs
after it. -/
abbrev Takes (h : Host) (r : Nat) (a : Action) (h' : Host) (n : Nat) : Prop :=
  Step h.scheduler h.sp r a h'.scheduler h'.sp n

theorem here_unique (hb : Block.containing h.sp = .ok b) (hc : Block.containing h.sp = .ok c) :
    b = c := by
  rw [hb] at hc
  exact Except.ok.inj hc

/-- An action that changes nothing at all. -/
theorem takes_nothing (h : Host) (r : Nat) : h.Takes r .count h r :=
  .counted h.scheduler.stats h.scheduler.sliceTicks

theorem Dispatches.dispatched (hd : h.Dispatches r c) :
    Dispatched h.scheduler h.sp r (h.dispatched r c).scheduler (h.dispatched r c).sp c := by
  unfold Host.dispatched
  by_cases hne : r = c
  · subst hne
    rw [if_pos rfl]
    exact .stay hd.next
  · rw [if_neg hne]
    exact .switch hd.next hne

theorem dispatched_of_schedule (hsp : Block.containing h.sp = .ok r)
    (hrun : (schedule : HostM Unit) h = .ok u h') :
    ∃ n, Dispatched h.scheduler h.sp r h'.scheduler h'.sp n := by
  obtain ⟨source, n, hd, rfl⟩ := schedule_eq_ok_iff.mp hrun
  obtain rfl := here_unique hsp hd.here
  exact ⟨n, hd.dispatched⟩

theorem reclaimed_of_reclaim (hs : h.scheduler.Reclaimable)
    (hrun : (reclaim r h.scheduler.destruction.members.length : HostM Unit) h = .ok u h') :
    Reclaimed h.scheduler h'.scheduler ∧ h'.sp = h.sp := by
  have hfew := hs.few
  cases hmembers : h.scheduler.destruction.members with
  | nil =>
      rw [reclaim_eq_ok_iff_of_nil hmembers] at hrun
      subst hrun
      exact ⟨.none hmembers, rfl⟩
  | cons b rest =>
      obtain rfl : rest = [] := by
        rw [hmembers, List.length_cons] at hfew
        exact List.eq_nil_of_length_eq_zero (by omega)
      rw [hmembers, List.length_singleton, reclaim_eq_ok_iff_of_cons hmembers] at hrun
      obtain ⟨-, -, pool, hfree, hrest⟩ := hrun
      obtain ⟨k, hk, rfl⟩ := Pool.mem_blocksInUse.mp
        (hs.pooled b (by rw [hmembers]; exact List.mem_cons_self))
      obtain ⟨-, rfl⟩ := hs.placed.vacated_of_free hk hfree
      have hempty : (h.reaped (h.scheduler.pool.slotAddress k)
          (h.scheduler.pool.vacated k)).scheduler.destruction.members = [] := by
        change h.scheduler.destruction.members.tail = []
        rw [hmembers]
        rfl
      rw [reclaim_eq_ok_iff_of_nil hempty] at hrest
      subst hrest
      exact ⟨.one hmembers hk rfl, rfl⟩

theorem dispatched_of_doSchedule (hs : h.scheduler.Reclaimable)
    (hsp : Block.containing h.sp = .ok r) {status : Status}
    (hrun : (doSchedule status : HostM Unit) h = .ok u h') :
    ∃ s, Reclaimed h.scheduler s ∧
      ∃ n, Dispatched (s.mark r status) h.sp r h'.scheduler h'.sp n := by
  obtain ⟨-, r', hcurrent, h₁, hreclaim, hschedule⟩ := doSchedule_eq_ok_iff.mp hrun
  obtain rfl := here_unique hsp hcurrent.here
  obtain ⟨hreclaimed, hsame⟩ := reclaimed_of_reclaim hs hreclaim
  refine ⟨h₁.scheduler, hreclaimed, ?_⟩
  have hsp₁ : Block.containing (h₁.withScheduler (h₁.scheduler.mark r status)).sp = .ok r := by
    rw [sp_withScheduler, hsame]
    exact hsp
  rw [← hsame]
  exact dispatched_of_schedule hsp₁ hschedule

theorem takes_block (hsp : Block.containing h.sp = .ok r)
    (hrun : (block : HostM Unit) h = .ok u h') : ∃ n, h.Takes r .block h' n := by
  obtain ⟨-, -, r', hcurrent, hschedule⟩ := block_eq_ok_iff.mp hrun
  obtain rfl := here_unique hsp hcurrent.here
  obtain ⟨n, hd⟩ :=
    dispatched_of_schedule (h := h.withScheduler (h.scheduler.mark r .blocked)) hsp hschedule
  exact ⟨n, .departed .blocks hd⟩

theorem takes_idlePass (hsp : Block.containing h.sp = .ok r)
    (hrun : (idlePass : HostM Unit) h = .ok u h') : ∃ n, h.Takes r .block h' n := by
  obtain ⟨h₁, hblock, -, rfl⟩ := idlePass_eq_ok_iff.mp hrun
  obtain ⟨n, hn⟩ := takes_block (h := h.withLevel .off) hsp hblock
  exact ⟨n, hn⟩

section

variable (hs : h.scheduler.Reclaimable) (hsp : Block.containing h.sp = .ok r)

include hs hsp

theorem takes_yieldNow (hrun : (yieldNow : HostM Unit) h = .ok u h') :
    ∃ n, h.Takes r .yield h' n := by
  obtain ⟨-, r', hcurrent, h₁, ⟨hidle, hdo⟩ | ⟨hidle, -, hdo⟩, rfl⟩ := yieldNow_eq_ok_iff.mp hrun
  · obtain rfl := here_unique hsp hcurrent.here
    obtain ⟨s, hreclaimed, n, hd⟩ := dispatched_of_doSchedule (h := h.withLevel .off) hs hsp hdo
    exact ⟨n, .departed (.idles hidle hreclaimed) hd⟩
  · obtain rfl := here_unique hsp hcurrent.here
    have hqueued : (h.scheduler.enqueue r).Reclaimable := ⟨hs.placed, hs.few, hs.pooled⟩
    obtain ⟨s, hreclaimed, n, hd⟩ :=
      dispatched_of_doSchedule (h := (h.withLevel .off).withScheduler (h.scheduler.enqueue r))
        hqueued hsp hdo
    exact ⟨n, .departed (.yields hidle hreclaimed) hd⟩

/-- Whoever exits, a thread that exited before is taken back and another thread is dispatched. -/
theorem dispatched_of_retire (hrun : (retire : HostM Unit) h = .ok u h') :
    ∃ s, Reclaimed h.scheduler s ∧
      ∃ n, Dispatched (s.mark r .dying) h.sp r h'.scheduler h'.sp n := by
  obtain ⟨-, r', hcurrent, hdo⟩ := retire_eq_ok_iff.mp hrun
  obtain rfl := here_unique hsp hcurrent.here
  exact dispatched_of_doSchedule (h := (h.withLevel .off).logged _) hs hsp hdo

theorem takes_retire (hidle : h.scheduler.idle ≠ some r)
    (hrun : (retire : HostM Unit) h = .ok u h') : ∃ n, h.Takes r .exit h' n := by
  obtain ⟨s, hreclaimed, n, hd⟩ := dispatched_of_retire hs hsp hrun
  exact ⟨n, .departed (.exits hidle hreclaimed) hd⟩

end

theorem takes_unblock (hlive : h.scheduler.Live b)
    (hrun : (unblock b : HostM Unit) h = .ok u h') : h.Takes r (.unblock b) h' r := by
  obtain ⟨-, hblocked, hfree, rfl⟩ := unblock_eq_ok_iff.mp hrun
  exact .unblocked hlive hfree hblocked

/-- Where a thread is created, and what its control block holds. -/
theorem Spawns.spawned {name : String} {priority entry arg : Nat}
    (hspawn : h.Spawns name priority entry arg b h') (hplaced : h.scheduler.pool.Placed) :
    ∃ k t context, h.scheduler.pool.freeSlot? = some k ∧ h.scheduler.pool.slotAddress k = b ∧
      (t.Free ∧ t.status = .blocked ∧ t.wakeTick = none ∧ t.IsValid) ∧
      Block.containing context.sp = .ok b ∧ h.scheduler.pool.allocs + 1 < Word.limit64 ∧
      h'.scheduler = h.scheduler.spawned k t context ∧ h'.sp = h.sp := by
  obtain ⟨pool, threads, t, top, halloc, hnew, -, htop, rfl⟩ := hspawn
  obtain ⟨k, hslot, hroom, rfl, rfl, rfl⟩ := Pool.alloc_eq_some_iff.mp halloc
  obtain ⟨hblocked, hfree, htick, hintact⟩ := Thread.new_eq_ok hnew
  exact ⟨k, t, _, hslot, rfl, ⟨hfree, hblocked, htick, hintact⟩,
    (hplaced.isBlock _).containing_initialStackPointer htop, hroom, rfl, rfl⟩

/-- A call to create a thread is refused and changes nothing, or makes a thread ready. -/
theorem takes_create (hplaced : h.scheduler.pool.Placed) {name : String} {priority entry arg : Nat}
    {res : Except SpawnError Nat}
    (hrun : (create name priority entry arg : HostM (Except SpawnError Nat)) h = .ok res h') :
    (res = .error .outOfMemory ∧ h' = h) ∨
      ∃ b, h.Takes r (.create b) h' r ∧ res = .ok (h'.scheduler.threads.get b).tid := by
  obtain ⟨-, ⟨-, hres, hsame⟩ | ⟨b, h₁, hspawn, hunblock, hres⟩⟩ := create_eq_ok_iff.mp hrun
  · exact Or.inl ⟨hres, hsame⟩
  · refine Or.inr ⟨b, ?_, hres⟩
    obtain ⟨k, t, context, hslot, rfl, ⟨hfree, hblocked, htick, hintact⟩, hstack, hroom,
      hscheduler, hsp⟩ := hspawn.spawned hplaced
    obtain ⟨-, -, -, rfl⟩ := unblock_eq_ok_iff.mp hunblock
    unfold Takes
    rw [scheduler_withScheduler, sp_withScheduler, hscheduler, hsp]
    exact .created hslot hfree hblocked htick hintact hstack hroom

theorem takes_sleepUntil {wake : Nat} (hsp : Block.containing h.sp = .ok r)
    (hrun : (sleepUntil wake : HostM Unit) h = .ok u h') : ∃ n, h.Takes r (.sleep wake) h' n := by
  obtain ⟨-, -, r', hcurrent, hidle, -, hblock⟩ := sleepUntil_eq_ok_iff.mp hrun
  obtain rfl := here_unique hsp hcurrent.here
  obtain ⟨-, -, r', hcurrent', hschedule⟩ := block_eq_ok_iff.mp hblock
  obtain rfl := here_unique hsp hcurrent'.here
  obtain ⟨n, hd⟩ := dispatched_of_schedule (h := h.withScheduler
    ((h.scheduler.putToSleep r wake).mark r .blocked)) hsp hschedule
  exact ⟨n, .departed (.sleeps hidle) hd⟩

/-- A sleep of no ticks does nothing; a longer one ends that many ticks from now. -/
theorem takes_sleep {ticks : Nat} (hsp : Block.containing h.sp = .ok r)
    (hrun : (sleep ticks : HostM Unit) h = .ok u h') :
    (ticks = 0 ∧ h' = h) ∨
      (ticks ≠ 0 ∧ ∃ n, h.Takes r (.sleep (h.scheduler.ticks + ticks)) h' n) := by
  obtain ⟨-, ⟨hzero, rfl⟩ | ⟨hpos, -, h₁, hsleep, rfl⟩⟩ := sleep_eq_ok_iff.mp hrun
  · exact Or.inl ⟨hzero, rfl⟩
  · obtain ⟨n, hn⟩ := takes_sleepUntil (h := h.withLevel .off) hsp hsleep
    exact Or.inr ⟨hpos, n, hn⟩

theorem takes_sleepFor {num denom : Nat} (hsp : Block.containing h.sp = .ok r)
    (hrun : (sleepFor num denom : HostM Unit) h = .ok u h') :
    h' = h ∨ ∃ wake n, h.Takes r (.sleep wake) h' n := by
  obtain ⟨-, -, -, hsleep⟩ := sleepFor_eq_ok_iff.mp hrun
  rcases takes_sleep hsp hsleep with ⟨-, hsame⟩ | ⟨-, n, hn⟩
  · exact Or.inl hsame
  · exact Or.inr ⟨_, n, hn⟩

theorem takes_setPriority {priority : Nat} (hsp : Block.containing h.sp = .ok r)
    (hrun : (setPriority priority : HostM Unit) h = .ok u h') : h.Takes r .count h' r := by
  obtain ⟨-, r', hcurrent, rfl⟩ := setPriority_eq_ok_iff.mp hrun
  obtain rfl := here_unique hsp hcurrent.here
  exact .prioritised priority

theorem scheduler_ticked (h : Host) (r : Nat) :
    (h.ticked r).scheduler = h.scheduler.charge r ∧ (h.ticked r).sp = h.sp := by
  simp only [ticked]
  split <;> exact ⟨rfl, rfl⟩

theorem takes_tick (hrun : (tick : HostM Unit) h = .ok u h') : h.Takes r .count h' r := by
  obtain ⟨r', -, -, -, rfl⟩ := tick_eq_ok_iff.mp hrun
  obtain ⟨hscheduler, hsp⟩ := h.scheduler_ticked r'
  unfold Takes
  rw [hscheduler, hsp]
  exact .counted _ _

theorem woken_of_wakeDue {now count : Nat}
    (hcount : h.scheduler.sleepers.queue.members.length ≤ count)
    (hrun : (wakeDue now count : HostM Unit) h = .ok u h') :
    Woken now h.scheduler h'.scheduler ∧ h'.sp = h.sp := by
  induction count generalizing h with
  | zero =>
      obtain ⟨-, rfl⟩ := pure_eq_ok_iff.mp hrun
      refine ⟨.done ?_, rfl⟩
      rintro ⟨w, hw, -⟩
      have hempty := List.eq_nil_of_length_eq_zero (Nat.le_zero.mp hcount)
      simp [SleepQueue.nextWakeup, Queue.front, hempty] at hw
  | succ count ih =>
      by_cases hdue : h.scheduler.sleepers.Due h.scheduler.threads now
      · obtain ⟨wake, hwake, hle⟩ := hdue
        obtain ⟨b, hhead, htick⟩ := Option.bind_eq_some_iff.mp hwake
        obtain ⟨rest, hmembers⟩ := List.head?_eq_some_iff.mp hhead
        rw [wakeDue_eq_ok_iff_of_due hmembers htick hle] at hrun
        obtain ⟨-, -, -, hrest⟩ := hrun
        have hshort : (h.withScheduler (h.scheduler.rouse b)).scheduler.sleepers.queue.members.length
            ≤ count := by
          change h.scheduler.sleepers.queue.members.tail.length ≤ count
          rw [List.length_tail]
          omega
        obtain ⟨hwoken, hsp⟩ := ih hshort hrest
        exact ⟨.next hmembers htick hle hwoken, hsp⟩
      · rw [wakeDue_eq_ok_iff_of_not_due hdue] at hrun
        subst hrun
        exact ⟨.done hdue, rfl⟩

theorem takes_wake {now : Nat} (hrun : (wake now : HostM Unit) h = .ok u h') :
    h.Takes r (.wake now) h' r := by
  obtain ⟨hwoken, hsp⟩ := woken_of_wakeDue (Nat.le_refl _) (wake_eq_ok_iff.mp hrun)
  unfold Takes
  rw [hsp]
  exact .woke hwoken

theorem takes_timerInterrupt (hrun : (timerInterrupt : HostM Unit) h = .ok u h') :
    h.Takes r .interrupt h' r := by
  obtain ⟨-, h₁, htick, hwake⟩ := timerInterrupt_eq_ok_iff.mp hrun
  obtain ⟨r', -, -, -, rfl⟩ := tick_eq_ok_iff.mp htick
  obtain ⟨hscheduler, hsp₁⟩ := (h.withScheduler h.scheduler.advance).scheduler_ticked r'
  obtain ⟨hwoken, hsp⟩ := woken_of_wakeDue (Nat.le_refl _) (wake_eq_ok_iff.mp hwake)
  unfold Takes
  rw [hsp, hsp₁]
  rw [hscheduler] at hwoken
  exact .interrupted _ _ hwoken

end RoundRobin.Host
