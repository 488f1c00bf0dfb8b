import RoundRobin.Proofs.Host.Running

/-!
# Progress

In an orderly state an operation returns as soon as its caller keeps the rules that the operation
sets. None of the checks that the scheduler makes of its own state can fail.
-/

namespace RoundRobin.Host

open Scheduler

variable {h : Host} {P : Thread → Prop} {b r : Nat}

/-- `act` returns when it is started on `h`. -/
def Returns {α : Type} (act : HostM α) (h : Host) : Prop :=
  ∃ a h', act h = .ok a h'

theorem Returns.unit {act : HostM Unit} (hreturns : Returns act h) : ∃ h', act h = .ok () h' := by
  obtain ⟨_, h', hact⟩ := hreturns
  exact ⟨h', hact⟩

/-- Somebody is ready, or else the idle thread is there. -/
theorem exists_next {s : Scheduler} (hidle : s.idle ≠ none) : ∃ n, s.Next n := by
  unfold Next
  cases s.ready.members.head? with
  | some b => exact ⟨b, rfl⟩
  | none => exact Option.ne_none_iff_exists'.mp hidle

theorem returns_schedule (hs : h.scheduler.Settled (h.scheduler.Leaving r) r)
    (hsp : Block.containing h.sp = .ok r) (hmasked : h.level = .off)
    (hidle : h.scheduler.idle ≠ none) : Returns schedule h := by
  obtain ⟨n, hnext⟩ := exists_next hidle
  have hready := hs.linked.ready
  refine ⟨(), h.dispatched r n, schedule_eq_ok_iff.mpr ⟨r, n, ?_, rfl⟩⟩
  constructor
  · exact hsp
  · intro b hb
    rw [hready.kind_eq]
    exact (hready.mem_iff b).mp (List.mem_of_mem_head? hb)
  · exact hnext
  · exact hmasked
  · rcases hs.here with ⟨hwaits, -⟩ | ⟨-, hdying, -⟩
    · exact hwaits.status_ne_running
    · rw [hdying]
      decide
  · exact hs.intact_next hnext
  · intro hne hdying _
    have howner : (h.scheduler.threads.get r).owner = .detached := by
      rcases hs.here with ⟨-, hstays⟩ | ⟨howner, -⟩
      · exact absurd hdying hstays
      · exact howner
    rw [hs.get_elect hnext, if_neg (Ne.symm hne)]
    exact (hs.linked.tidy r).free howner

/-- The block of the exited thread goes back to the pool without a complaint. -/
theorem returns_reclaim (hs : h.scheduler.Settled P r)
    (hhere : (h.scheduler.threads.get r).owner ≠ .destruction) :
    ∃ h', (reclaim r h.scheduler.destruction.members.length : HostM Unit) h = .ok () h' ∧
      h'.level = h.level := by
  have hdead := hs.dead
  cases hmembers : h.scheduler.destruction.members with
  | nil => exact ⟨h, (reclaim_eq_ok_iff_of_nil hmembers).mpr rfl, rfl⟩
  | cons b rest =>
      obtain rfl : rest = [] := by
        rw [hmembers, List.length_cons] at hdead
        exact List.eq_nil_of_length_eq_zero (by omega)
      have howner : (h.scheduler.threads.get b).owner = .destruction := by
        apply (hs.linked.destruction.mem_iff b).mp
        rw [hmembers]
        exact List.mem_singleton_self b
      have hne : b ≠ r := by
        rintro rfl
        exact hhere howner
      obtain ⟨-, k, hk, hslot, -⟩ := hs.reap hmembers hne
      have hfree : h.scheduler.pool.free b = .ok (h.scheduler.pool.vacated k) := by
        rw [← hslot]
        exact hs.housed.placed.free_slotAddress hk (hs.housed.balanced.frees_lt hk)
      have hempty : (h.reaped b (h.scheduler.pool.vacated k)).scheduler.destruction.members =
          [] := by
        change h.scheduler.destruction.members.tail = []
        rw [hmembers]
        rfl
      refine ⟨h.reaped b (h.scheduler.pool.vacated k), ?_, rfl⟩
      rw [List.length_singleton]
      refine (reclaim_eq_ok_iff_of_cons hmembers).mpr ⟨?_, hne, _, hfree, ?_⟩
      · rw [hs.linked.destruction.kind_eq]
        exact howner
      · exact (reclaim_eq_ok_iff_of_nil hempty).mpr rfl

theorem returns_doSchedule {status : Status} (hs : h.scheduler.Settled P r)
    (hhere : (h.scheduler.threads.get r).owner ≠ .destruction) (hcurrent : h.IsCurrent r)
    (hmasked : h.level = .off) (hidle : h.scheduler.idle ≠ none)
    (hleaves : ∀ s, Reclaimed h.scheduler s →
      (s.mark r status).Settled ((s.mark r status).Leaving r) r) :
    Returns (doSchedule status) h := by
  obtain ⟨h₁, hreclaim, hlevel⟩ := returns_reclaim hs hhere
  obtain ⟨hback, hsp⟩ := reclaimed_of_reclaim (hs.reclaimable hhere) hreclaim
  have hschedules : Returns schedule (h₁.withScheduler (h₁.scheduler.mark r status)) := by
    apply returns_schedule (hleaves _ hback)
    · rw [sp_withScheduler, hsp]
      exact hcurrent.here
    · exact hlevel.trans hmasked
    · exact hback.idle_eq.trans_ne hidle
  obtain ⟨h', hschedule⟩ := hschedules.unit
  exact ⟨(), h', doSchedule_eq_ok_iff.mpr ⟨hmasked, r, hcurrent, h₁, hreclaim, hschedule⟩⟩

section

variable (ho : h.Orderly r) (hidle : h.scheduler.idle ≠ none)

include ho hidle

theorem returns_block (hirq : h.inInterrupt = false) (hmasked : h.level = .off) :
    Returns block h := by
  have hleft := Departs.settled .blocks ho.settled
  have hschedules : Returns schedule (h.withScheduler (h.scheduler.mark r .blocked)) :=
    returns_schedule hleft ho.here hmasked hidle
  obtain ⟨h', hschedule⟩ := hschedules.unit
  exact ⟨(), h', block_eq_ok_iff.mpr ⟨hirq, hmasked, r, ho.isCurrent, hschedule⟩⟩

theorem returns_idlePass (hirq : h.inInterrupt = false) (hwaits : h.waits + 1 < Word.limit64) :
    Returns idlePass h := by
  have hmasked : (h.withLevel .off).Orderly r := ⟨ho.settled, ho.here⟩
  obtain ⟨h₁, hblock⟩ := (returns_block hmasked hidle hirq rfl).unit
  exact ⟨(), _, idlePass_eq_ok_iff.mpr ⟨h₁, hblock, hwaits, rfl⟩⟩

theorem returns_yieldNow (hirq : h.inInterrupt = false) : Returns yieldNow h := by
  have howner := ho.settled.here.owner
  have hfree := (ho.settled.linked.tidy r).free howner
  by_cases hself : h.scheduler.idle = some r
  · have hcurrent : (h.withLevel .off).IsCurrent r :=
      ⟨ho.here, ho.settled.intact, ho.settled.here.status⟩
    have hdoes : Returns (doSchedule .ready) (h.withLevel .off) :=
      returns_doSchedule (h := h.withLevel .off) ho.settled (howner.trans_ne (by decide)) hcurrent
        rfl hidle fun s hback => Departs.settled (.idles hself hback) ho.settled
    obtain ⟨h₁, hdo⟩ := hdoes.unit
    exact ⟨(), _, yieldNow_eq_ok_iff.mpr
      ⟨hirq, r, ho.isCurrent, h₁, Or.inl ⟨hself, hdo⟩, rfl⟩⟩
  · have hqueued : (h.scheduler.enqueue r).Settled
        (fun t => t.owner = .ready ∧ t.status = .running) r :=
      ho.settled.enqueue howner ⟨rfl, ho.settled.here.status⟩
    let g := (h.withLevel .off).withScheduler (h.scheduler.enqueue r)
    have hcurrent : g.IsCurrent r := ⟨ho.here, hqueued.intact, hqueued.here.2⟩
    have hdoes : Returns (doSchedule .ready) g :=
      returns_doSchedule (h := g) hqueued (hqueued.here.1.trans_ne (by decide)) hcurrent rfl hidle
        fun s hback => Departs.settled (.yields hself hback) ho.settled
    obtain ⟨h₁, hdo⟩ := hdoes.unit
    exact ⟨(), _, yieldNow_eq_ok_iff.mpr
      ⟨hirq, r, ho.isCurrent, h₁, Or.inr ⟨hself, hfree, hdo⟩, rfl⟩⟩

theorem returns_retire (hirq : h.inInterrupt = false) (hself : h.scheduler.idle ≠ some r) :
    Returns retire h := by
  let g := (h.withLevel .off).logged
    { severity := .debug, source := .scheduler
      text := s!"thread {(h.scheduler.threads.get r).tid} exiting" }
  have hcurrent : g.IsCurrent r := ⟨ho.here, ho.settled.intact, ho.settled.here.status⟩
  have hdoes : Returns (doSchedule .dying) g :=
    returns_doSchedule (h := g) ho.settled (ho.settled.here.owner.trans_ne (by decide)) hcurrent
      rfl hidle fun s hback => Departs.settled (.exits hself hback) ho.settled
  obtain ⟨h', hdo⟩ := hdoes.unit
  exact ⟨(), h', retire_eq_ok_iff.mpr ⟨hirq, r, ho.isCurrent, hdo⟩⟩

theorem returns_sleepUntil {wake : Nat} (hirq : h.inInterrupt = false) (hmasked : h.level = .off)
    (hself : h.scheduler.idle ≠ some r) : Returns (sleepUntil wake) h := by
  have hfree := (ho.settled.linked.tidy r).free ho.settled.here.owner
  have hget := get_putToSleep h.scheduler r wake r
  rw [if_pos rfl] at hget
  have hcurrent : (h.withScheduler (h.scheduler.putToSleep r wake)).IsCurrent r := by
    refine ⟨ho.here, ?_, ?_⟩
    · rw [scheduler_withScheduler, hget]
      exact ho.settled.intact
    · rw [scheduler_withScheduler, hget]
      exact ho.settled.here.status
  have hschedules : Returns schedule
      (h.withScheduler ((h.scheduler.putToSleep r wake).mark r .blocked)) :=
    returns_schedule (Departs.settled (.sleeps hself) ho.settled) ho.here hmasked hidle
  obtain ⟨h', hschedule⟩ := hschedules.unit
  exact ⟨(), h', sleepUntil_eq_ok_iff.mpr ⟨hirq, hmasked, r, ho.isCurrent, hself, hfree,
    block_eq_ok_iff.mpr ⟨hirq, hmasked, r, hcurrent, hschedule⟩⟩⟩

/-- A sleep of no ticks returns at once. -/
theorem returns_sleep {ticks : Nat} (hlevel : h.level = .on)
    (hlong : ticks ≠ 0 → h.scheduler.ticks + ticks < Word.limit64 ∧ h.inInterrupt = false ∧
      h.scheduler.idle ≠ some r) : Returns (sleep ticks) h := by
  by_cases hzero : ticks = 0
  · exact ⟨(), h, sleep_eq_ok_iff.mpr ⟨hlevel, Or.inl ⟨hzero, rfl⟩⟩⟩
  · obtain ⟨hfits, hirq, hself⟩ := hlong hzero
    have hmasked : (h.withLevel .off).Orderly r := ⟨ho.settled, ho.here⟩
    obtain ⟨h₁, hsleep⟩ := (returns_sleepUntil hmasked hidle hirq rfl hself).unit
    exact ⟨(), _, sleep_eq_ok_iff.mpr ⟨hlevel, Or.inr ⟨hzero, hfits, h₁, hsleep, rfl⟩⟩⟩

end

/-- The length of the busy wait fits a word. -/
theorem spinCount_ok {loops num denom : Nat} (hloops : loops < Word.limit32)
    (hshort : num * Config.tickHz / denom = 0) (hthousand : 1000 ≤ denom)
    (hbillion : denom ≤ 1000000000) : ∃ count, spinCount loops num denom = .ok count := by
  have hnum : num * Config.tickHz < denom := by
    rcases Nat.div_eq_zero_iff.mp hshort with hzero | hlt
    · omega
    · exact hlt
  have hproduct : loops * num ≤ Word.limit32 * 10000000 :=
    Nat.mul_le_mul (Nat.le_of_lt hloops) (by simp only [Config.tickHz] at hnum; omega)
  simp only [spinCount, Except.bind_eq_ok_iff, Word.mul_eq_ok_iff, Word.div_eq_ok_iff]
  refine ⟨_, _, ⟨?_, rfl⟩, _, ⟨?_, rfl⟩, ?_, rfl⟩
  · simp only [Word.limit64, Word.limit32] at *
    omega
  · simp only [Word.limit64, Word.limit32, Config.tickHz] at *
    omega
  · omega

/-- A sleep for a duration that is multiplied out returns if the sleep for its whole ticks does. -/
theorem returns_sleepFor {num denom : Nat} (hloops : h.scheduler.loopsPerTick < Word.limit32)
    (hthousand : 1000 ≤ denom) (hbillion : denom ≤ 1000000000)
    (hfits : num * Config.tickHz < Word.limit64)
    (hsleeps : Returns (sleep (num * Config.tickHz / denom)) h) :
    Returns (sleepFor num denom) h := by
  obtain ⟨h', hsleep⟩ := hsleeps.unit
  refine ⟨(), h', sleepFor_eq_ok_iff.mpr ⟨hfits, by omega, ?_, hsleep⟩⟩
  intro hshort
  exact spinCount_ok hloops hshort hthousand hbillion

theorem returns_unblock (hs : h.scheduler.Settled P r) (hlive : h.scheduler.Live b) (hne : b ≠ r)
    (hblocked : (h.scheduler.threads.get b).status = .blocked)
    (howner : (h.scheduler.threads.get b).owner = .detached) : Returns (unblock b) h :=
  ⟨(), _, unblock_eq_ok_iff.mpr ⟨(hs.others b hlive hne).intact, hblocked,
    (hs.linked.tidy b).free howner, rfl⟩⟩

/-- The pool ends before the address space does, as every object in memory has to. -/
def Roomy (p : Pool) : Prop :=
  p.base + p.capacity * Config.blockSize < Word.limit64

theorem initialStackPointer_ok {p : Pool} {k : Nat} (hroom : Roomy p) (hk : k < p.capacity) :
    ∃ top, Block.initialStackPointer (p.slotAddress k) = .ok top := by
  have hfits : p.slotAddress k + Config.blockSize < Word.limit64 := by
    simp only [Roomy, Pool.slotAddress, Config.blockSize] at *
    omega
  exact ⟨_, Block.initialStackPointer_eq_ok_iff.mpr ⟨hfits, rfl⟩⟩

theorem exists_new {name : String} {priority : Nat}
    (hpriority : Thread.requirePriority priority = .ok ()) :
    ∃ t, Thread.new name priority = .ok t := by
  simp only [Thread.new, Except.bind_eq_ok_iff]
  exact ⟨_, (), hpriority, rfl⟩

/-- A thread can be created as long as there are identifiers and its block can be counted; a full
pool is an answer, too. -/
theorem returns_create {name : String} {priority entry arg : Nat} (hs : h.scheduler.Settled P r)
    (hroom : Roomy h.scheduler.pool) (htid : h.scheduler.nextTid + 1 < Word.limit32)
    (hcount : h.scheduler.pool.allocs + 1 < Word.limit64)
    (hpriority : Thread.requirePriority priority = .ok ()) :
    Returns (create name priority entry arg) h := by
  cases hslot : h.scheduler.pool.freeSlot? with
  | none =>
      exact ⟨_, h, create_eq_ok_iff.mpr
        ⟨hpriority, Or.inl ⟨Pool.alloc_of_full hslot, rfl, rfl⟩⟩⟩
  | some k =>
      have hk := Pool.busy_of_freeSlot? hslot
      obtain ⟨t, hnew⟩ : ∃ t, Thread.new name priority = .ok t := exists_new hpriority
      obtain ⟨top, htop⟩ := initialStackPointer_ok hroom (Pool.lt_capacity_of_busy hk)
      have hspawn : h.Spawns name priority entry arg (h.scheduler.pool.slotAddress k) _ :=
        ⟨_, _, t, top, Pool.alloc_eq_some_iff.mpr ⟨k, hslot, hcount, rfl, rfl, rfl⟩, hnew, htid,
          htop, rfl⟩
      generalize hspawned : Host.logged _ _ = h₁ at hspawn
      obtain ⟨j, t, context, hj, heq, ⟨hfree, hblocked, -, hintact⟩, -, -, hscheduler, -⟩ :=
        hspawn.spawned hs.housed.placed
      obtain rfl : k = j := Option.some.inj (hslot.symm.trans hj)
      have hget := h.scheduler.get_spawned k t context (h.scheduler.pool.slotAddress k)
      rw [if_pos rfl, ← hscheduler] at hget
      have hunblock : (unblock (h.scheduler.pool.slotAddress k) : HostM Unit) h₁ = .ok ()
          (h₁.withScheduler (h₁.scheduler.makeReady (h.scheduler.pool.slotAddress k))) := by
        rw [unblock_eq_ok_iff, hget]
        exact ⟨hintact, hblocked, hfree, rfl⟩
      exact ⟨_, _, create_eq_ok_iff.mpr
        ⟨hpriority, Or.inr ⟨_, h₁, hspawn, hunblock, rfl⟩⟩⟩

theorem returns_setPriority {priority : Nat} (ho : h.Orderly r)
    (hpriority : Thread.requirePriority priority = .ok ()) : Returns (setPriority priority) h :=
  ⟨(), _, setPriority_eq_ok_iff.mpr ⟨hpriority, r, ho.isCurrent, rfl⟩⟩

theorem returns_tick (ho : h.Orderly r) (htally : h.scheduler.tally r + 1 < Word.limit64)
    (hslice : h.scheduler.sliceTicks + 1 < Word.limit32) : Returns tick h :=
  ⟨(), _, tick_eq_ok_iff.mpr ⟨r, ho.isCurrent, htally, hslice, rfl⟩⟩

/-- Sleepers are blocked, so all that are due can be woken. -/
theorem returns_wakeDue (now count : Nat) (hs : h.scheduler.Settled Active r) :
    Returns (wakeDue now count) h := by
  induction count generalizing h with
  | zero => exact ⟨(), h, pure_eq_ok_iff.mpr ⟨rfl, rfl⟩⟩
  | succ count ih =>
      by_cases hdue : h.scheduler.sleepers.Due h.scheduler.threads now
      · obtain ⟨wake, hwake, hle⟩ := hdue
        obtain ⟨b, hhead, htick⟩ := Option.bind_eq_some_iff.mp hwake
        obtain ⟨rest, hmembers⟩ := List.head?_eq_some_iff.mp hhead
        have howner := hs.owner_of_first hmembers
        have hintact := (hs.parked_of_owner (howner.trans_ne (by decide))).intact
        have hblocked := (hs.asleep_of_owner howner).1
        obtain ⟨h', hrest⟩ :=
          (ih (h := h.withScheduler (h.scheduler.rouse b)) (hs.rouse_active hmembers)).unit
        refine ⟨(), h', (wakeDue_eq_ok_iff_of_due hmembers htick hle).mpr
          ⟨?_, hintact, hblocked, hrest⟩⟩
        rw [hs.linked.sleep.kind_eq]
        exact howner
      · exact ⟨(), h, (wakeDue_eq_ok_iff_of_not_due hdue).mpr rfl⟩

theorem returns_wake (now : Nat) (hs : h.scheduler.Settled Active r) : Returns (wake now) h := by
  obtain ⟨h', hwake⟩ := (returns_wakeDue now _ hs).unit
  exact ⟨(), h', wake_eq_ok_iff.mpr hwake⟩

theorem returns_timerInterrupt (ho : h.Orderly r)
    (hticks : h.scheduler.ticks + 1 < Word.limit64)
    (htally : h.scheduler.tally r + 1 < Word.limit64)
    (hslice : h.scheduler.sliceTicks + 1 < Word.limit32) : Returns timerInterrupt h := by
  have ho₁ : (h.withScheduler h.scheduler.advance).Orderly r := ⟨ho.settled.advance, ho.here⟩
  obtain ⟨h₁, htick⟩ := (returns_tick ho₁ htally hslice).unit
  obtain ⟨h', hwake⟩ := (returns_wake (h.scheduler.ticks + 1)
    (Step.settled (takes_tick htick) ho₁.settled ho₁.here).1).unit
  exact ⟨(), h', timerInterrupt_eq_ok_iff.mpr ⟨hticks, h₁, htick, hwake⟩⟩

end RoundRobin.Host
