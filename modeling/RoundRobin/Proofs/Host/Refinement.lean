import RoundRobin.Proofs.Host.Reclamation
import RoundRobin.Proofs.Scheduler.Roster
import RoundRobin.Proofs.Scheduler.Sleeper

/-!
# The kernel as a list machine

What a call amounts to is known from the state in which it is made. To the lists of the scheduler
it does exactly what the list machine does on that action, in every state that a kernel reaches.
-/

namespace RoundRobin

/-- A thread is created in the lowest free block. -/
theorem Scheduler.Step.slot_of_create {s s' : Scheduler} {sp sp' r n b : Nat}
    (hstep : Step s sp r (.create b) s' sp' n) :
    ∃ k, s.pool.freeSlot? = some k ∧ s.pool.slotAddress k = b := by
  cases hstep with
  | created hslot => exact ⟨_, hslot, rfl⟩
  | departed hdeparts => cases hdeparts

namespace Host

open Scheduler

variable {h h' h₀ h₁ : Host} {es : List Event} {call : Call} {created : Option Nat}
  {u : Unit} {r main idle : Nat}

/-- A sleep of `ticks` ticks from the tick `now` on. -/
def napAction (now ticks : Nat) : Action :=
  if ticks = 0 then .count else .sleep (now + ticks)

/-- The whole ticks in `num / denom` seconds. -/
def wholeTicks (num denom : Nat) : Nat :=
  num * Config.tickHz / denom

/-- What a call made on `h` amounts to if it returns. -/
def Call.action (h : Host) : Call → Action
  | create .. =>
    match h.scheduler.pool.freeSlot? with
    | some k => .create (h.scheduler.pool.slotAddress k)
    | none => .count
  | yieldNow => .yield
  | block | idlePass => .block
  | unblock b => .unblock b
  | retire => .exit
  | sleep ticks => napAction h.scheduler.ticks ticks
  | sleepUntil due => .sleep due
  | msleep ms => napAction h.scheduler.ticks (wholeTicks ms 1000)
  | usleep us => napAction h.scheduler.ticks (wholeTicks us 1000000)
  | nsleep ns => napAction h.scheduler.ticks (wholeTicks ns 1000000000)
  | wake now => .wake now
  | timerInterrupt => .interrupt
  | tick | takeYield | setPriority _ | setLevel _ | setInInterrupt _ => .count

theorem takes_nap {ticks : Nat} (hsp : Block.containing h.sp = .ok r)
    (hrun : (Scheduler.sleep ticks : HostM Unit) h = .ok u h') :
    ∃ n, h.Takes r (napAction h.scheduler.ticks ticks) h' n := by
  rcases takes_sleep hsp hrun with ⟨hzero, rfl⟩ | ⟨hpos, n, ht⟩
  · rw [napAction, if_pos hzero]
    exact ⟨r, takes_nothing _ r⟩
  · rw [napAction, if_neg hpos]
    exact ⟨n, ht⟩

theorem takes_napFor {num denom : Nat} (hsp : Block.containing h.sp = .ok r)
    (hrun : (sleepFor num denom : HostM Unit) h = .ok u h') :
    ∃ n, h.Takes r (napAction h.scheduler.ticks (wholeTicks num denom)) h' n :=
  takes_nap hsp (sleepFor_eq_ok_iff.mp hrun).2.2.2

/-- A thread is created in the lowest free block, and only a pool without one refuses. -/
theorem takes_create_action {name : String} {priority entry arg : Nat} (ho : h.Orderly r)
    (hrun : (Call.create name priority entry arg).perform h = .ok created h') :
    h.Takes r ((Call.create name priority entry arg).action h) h' r ∧
      created = (createdBlock ((Call.create name priority entry arg).action h)).map
        fun b => (h'.scheduler.threads.get b).tid := by
  simp only [Call.perform, bind_eq_ok_iff, pure_eq_ok_iff] at hrun
  obtain ⟨res, _, hcreate, rfl, rfl⟩ := hrun
  obtain ⟨-, ⟨hnone, rfl, rfl⟩ | ⟨_, _, -, -, hres⟩⟩ := create_eq_ok_iff.mp hcreate
  · have hfull := Pool.freeSlot?_eq_none_iff.mpr (Pool.alloc_eq_none_iff.mp hnone)
    have haction : (Call.create name priority entry arg).action h' = .count := by
      simp only [Call.action, hfull]
    rw [haction]
    exact ⟨takes_nothing _ r, rfl⟩
  · rcases takes_create ho.settled.housed.placed hcreate with ⟨herror, -⟩ | ⟨b, ht, rfl⟩
    · cases hres.symm.trans herror
    · obtain ⟨k, hslot, rfl⟩ := Step.slot_of_create ht
      have haction : (Call.create name priority entry arg).action h =
          .create (h.scheduler.pool.slotAddress k) := by
        simp only [Call.action, hslot]
      rw [haction]
      exact ⟨ht, rfl⟩

/-- A call of a kernel that returns amounts to its action. -/
theorem Call.takes_action (ho : h.Orderly r) (hadmissible : call.Admissible h)
    (hrun : call.perform h = .ok created h') :
    (∃ n, h.Takes r (call.action h) h' n) ∧
      created = (createdBlock (call.action h)).map fun b => (h'.scheduler.threads.get b).tid := by
  have hnap : ∀ ticks, createdBlock (napAction h.scheduler.ticks ticks) = none := by
    intro ticks
    rw [napAction]
    split <;> rfl
  cases call with
  | create name priority entry arg =>
      obtain ⟨ht, hcreated⟩ := takes_create_action ho hrun
      exact ⟨⟨r, ht⟩, hcreated⟩
  | sleep ticks =>
      obtain ⟨rfl, u, hact⟩ := silently_eq_ok_iff.mp hrun
      exact ⟨takes_nap ho.here hact, by rw [action, hnap]; rfl⟩
  | msleep _ | usleep _ | nsleep _ =>
      obtain ⟨rfl, u, hact⟩ := silently_eq_ok_iff.mp hrun
      exact ⟨takes_napFor ho.here hact, by rw [action, hnap]; rfl⟩
  | _ =>
      obtain ⟨a, n, rfl, ht, hcreated⟩ := Call.takes ho hadmissible hrun
      exact ⟨⟨n, ht⟩, hcreated⟩

/-- Who runs on the host and who waits where. -/
def roster (h : Host) : Roster :=
  h.scheduler.roster (Block.base h.sp)

theorem Orderly.roster_eq (ho : h.Orderly r) : h.roster = h.scheduler.roster r := by
  rw [roster, base_of_containing ho.here]

/-- Boot changes the pool and the control blocks, and names the boot thread and the idle thread. -/
theorem Booted.scheduler_eq (hbooted : h.Booted) :
    h.scheduler =
      { pool := h.scheduler.pool
        trampoline := h.scheduler.trampoline
        threads := h.scheduler.threads
        nextTid := h.scheduler.nextTid
        initial := h.scheduler.initial
        idle := h.scheduler.idle } := by
  obtain ⟨h₀, h₁, entry, hfresh, hinit, hstart⟩ := hbooted.boot
  obtain ⟨main, hadopted, -⟩ := hfresh.init hinit
  obtain ⟨-, hres, -⟩ | ⟨idle, h₂, hspawn, -, rfl⟩ := start_eq_ok_iff.mp hstart
  · cases hres
  obtain ⟨k, t, context, hslot, -, -, -, -, hs₂, -⟩ :=
    hspawn.spawned hadopted.settled.housed.placed
  have hframe := hadopted.settled.spawned_frame (Pool.busy_of_freeSlot? hslot) t context
  obtain ⟨base, n, trampoline, hpristine⟩ := hfresh.pristine
  obtain ⟨-, -, b, -, c, -, -, rfl⟩ := init_eq_ok_iff.mp hinit
  simp only [scheduler_withLevel, scheduler_withScheduler, appoint, hs₂]
  rw [hframe]
  simp only [scheduler_logged, scheduler_withScheduler, hpristine]
  rfl

/-- After boot nobody is ready, nobody sleeps, and nothing was calibrated. -/
theorem Booted.at_rest (hbooted : h.Booted) :
    h.scheduler.ready.members = [] ∧ h.scheduler.sleepers.queue.members = [] ∧
      h.scheduler.loopsPerTick = 0 := by
  rw [hbooted.scheduler_eq]
  exact ⟨rfl, rfl, rfl⟩

theorem Booted.roster_eq (hbooted : h.Booted) (hafter : h.AfterBoot main idle) :
    h.roster = .solo main := by
  obtain ⟨hready, hasleep, -⟩ := hbooted.at_rest
  rw [hafter.orderly.roster_eq, Scheduler.roster, Scheduler.asleep, hready, hasleep,
    hafter.none_dead]
  rfl

/-- What the list machine, with the boot thread in `main` and the idle thread in `idle`, says of a
call that leads from `h` to `h'` and tells of the new thread `created`. -/
structure Obeys (main idle : Nat) (h : Host) (call : Call) (created : Option Nat) (h' : Host) :
    Prop where
  /-- The lists change as the action of the call changes them. -/
  lists : h'.roster = h.roster.obey idle main h.scheduler.ticks (call.action h)
  /-- The tick handler alone advances the tick counter. -/
  clock : h'.scheduler.ticks =
    if call.action h = .interrupt then h.scheduler.ticks + 1 else h.scheduler.ticks
  /-- The call tells of a new thread exactly if its action creates one. -/
  created : created = (createdBlock (call.action h)).map fun b => (h'.scheduler.threads.get b).tid

theorem Call.obeys (ho : h.Orderly r) (hn : h.Named main idle) (hallowed : Kernel h call)
    (hperforms : call.perform h = .ok created h') : Obeys main idle h call created h' := by
  obtain ⟨⟨n, ht⟩, hcreated⟩ := Call.takes_action ho hallowed hperforms
  constructor
  · rw [(ht.orderly ho).roster_eq, ho.roster_eq]
    exact Step.roster_eq ht ho.settled hn.idle_eq hn.initial_eq
  · exact Step.ticks_eq ht
  · exact hcreated

/-- The host `h` is simulated by the list machine, whatever a kernel does on it. -/
structure Simulated (main idle : Nat) (h : Host) : Prop where
  named : h.Named main idle
  call : ∀ call created h', Kernel h call → call.perform h = .ok created h' →
    Obeys main idle h call created h'
  /-- The life of a thread is its body, which is entered with the same lists, and then an exit. -/
  life : ∀ (body : HostM Unit) es h₁ h', Run Kernel (h.withLevel .on) es h₁ →
    body (h.withLevel .on) = .ok () h₁ → Kernel h₁ .retire →
    (Scheduler.runThread body : HostM Unit) h = .ok () h' →
      (h.withLevel .on).roster = h.roster ∧ h'.roster = h₁.roster.exit idle main

/-- After boot the boot thread runs and nobody waits. From then on, in every state that a kernel
reaches, each call changes the lists exactly as the list machine says. -/
theorem Run.simulated (hbooted : h₀.Booted) (hrun : Run Kernel h₀ es h) :
    ∃ main idle, h₀.Named main idle ∧ h₀.roster = .solo main ∧ h.Simulated main idle := by
  obtain ⟨main, idle, hafter⟩ := hbooted.after
  have hobeys : ∀ {es h call created h'}, Run Kernel h₀ es h → Kernel h call →
      call.perform h = .ok created h' → Obeys main idle h call created h' := by
    intro es h call created h' hrun hallowed hperforms
    obtain ⟨r, ho⟩ := hrun.orderly ⟨main, hafter.orderly⟩
    exact Call.obeys ho (hrun.ledger hafter).toNamed hallowed hperforms
  refine ⟨main, idle, hafter.ledger.toNamed, hbooted.roster_eq hafter, ?_⟩
  constructor
  · exact (hrun.ledger hafter).toNamed
  · intro call created h'
    exact hobeys hrun
  · intro body es' h₁ h' hmiddle hbody hretires hlife
    refine ⟨rfl, ?_⟩
    have henter : Run Kernel h₀ (es ++ [.between h (.setLevel .on) none (h.withLevel .on)])
        (h.withLevel .on) :=
      hrun.snoc trivial (Call.silently_of_ok (setLevel_eq_ok_iff.mpr ⟨rfl, rfl⟩))
    simp only [Scheduler.runThread, bind_eq_ok_iff, enable_eq_ok_iff, exists_eq_left,
      exists_const] at hlife
    obtain ⟨_, g, hentered, hretire⟩ := hlife
    cases hbody.symm.trans hentered
    exact (hobeys (henter.append hmiddle) hretires (Call.silently_of_ok hretire)).lists

/-- Two threads are created, the boot thread goes to sleep, and the first of the two exits. -/
def listsSample : List Event × Host :=
  play Kernel sample
    [.create "a" 3 threadBody 7, .create "b" 5 threadBody 9, .sleep 2, .retire]

theorem simulated_sample :
    sample.Booted ∧ Run Kernel sample listsSample.1 listsSample.2 ∧ listsSample.1.length = 4 ∧
      listsSample.2.roster = ⟨0x40002000, [], [(2, 0x100000000)], [0x40001000]⟩ ∧
      ∃ main idle, sample.Named main idle ∧ sample.roster = .solo main ∧
        listsSample.2.Simulated main idle :=
  ⟨booted_sample, Run.play _ _, by decide +kernel, by decide +kernel,
    Run.simulated booted_sample (Run.play _ _)⟩

end Host

end RoundRobin
