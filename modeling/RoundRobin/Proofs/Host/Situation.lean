import RoundRobin.Proofs.Host.Running

/-!
# Where every thread is

In every state that a kernel reaches each live thread is in exactly one of five situations, in
which its queue, its tag, its status and its wake tick agree.
-/

namespace RoundRobin.Host

open Scheduler

variable {h h₀ : Host} {es : List Event} {b r : Nat}

/-- Where a live thread can be. -/
inductive Situation where
  /-- Its stack is in use. -/
  | running
  /-- It is on the ready queue. -/
  | ready
  /-- It is on the sleep queue. -/
  | asleep
  /-- It is on the destruction queue. -/
  | dead
  /-- It is on no queue: blocked, or the idle thread that gave way, or the boot thread that has
  exited. -/
  | resting
  deriving DecidableEq

/-- `b` is on no queue. -/
def Unqueued (s : Scheduler) (b : Nat) : Prop :=
  b ∉ s.ready.members ∧ b ∉ s.sleepers.queue.members ∧ b ∉ s.destruction.members

/-- The thread in `b` is in the situation, with all that belongs to it. -/
def Situation.Holds (h : Host) (b : Nat) (situation : Situation) : Prop :=
  let s := h.scheduler
  let t := s.threads.get b
  match situation with
  | running => Block.base h.sp = b ∧ Unqueued s b ∧ t.owner = .detached ∧ t.status = .running
  | ready =>
    s.ready.members.count b = 1 ∧ b ∉ s.sleepers.queue.members ∧ b ∉ s.destruction.members ∧
      t.owner = .ready ∧ t.status = .ready
  | asleep =>
    s.sleepers.queue.members.count b = 1 ∧ b ∉ s.ready.members ∧ b ∉ s.destruction.members ∧
      t.owner = .sleep ∧ t.status = .blocked
  | dead =>
    s.destruction.members.count b = 1 ∧ b ∉ s.ready.members ∧ b ∉ s.sleepers.queue.members ∧
      t.owner = .destruction ∧ t.status = .dying
  | resting =>
    Unqueued s b ∧ t.owner = .detached ∧
      (t.status = .blocked ∨ (s.idle = some b ∧ t.status = .ready) ∨
        (s.initial = some b ∧ t.status = .dying))

/-- The situation that a control block speaks of. -/
def Situation.ofThread (t : Thread) : Situation :=
  match t.owner, t.status with
  | .ready, _ => ready
  | .sleep, _ => asleep
  | .destruction, _ => dead
  | .detached, .running => running
  | .detached, _ => resting

theorem Situation.Holds.eq_ofThread {situation : Situation} (hholds : situation.Holds h b) :
    situation = ofThread (h.scheduler.threads.get b) := by
  cases situation with
  | running =>
      obtain ⟨-, -, howner, hstatus⟩ := hholds
      simp only [ofThread, howner, hstatus]
  | ready =>
      obtain ⟨-, -, -, howner, hstatus⟩ := hholds
      simp only [ofThread, howner]
  | asleep =>
      obtain ⟨-, -, -, howner, hstatus⟩ := hholds
      simp only [ofThread, howner]
  | dead =>
      obtain ⟨-, -, -, howner, hstatus⟩ := hholds
      simp only [ofThread, howner]
  | resting =>
      obtain ⟨-, howner, hstatus | ⟨-, hstatus⟩ | ⟨-, hstatus⟩⟩ := hholds
      · simp only [ofThread, howner, hstatus]
      · simp only [ofThread, howner, hstatus]
      · simp only [ofThread, howner, hstatus]

/-- All threads are accounted for. -/
structure Census (h : Host) : Prop where
  /-- Every live thread is in exactly one situation. -/
  situated : ∀ b, h.scheduler.Live b → ∃! situation : Situation, situation.Holds h b
  /-- Only live threads are on queues. -/
  queued_live : ∀ b, ¬ Unqueued h.scheduler b → h.scheduler.Live b
  /-- A live thread has a wake tick exactly if it is on the sleep queue. -/
  tick_iff : ∀ b, h.scheduler.Live b →
    ((h.scheduler.threads.get b).wakeTick.isSome ↔ b ∈ h.scheduler.sleepers.queue.members)
  /-- The sleepers stand in the order of their wake ticks. -/
  sorted : ∃ ticks : List Nat, ticks.Pairwise (· ≤ ·) ∧
    h.scheduler.sleepers.queue.members.map (fun b => (h.scheduler.threads.get b).wakeTick) =
      ticks.map some
  /-- Every queue knows its number of members. -/
  sizes : h.scheduler.ready.size = h.scheduler.ready.members.length ∧
    h.scheduler.sleepers.queue.size = h.scheduler.sleepers.queue.members.length ∧
    h.scheduler.destruction.size = h.scheduler.destruction.members.length
  /-- A link is in use exactly if the thread is on a queue. -/
  linked_iff : ∀ b, (h.scheduler.threads.get b).linked = true ↔ ¬ Unqueued h.scheduler b

namespace Orderly

theorem unqueued_iff (ho : h.Orderly r) (b : Nat) :
    Unqueued h.scheduler b ↔ (h.scheduler.threads.get b).owner = .detached := by
  have hlinked := ho.settled.linked
  rw [Unqueued, hlinked.ready.mem_iff, hlinked.sleep.mem_iff, hlinked.destruction.mem_iff]
  cases (h.scheduler.threads.get b).owner <;> simp

theorem notMem_of_owner (ho : h.Orderly r) :
    ((h.scheduler.threads.get b).owner ≠ .ready → b ∉ h.scheduler.ready.members) ∧
    ((h.scheduler.threads.get b).owner ≠ .sleep → b ∉ h.scheduler.sleepers.queue.members) ∧
    ((h.scheduler.threads.get b).owner ≠ .destruction → b ∉ h.scheduler.destruction.members) := by
  have hlinked := ho.settled.linked
  exact ⟨mt (hlinked.ready.mem_iff b).mp, mt (hlinked.sleep.mem_iff b).mp,
    mt (hlinked.destruction.mem_iff b).mp⟩

/-- Every live thread is in the situation its control block speaks of. -/
theorem exists_situation (ho : h.Orderly r) (hb : h.scheduler.Live b) :
    ∃ situation : Situation, situation.Holds h b := by
  have hlinked := ho.settled.linked
  obtain ⟨hready, hsleep, hdead⟩ := ho.notMem_of_owner (b := b)
  by_cases hbr : b = r
  · subst hbr
    have hactive := ho.settled.here
    exact ⟨.running, base_of_containing ho.here, (ho.unqueued_iff b).mpr hactive.owner,
      hactive.owner, hactive.status⟩
  · cases (ho.settled.others b hb hbr).waits with
    | ready howner hstatus =>
        refine ⟨.ready, ?_, hsleep (by simp [howner]), hdead (by simp [howner]), howner, hstatus⟩
        exact List.count_eq_one_of_mem hlinked.ready.nodup ((hlinked.ready.mem_iff b).mpr howner)
    | asleep howner hstatus =>
        refine ⟨.asleep, ?_, hready (by simp [howner]), hdead (by simp [howner]), howner, hstatus⟩
        exact List.count_eq_one_of_mem hlinked.sleep.nodup ((hlinked.sleep.mem_iff b).mpr howner)
    | dead howner hstatus =>
        refine ⟨.dead, ?_, hready (by simp [howner]), hsleep (by simp [howner]), howner, hstatus⟩
        exact List.count_eq_one_of_mem hlinked.destruction.nodup
          ((hlinked.destruction.mem_iff b).mpr howner)
    | blocked howner hstatus =>
        exact ⟨.resting, (ho.unqueued_iff b).mpr howner, howner, Or.inl hstatus⟩
    | idle howner hstatus _ hself =>
        exact ⟨.resting, (ho.unqueued_iff b).mpr howner, howner, Or.inr (Or.inl ⟨hself, hstatus⟩)⟩
    | exited howner hstatus _ hself =>
        exact ⟨.resting, (ho.unqueued_iff b).mpr howner, howner, Or.inr (Or.inr ⟨hself, hstatus⟩)⟩

theorem tick_iff (ho : h.Orderly r) (hb : h.scheduler.Live b) :
    (h.scheduler.threads.get b).wakeTick.isSome ↔ b ∈ h.scheduler.sleepers.queue.members := by
  rw [ho.settled.linked.sleep.mem_iff]
  by_cases hbr : b = r
  · subst hbr
    simp [ho.settled.here.owner, ho.settled.here.tick]
  · cases (ho.settled.others b hb hbr).waits with
    | asleep howner _ htick => simp [howner, Option.isSome_iff_ne_none, htick]
    | ready howner _ htick | dead howner _ htick | blocked howner _ htick | idle howner _ htick
    | exited howner _ htick => simp [howner, htick]

theorem sorted (ho : h.Orderly r) :
    ∃ ticks : List Nat, ticks.Pairwise (· ≤ ·) ∧
      h.scheduler.sleepers.queue.members.map (fun b => (h.scheduler.threads.get b).wakeTick) =
        ticks.map some := by
  refine ⟨h.scheduler.sleepers.queue.members.map fun b => (h.scheduler.threads.get b).wake, ?_, ?_⟩
  · exact List.pairwise_map.mpr ho.settled.linked.ascending
  · rw [List.map_map]
    apply List.map_congr_left
    intro b hb
    have howner := (ho.settled.linked.sleep.mem_iff b).mp hb
    have hlive := ho.settled.housed.owned b (by simp [howner])
    obtain ⟨w, hw⟩ := Option.isSome_iff_exists.mp ((ho.tick_iff hlive).mpr hb)
    simp [Thread.wake, hw]

theorem accounts (ho : h.Orderly r) : h.Census where
  situated b hb := by
    obtain ⟨situation, hholds⟩ := ho.exists_situation hb
    refine ⟨situation, hholds, ?_⟩
    intro other hother
    rw [hother.eq_ofThread, hholds.eq_ofThread]
  queued_live b hb := by
    rw [ho.unqueued_iff] at hb
    exact ho.settled.housed.owned b hb
  tick_iff b hb := ho.tick_iff hb
  sorted := ho.sorted
  sizes := ⟨ho.settled.linked.ready.size_eq, ho.settled.linked.sleep.size_eq,
    ho.settled.linked.destruction.size_eq⟩
  linked_iff b := by
    rw [ho.unqueued_iff]
    exact ho.settled.linked.tidy b

end Orderly

/-- In every state that a kernel reaches after boot no thread is lost, on two queues, or marked as
something that it is not. -/
theorem Run.census (hbooted : h₀.Booted) (hrun : Run Kernel h₀ es h) : h.Census := by
  obtain ⟨r, ho⟩ := hrun.exists_orderly hbooted
  exact ho.accounts

theorem census_sample : sample.Booted ∧ Run Kernel sample sampleRun.1 sampleRun.2 ∧
    sampleRun.1.length = 17 ∧ sampleRun.2.Census :=
  ⟨booted_sample, run_sample, length_sample, Run.census booted_sample run_sample⟩

end RoundRobin.Host
