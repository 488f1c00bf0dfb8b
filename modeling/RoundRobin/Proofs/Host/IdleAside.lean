import RoundRobin.Proofs.Host.Fairness
import RoundRobin.Proofs.Host.Misuse

/-!
# The idle thread waits on no queue

The idle thread never sleeps. As long as nobody unblocks it, it is not ready in its turn either: it
runs because a scheduling step finds nobody else. But unblocking it is not refused, and then it
stands in the ready queue like any other thread.
-/

namespace RoundRobin

open Scheduler

namespace Roster

variable {m : Roster} {idle main now : Nat} {a : Action}

theorem ready_dispatch (idle : Nat) (m : Roster) : (m.dispatch idle).ready = m.ready.tail := by
  unfold dispatch
  split
  · next hnil =>
      rw [hnil]
      rfl
  · next hcons =>
      rw [hcons]
      rfl

/-- A scheduling step leads to the idle thread only if nobody is ready. -/
theorem ready_eq_nil_of_dispatch (hidle : idle ∉ m.ready)
    (hruns : (m.dispatch idle).running = idle) : m.ready = [] := by
  unfold dispatch at hruns
  split at hruns
  · assumption
  · next hcons =>
      have hhead : idle ∈ m.ready := by
        rw [hcons, ← hruns]
        exact List.mem_cons_self
      exact absurd hhead hidle

theorem running_exit (idle main : Nat) (m : Roster) :
    (m.exit idle main).running = (m.drain.dispatch idle).running := by
  unfold exit
  split <;> rfl

theorem ready_exit (idle main : Nat) (m : Roster) : (m.exit idle main).ready = m.ready.tail := by
  have hready : (m.drain.dispatch idle).ready = m.ready.tail := ready_dispatch idle m.drain
  unfold exit
  split
  · exact hready
  · exact hready

/-- The idle thread does not become ready, unless it is unblocked. -/
theorem idle_notMem_ready_obey (hready : idle ∉ m.ready)
    (hasleep : ∀ entry ∈ m.asleep, entry.2 ≠ idle) (hunblock : a ≠ .unblock idle)
    (hcreate : a ≠ .create idle) : idle ∉ (m.obey idle main now a).ready := by
  have hafter : ∀ x, x ≠ idle → idle ∉ m.ready ++ [x] := by
    intro x hx
    rw [List.mem_append, List.mem_singleton, not_or]
    exact ⟨hready, hx.symm⟩
  have hreleased : ∀ due, idle ∉ (m.release due).ready := by
    intro due hmem
    obtain hold | hwoken := List.mem_append.mp hmem
    · exact hready hold
    · obtain ⟨entry, hentry, heq⟩ := List.mem_map.mp hwoken
      exact hasleep entry (List.mem_of_mem_filter hentry) heq
  cases a with
  | count => exact hready
  | unblock t => exact hafter t fun heq => hunblock (heq ▸ rfl)
  | create t => exact hafter t fun heq => hcreate (heq ▸ rfl)
  | yield =>
      simp only [obey, yield]
      split
      · rw [ready_dispatch]
        exact fun hmem => hready (List.mem_of_mem_tail hmem)
      · next hother =>
          rw [ready_dispatch]
          exact fun hmem => hafter _ hother (List.mem_of_mem_tail hmem)
  | block | sleep =>
      simp only [obey, sleep, ready_dispatch]
      exact fun hmem => hready (List.mem_of_mem_tail hmem)
  | exit =>
      simp only [obey, ready_exit]
      exact fun hmem => hready (List.mem_of_mem_tail hmem)
  | wake due => exact hreleased due
  | interrupt => exact hreleased (now + 1)

/-- Only a scheduling step changes who runs. -/
theorem running_obey (hquiet : a.schedules = false) :
    (m.obey idle main now a).running = m.running := by
  cases a with
  | yield | block | sleep | exit => cases hquiet
  | count | unblock | create | wake | interrupt => rfl

/-- The idle thread runs after a scheduling step only if nobody was ready. A thread that yields is
ready itself. -/
theorem ready_eq_nil_of_obey (hready : idle ∉ m.ready) (hschedules : a.schedules = true)
    (hruns : (m.obey idle main now a).running = idle) :
    m.ready = [] ∧ (a = .yield → m.running = idle) := by
  cases a with
  | count | unblock | create | wake | interrupt => cases hschedules
  | block => exact ⟨ready_eq_nil_of_dispatch hready hruns, by simp⟩
  | sleep wake =>
      rw [obey, sleep] at hruns
      -- the list it dispatches from is that of `m`, but not so the sleepers
      have hnone := ready_eq_nil_of_dispatch (by exact hready) hruns
      exact ⟨hnone, by simp⟩
  | exit =>
      rw [obey, running_exit] at hruns
      have hnone : m.drain.ready = [] := ready_eq_nil_of_dispatch hready hruns
      exact ⟨hnone, by simp⟩
  | yield =>
      simp only [obey, yield] at hruns
      split at hruns
      · next hself =>
          have hnone : m.drain.ready = [] := ready_eq_nil_of_dispatch hready hruns
          exact ⟨hnone, fun _ => hself⟩
      · next hother =>
          have hlast : idle ∉ (m.drain.append m.running).ready := by
            change idle ∉ m.ready ++ [m.running]
            rw [List.mem_append, List.mem_singleton, not_or]
            exact ⟨hready, Ne.symm hother⟩
          have hnone : m.ready ++ [m.running] = [] := ready_eq_nil_of_dispatch hlast hruns
          exact absurd hnone (List.append_ne_nil_of_right_ne_nil _ (List.cons_ne_nil _ _))

end Roster

namespace Host

variable {Allowed : Host → Call → Prop} {h h' h₀ : Host} {es : List Event} {call : Call}
  {created : Option Nat} {r main idle : Nat}

/-- The calls of `Allowed` that do not reach the scheduling step. -/
def Quiet (Allowed : Host → Call → Prop) (h : Host) (call : Call) : Prop :=
  Allowed h call ∧ (call.action h).schedules = false

/-- In the run `es` from `h₀` to `h` the call `call`, made on `h₁`, is the last one that reaches the
scheduling step. -/
structure LastStep (Allowed : Host → Call → Prop) (h₀ : Host) (es : List Event) (h h₁ : Host)
    (call : Call) : Prop where
  schedules : (call.action h₁).schedules = true
  passed : ∃ before created h₂ after, es = before ++ .between h₁ call created h₂ :: after ∧
    Run Allowed h₀ before h₁ ∧ Allowed h₁ call ∧ call.perform h₁ = .ok created h₂ ∧
      Run (Quiet Allowed) h₂ after h

/-- A run reaches no scheduling step, or there is a last one. -/
theorem Run.last_step (hrun : Run Allowed h₀ es h) :
    Run (Quiet Allowed) h₀ es h ∨ ∃ h₁ call, LastStep Allowed h₀ es h h₁ call := by
  induction hrun with
  | nil => exact Or.inl .nil
  | @snoc es h h' call created hrun hallowed hperforms ih =>
      cases hschedules : (call.action h).schedules with
      | true =>
          exact Or.inr ⟨h, call, hschedules, es, created, h', [], rfl, hrun, hallowed, hperforms,
            .nil⟩
      | false =>
          rcases ih with hquiet | ⟨h₁, last, hlast, before, c, h₂, after, rfl, hrest, hcall,
            hstep, hquiet⟩
          · exact Or.inl (hquiet.snoc ⟨hallowed, hschedules⟩ hperforms)
          · refine Or.inr ⟨h₁, last, hlast, before, c, h₂, _, ?_, hrest, hcall, hstep,
              hquiet.snoc ⟨hallowed, hschedules⟩ hperforms⟩
            rw [List.append_assoc, List.cons_append]

/-- The calls of a kernel that never unblocks its idle thread. -/
def LeavesIdle (h : Host) (call : Call) : Prop :=
  Kernel h call ∧ ∀ idle ∈ h.scheduler.idle, call ≠ .unblock idle

instance (h : Host) (call : Call) : Decidable (LeavesIdle h call) :=
  inferInstanceAs (Decidable (_ ∧ _))

theorem Call.amounts_action (h : Host) (call : Call) :
    call.Amounts h.scheduler.ticks (call.action h) := by
  have hnap : ∀ ticks, napAction h.scheduler.ticks ticks = .count ∨
      ∃ due, napAction h.scheduler.ticks ticks = .sleep due := by
    intro ticks
    unfold napAction
    split
    · exact Or.inl rfl
    · exact Or.inr ⟨_, rfl⟩
  cases call with
  | create =>
      simp only [Amounts, action]
      split
      · exact Or.inr ⟨_, rfl⟩
      · exact Or.inl rfl
  | sleep ticks =>
      by_cases hzero : ticks = 0
      · exact Or.inl ⟨hzero, if_pos hzero⟩
      · exact Or.inr ⟨hzero, if_neg hzero⟩
  | msleep | usleep | nsleep => exact hnap _
  | _ => rfl

theorem Call.Amounts.unblock_iff {now b : Nat} {a : Action} (ha : call.Amounts now a) :
    a = .unblock b ↔ call = .unblock b := by
  cases call <;> simp_all [Call.Amounts] <;> grind

/-- The idle thread never sleeps. -/
theorem Orderly.idle_not_asleep (ho : h.Orderly r) (hidle : h.scheduler.idle = some idle) :
    idle ∉ h.scheduler.sleepers.queue.members := by
  intro hmem
  have howner := (ho.settled.linked.sleep.mem_iff idle).mp hmem
  exact (ho.settled.asleep_of_owner howner).2.2 hidle

/-- No thread is created in the block of the idle thread, which is in use. -/
theorem Takes.ne_idle_of_create {b n : Nat} (ht : h.Takes r (.create b) h' n) (ho : h.Orderly r)
    (hidle : h.scheduler.idle = some idle) : b ≠ idle := by
  rintro rfl
  obtain ⟨k, hslot, rfl⟩ := Step.slot_of_create ht
  exact ho.settled.not_live_of_free (Pool.busy_of_freeSlot? hslot)
    (Or.inr (ho.settled.housed.idle _ hidle))

theorem Ordered.callerIdle_iff (hs : h.Ordered main idle) :
    h.CallerIdle ↔ h.roster.running = idle := by
  rw [CallerIdle, hs.named.idle_eq, Option.some_inj]
  exact eq_comm

/-- The idle thread is not ready in its turn, and stays so with every call that does not unblock
it. -/
theorem Ordered.idle_stays_aside (hs : h.Ordered main idle) (hready : idle ∉ h.roster.ready)
    (hallowed : LeavesIdle h call) (hperforms : call.perform h = .ok created h') :
    h'.Ordered main idle ∧ idle ∉ h'.roster.ready := by
  obtain ⟨hafter, hobeys⟩ := hs.call hallowed.1 hperforms
  obtain ⟨r, ho⟩ := hs.orderly
  refine ⟨hafter, ?_⟩
  rw [hobeys.lists]
  apply Roster.idle_notMem_ready_obey hready
  · intro entry hentry heq
    obtain ⟨b, hb, rfl⟩ := List.mem_map.mp hentry
    obtain rfl : b = idle := heq
    exact ho.idle_not_asleep hs.named.idle_eq hb
  · intro haction
    exact hallowed.2 idle hs.named.idle_eq ((call.amounts_action h).unblock_iff.mp haction)
  · intro haction
    obtain ⟨⟨n, ht⟩, -⟩ := Call.takes_action ho hallowed.1 hperforms
    rw [haction] at ht
    exact ht.ne_idle_of_create ho hs.named.idle_eq rfl

theorem Run.idle_aside (hs : h₀.Ordered main idle) (hready : idle ∉ h₀.roster.ready)
    (hrun : Run LeavesIdle h₀ es h) : h.Ordered main idle ∧ idle ∉ h.roster.ready := by
  induction hrun with
  | nil => exact ⟨hs, hready⟩
  | snoc _ hallowed hperforms ih => exact ih.1.idle_stays_aside ih.2 hallowed hperforms

/-- Without a scheduling step the same thread runs on. -/
theorem Run.running_of_quiet (hs : h₀.Ordered main idle)
    (hrun : Run (Quiet LeavesIdle) h₀ es h) :
    h.Ordered main idle ∧ h.roster.running = h₀.roster.running := by
  induction hrun with
  | nil => exact ⟨hs, rfl⟩
  | snoc _ hallowed hperforms ih =>
      obtain ⟨hafter, hobeys⟩ := ih.1.call hallowed.1.1 hperforms
      refine ⟨hafter, Eq.trans ?_ ih.2⟩
      rw [hobeys.lists]
      exact Roster.running_obey hallowed.2

/-- If nobody unblocks the idle thread, it runs only because nobody was ready at the last scheduling
step. -/
theorem Run.last_resort (hs₀ : h₀.Ordered main idle) (hsolo : h₀.roster = .solo main)
    (hleaves : Run LeavesIdle h₀ es h) (hself : h.CallerIdle) :
    ∃ h₁ call, LastStep LeavesIdle h₀ es h h₁ call ∧ h₁.scheduler.ready.members = [] ∧
      (call = .yieldNow → h₁.CallerIdle) := by
  have hready₀ : idle ∉ h₀.roster.ready := by
    rw [hsolo]
    exact List.not_mem_nil
  rcases hleaves.last_step with hquiet | ⟨h₁, call, hlast⟩
  · -- without a scheduling step the boot thread still runs
    obtain ⟨hs, hruns⟩ := Run.running_of_quiet hs₀ hquiet
    rw [hs.callerIdle_iff, hruns, hsolo] at hself
    obtain rfl : main = idle := hself
    obtain ⟨r, ho⟩ := hs₀.orderly
    exact absurd hs₀.named.initial_eq (ho.settled.housed.idle_ne_initial hs₀.named.idle_eq)
  · refine ⟨h₁, call, hlast, ?_⟩
    obtain ⟨before, created, h₂, after, -, hbefore, hallowed, hperforms, hquiet⟩ := hlast.passed
    obtain ⟨hs₁, hready₁⟩ := Run.idle_aside hs₀ hready₀ hbefore
    obtain ⟨hs₂, hobeys⟩ := hs₁.call hallowed.1 hperforms
    obtain ⟨hs, hruns⟩ := Run.running_of_quiet hs₂ hquiet
    rw [hs.callerIdle_iff, hruns, hobeys.lists] at hself
    obtain ⟨hempty, hyields⟩ := Roster.ready_eq_nil_of_obey hready₁ hlast.schedules hself
    refine ⟨hempty, ?_⟩
    rintro rfl
    exact hs₁.callerIdle_iff.mpr (hyields rfl)

/-- The idle thread is in `idle`, and it waits on no queue. -/
structure IdleAside (h₀ : Host) (es : List Event) (h : Host) (idle : Nat) : Prop where
  handle : h.scheduler.idle = some idle
  not_asleep : idle ∉ h.scheduler.sleepers.queue.members
  /-- It is not ready in its turn, if nobody unblocked it. -/
  not_ready : Run LeavesIdle h₀ es h → idle ∉ h.scheduler.ready.members
  /-- If nobody unblocked it, it runs because nobody was ready at the last scheduling step, not even
  a thread that yielded. -/
  last_resort : Run LeavesIdle h₀ es h → h.CallerIdle →
    ∃ h₁ call, LastStep LeavesIdle h₀ es h h₁ call ∧ h₁.scheduler.ready.members = [] ∧
      (call = .yieldNow → h₁.CallerIdle)
  /-- Whoever unblocks it makes it ready in its turn. -/
  promoted : ∀ created h', (Call.unblock idle).perform h = .ok created h' →
    idle ∈ h'.scheduler.ready.members

/-- In every state that a kernel reaches after boot the idle thread is not asleep. Unless the
kernel has unblocked it, it is not on the ready queue, and it runs only if that queue was empty at
the last scheduling step. -/
theorem Run.idle_thread_aside (hbooted : h₀.Booted) (hrun : Run Kernel h₀ es h) :
    ∃ idle, (h.scheduler.threads.get idle).tid = idleTid ∧ IdleAside h₀ es h idle := by
  obtain ⟨main, idle, hafter⟩ := hbooted.after
  have hs₀ : h₀.Ordered main idle := ⟨⟨main, hafter.orderly⟩, hafter.ledger.toNamed⟩
  have hsolo := hbooted.roster_eq hafter
  have hready₀ : idle ∉ h₀.roster.ready := by
    rw [hsolo]
    exact List.not_mem_nil
  have hnamed := (hrun.ledger hafter).toNamed
  obtain ⟨r, ho⟩ := hrun.orderly ⟨main, hafter.orderly⟩
  refine ⟨idle, hnamed.tid_idle, hnamed.idle_eq, ho.idle_not_asleep hnamed.idle_eq,
    fun hleaves => (Run.idle_aside hs₀ hready₀ hleaves).2, ?_, ?_⟩
  · intro hleaves hself
    exact hleaves.last_resort hs₀ hsolo hself
  · intro created h' hunblocked
    obtain ⟨-, _, hact⟩ := Call.silently_eq_ok_iff.mp hunblocked
    obtain ⟨-, -, -, rfl⟩ := unblock_eq_ok_iff.mp hact
    exact List.mem_append_right _ (List.mem_singleton_self idle)

/-- The boot thread sleeps and the other one blocks. The idle thread is preempted, runs on, blocks
itself, and unblocks the other thread. -/
def lullSample : List Event × Host :=
  play LeavesIdle sample
    [.create "a" 3 threadBody 7, .sleep 2, .setLevel .off, .block, .timerInterrupt, .yieldNow,
      .setLevel .on, .idlePass, .unblock 0x40001000]

/-- By the time another thread is ready, the idle thread may still run. -/
theorem idle_thread_aside_sample :
    sample.Booted ∧ Run LeavesIdle sample lullSample.1 lullSample.2 ∧ lullSample.1.length = 9 ∧
      lullSample.2.CallerIdle ∧ lullSample.2.scheduler.ready.members = [0x40001000] ∧
      ∃ idle, (lullSample.2.scheduler.threads.get idle).tid = idleTid ∧
        IdleAside sample lullSample.1 lullSample.2 idle := by
  have hleaves : Run LeavesIdle sample lullSample.1 lullSample.2 := Run.play _ _
  exact ⟨booted_sample, hleaves, by decide +kernel, by decide +kernel, by decide +kernel,
    Run.idle_thread_aside booted_sample (hleaves.mono fun _ _ hallowed => hallowed.1)⟩

/-- The boot thread unblocks the idle thread before it creates another one. -/
def promotedSample : List Event × Host :=
  play Kernel sample [.unblock 0x40000000, .create "a" 3 threadBody 7]

/-- It yields. -/
def overtakenSample : List Event × Host :=
  play Kernel promotedSample.2 [.yieldNow]

/-- The idle thread stands in the ready queue before the new thread, and runs before it. -/
theorem unblocked_idle_ready :
    sample.Booted ∧ sample.scheduler.idle = some 0x40000000 ∧
      Run Kernel sample promotedSample.1 promotedSample.2 ∧
      promotedSample.2.scheduler.ready.members = [0x40000000, 0x40001000] ∧
      Run Kernel sample (promotedSample.1 ++ overtakenSample.1) overtakenSample.2 ∧
      overtakenSample.1.map (·.call) = [.yieldNow] ∧ overtakenSample.2.CallerIdle :=
  ⟨booted_sample, by decide +kernel, Run.play _ _, by decide +kernel,
    Run.append (Run.play _ _) (Run.play _ _), by decide +kernel, by decide +kernel⟩

end Host

end RoundRobin
