import RoundRobin.Proofs.Host.Boot

/-!
# The running thread

Nothing stores which thread runs. In every state that a kernel reaches there is exactly one, and
it is the one whose stack is in use.
-/

namespace RoundRobin.Host

open Scheduler

variable {h h₀ : Host} {es : List Event} {r : Nat}

theorem Orderly.running_iff (ho : h.Orderly r) (t : Nat) :
    h.scheduler.Live t ∧ (h.scheduler.threads.get t).status = .running ↔ t = r := by
  constructor
  · rintro ⟨hlive, hrunning⟩
    by_contra hne
    exact (ho.settled.others t hlive hne).waits.status_ne_running hrunning
  · rintro rfl
    exact ⟨ho.settled.live, ho.settled.here.status⟩

theorem Orderly.isCurrent (ho : h.Orderly r) : h.IsCurrent r :=
  ⟨ho.here, ho.settled.intact, ho.settled.here.status⟩

theorem Run.exists_orderly (hbooted : h₀.Booted) (hrun : Run Kernel h₀ es h) :
    ∃ r, h.Orderly r := by
  obtain ⟨main, idle, hafter⟩ := hbooted.after
  exact hrun.orderly ⟨main, hafter.orderly⟩

/-- In every state that a kernel reaches after boot exactly one live thread has the status of a
running one. Its control block is intact, it is found by rounding the stack pointer down, and the
check of the current thread succeeds. -/
theorem Run.unique_running (hbooted : h₀.Booted) (hrun : Run Kernel h₀ es h) :
    ∃ b, (∀ t, h.scheduler.Live t ∧ (h.scheduler.threads.get t).status = .running ↔ t = b) ∧
      (h.scheduler.threads.get b).IsValid ∧ Block.base h.sp = b ∧
      (runningThread : HostM Nat) h = .ok b h ∧ (current : HostM Nat) h = .ok b h := by
  obtain ⟨b, ho⟩ := hrun.exists_orderly hbooted
  refine ⟨b, ho.running_iff, ho.settled.intact, base_of_containing ho.here, ?_, ?_⟩
  · exact runningThread_eq_ok_iff.mpr ⟨ho.here, rfl⟩
  · exact current_eq_ok_iff.mpr ⟨ho.isCurrent, rfl⟩

/-- Two threads are created and run in turn with the boot thread, which sleeps twice; both exit,
and at last the idle thread runs. -/
def sampleRun : List Event × Host :=
  play Kernel sample
    [.create "a" 3 threadBody 7, .sleep 2, .timerInterrupt, .setLevel .on, .timerInterrupt,
      .takeYield, .yieldNow, .create "b" 5 threadBody 9, .sleep 1, .setLevel .on, .retire,
      .setLevel .on, .retire, .setLevel .on, .idlePass, .timerInterrupt, .idlePass]

theorem run_sample : Run Kernel sample sampleRun.1 sampleRun.2 :=
  Run.play _ _

theorem length_sample : sampleRun.1.length = 17 := by decide +kernel

theorem unique_running_sample :
    sample.Booted ∧ Run Kernel sample sampleRun.1 sampleRun.2 ∧ sampleRun.1.length = 17 ∧
    ∃ b, (∀ t, sampleRun.2.scheduler.Live t ∧
        (sampleRun.2.scheduler.threads.get t).status = .running ↔ t = b) ∧
      (sampleRun.2.scheduler.threads.get b).IsValid ∧ Block.base sampleRun.2.sp = b ∧
      (runningThread : HostM Nat) sampleRun.2 = .ok b sampleRun.2 ∧
      (current : HostM Nat) sampleRun.2 = .ok b sampleRun.2 :=
  ⟨booted_sample, run_sample, length_sample, Run.unique_running booted_sample run_sample⟩

end RoundRobin.Host
