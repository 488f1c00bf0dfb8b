import RoundRobin.Proofs.Host.Refinement
import RoundRobin.Proofs.Scheduler.Rotation

/-!
# What waits after an exit

An exited thread keeps its block until the next yield or exit. A thread that gives up the processor
in another way passes it by, so the block can be missing where a thread is created.
-/

namespace RoundRobin.Host

open Scheduler

variable {h h' h₀ h₁ : Host} {es : List Event} {e : Event} {call : Call} {created : Option Nat}
  {r main idle tid : Nat}

/-- The idle thread, the threads that have not exited and those that wait to be taken back have one
block each. -/
theorem Ledger.inUse_eq (hl : Ledger main idle es h) :
    h.scheduler.pool.inUse = 1 + (unexitedTids es).length + h.deadTids.length := by
  have hlength := hl.in_use.length_eq
  rw [tidsInUse, List.length_map, Pool.length_blocksInUse] at hlength
  simp only [List.cons_append, List.length_cons, List.length_append] at hlength
  omega

/-- No thread is created exactly if no block is free. -/
theorem created_eq_none_iff {name : String} {priority entry arg : Nat} (ho : h.Orderly r)
    (hperforms : (Call.create name priority entry arg).perform h = .ok created h') :
    created = none ↔ h.scheduler.pool.freeSlot? = none := by
  obtain ⟨-, rfl⟩ := takes_create_action ho hperforms
  rw [Option.map_eq_none_iff, Call.action]
  cases h.scheduler.pool.freeSlot? with
  | none => simp [createdBlock]
  | some k => simp [createdBlock]

/-- A thread that waits to be taken back takes up as much room as one that has not exited. -/
theorem Ledger.refused_iff {name : String} {priority entry arg : Nat}
    (hl : Ledger main idle es h) (ho : h.Orderly r)
    (hperforms : (Call.create name priority entry arg).perform h = .ok created h') :
    created = none ↔
      h.scheduler.pool.capacity = 1 + (unexitedTids es).length + h.deadTids.length := by
  rw [created_eq_none_iff ho hperforms, Pool.freeSlot?_eq_none_iff, hl.inUse_eq, eq_comm]

/-- What waits of the thread `tid` once it has exited. The boot thread has no block to give back. -/
def remains (tid : Nat) : List Nat :=
  if tid = mainTid then [] else [tid]

/-- A yield or an exit takes back all that waits, and other calls take back nothing. -/
theorem freedBetween_of_call (ho : h.Orderly r) (hallowed : Kernel h call)
    (hperforms : call.perform h = .ok created h') :
    freedBetween h h' = if call = .yieldNow ∨ call = .retire then h.deadTids else [] := by
  cases entry_of_call ho hallowed hperforms with
  | kept hcall _ hfreed => exact hfreed.trans (if_neg hcall).symm
  | created hcall _ hfreed => exact hfreed.trans (if_neg hcall).symm
  | returned hcall _ hfreed => exact hfreed.trans (if_pos hcall).symm

/-- After a yield nobody waits, after an exit at most the thread that exits, and any other call
leaves those waiting who were. -/
theorem Ledger.deadTids_of_call (hl : Ledger main idle es h) (ho : h.Orderly r)
    (hallowed : Kernel h call) (hperforms : call.perform h = .ok created h') :
    h'.deadTids = if call = .yieldNow then [] else
      if call = .retire then remains h.callerTid else h.deadTids := by
  cases entry_of_call ho hallowed hperforms with
  | kept hcall _ _ _ hdead | created hcall _ _ _ _ _ _ _ _ hdead =>
      obtain ⟨hyield, hretire⟩ := not_or.mp hcall
      rw [hdead]
      exact ((if_neg hyield).trans (if_neg hretire)).symm
  | returned hcall _ _ _ _ _ _ _ _ hdead =>
      have hdead : h'.deadTids =
          if call = .retire ∧ h.scheduler.initial ≠ some r then [h.callerTid] else [] := hdead
      rw [hdead]
      rcases hcall with hcall | hcall
      · obtain rfl : call = .yieldNow := hcall
        rfl
      · obtain rfl : call = .retire := hcall
        have hmain : h.callerTid = mainTid ↔ h.scheduler.initial = some r := by
          rw [callerTid_of_containing ho.here, hl.caller_is_main ho]
        simp [remains, hmain]

/-- What becomes of the thread `tid`, which exited with the last of the events `es`, when the call
that leads from `h` to `h'` follows. -/
structure Deferred (tid : Nat) (es : List Event) (h : Host) (call : Call) (created : Option Nat)
    (h' : Host) : Prop where
  /-- A yield or an exit takes it back. No other call does, whether it gives up the processor or
  not. -/
  freed : freedBetween h h' =
    if call = .yieldNow ∨ call = .retire then remains tid else []
  /-- If the call is neither, the thread still waits. -/
  dead : h'.deadTids = if call = .yieldNow then [] else
    if call = .retire then remains h.callerTid else remains tid
  /-- After the call a thread is refused if and only if the idle thread, the threads that have not
  exited and those that wait hold all blocks. -/
  refused : ∀ name priority entry arg answer h'',
    (Call.create name priority entry arg).perform h' = .ok answer h'' →
      (answer = none ↔ h'.scheduler.pool.capacity =
        1 + (unexitedTids (es ++ [.between h call created h'])).length + h'.deadTids.length)

/-- A thread that exits is taken back by the very next call if that is a yield or an exit. After any
other call it still waits, and counts when a new thread is to be created. -/
theorem Run.deferred (hbooted : h₀.Booted) (hrun : Run Kernel h₀ (es ++ [e]) h)
    (hexit : e.call = .retire) (hallowed : Kernel h call)
    (hperforms : call.perform h = .ok created h') :
    Deferred e.caller (es ++ [e]) h call created h' := by
  obtain ⟨main, idle, hafter⟩ := hbooted.after
  obtain ⟨r, ho⟩ := hrun.orderly ⟨main, hafter.orderly⟩
  have hl := hrun.ledger hafter
  have hwaits : h.deadTids = remains e.caller := by
    obtain ⟨h₁, hbefore, hlast⟩ := hrun.split
    obtain ⟨r₁, ho₁⟩ := hbefore.orderly ⟨main, hafter.orderly⟩
    obtain ⟨h₂, exit, answer, hallows, hexits, rfl, hnil⟩ := hlast.uncons
    obtain rfl := hnil.eq_of_nil
    obtain rfl : exit = .retire := hexit
    exact (hbefore.ledger hafter).deadTids_of_call ho₁ hallows hexits
  constructor
  · rw [freedBetween_of_call ho hallowed hperforms, hwaits]
  · rw [hl.deadTids_of_call ho hallowed hperforms, hwaits]
  · intro name priority entry arg answer h'' hcreate
    have hnext : Run Kernel h₀ (es ++ [e] ++ [.between h call created h']) h' :=
      hrun.snoc hallowed hperforms
    obtain ⟨r', ho'⟩ := hnext.orderly ⟨main, hafter.orderly⟩
    exact (hnext.ledger hafter).refused_iff ho' hcreate

/-- Two threads are created and the first one runs. -/
def handoverSample : List Event × Host :=
  play Kernel sample [.create "a" 3 threadBody 7, .create "b" 5 threadBody 9, .yieldNow]

/-- It exits. -/
def exitSample : List Event × Host :=
  play Kernel handoverSample.2 [.retire]

/-- The second one goes to sleep. -/
def passedSample : List Event × Host :=
  play Kernel exitSample.2 [.sleepUntil 5]

theorem deferred_sample :
    sample.Booted ∧ ∃ es e created, Run Kernel sample (es ++ [e]) exitSample.2 ∧
      e.call = .retire ∧ Kernel exitSample.2 (.sleepUntil 5) ∧
      (Call.sleepUntil 5).perform exitSample.2 = .ok created passedSample.2 ∧
      Deferred e.caller (es ++ [e]) exitSample.2 (.sleepUntil 5) created passedSample.2 := by
  obtain ⟨answer, hexits⟩ : ∃ answer, Call.retire.perform handoverSample.2 =
      .ok answer exitSample.2 := Run.performs_of_play (by decide +kernel)
  obtain ⟨created, hsleeps⟩ : ∃ created, (Call.sleepUntil 5).perform exitSample.2 =
      .ok created passedSample.2 := Run.performs_of_play (by decide +kernel)
  have hrun : Run Kernel sample
      (handoverSample.1 ++ [.between handoverSample.2 .retire answer exitSample.2]) exitSample.2 :=
    (Run.play sample _).snoc (by decide +kernel) hexits
  have hallowed : Kernel exitSample.2 (.sleepUntil 5) := by decide +kernel
  exact ⟨booted_sample, _, _, created, hrun, rfl, hallowed, hsleeps,
    Run.deferred booted_sample hrun rfl hallowed hsleeps⟩

/-- The sleep is a scheduling step, yet it takes back nothing. A third thread is refused then,
though of the two that were created only one has not exited. -/
theorem passed_by_sleep :
    sample.Booted ∧ Run Kernel sample (handoverSample.1 ++ exitSample.1) exitSample.2 ∧
      (exitSample.1.map fun e => (e.caller, e.call)) = [(3, .retire)] ∧
      ((Call.sleepUntil 5).action exitSample.2).schedules = true ∧
      Run Kernel exitSample.2 passedSample.1 passedSample.2 ∧
      (passedSample.1.map fun e => (e.call, e.freed)) = [(.sleepUntil 5, [])] ∧
      passedSample.2.deadTids = [3] ∧
      unexitedTids (handoverSample.1 ++ exitSample.1 ++ passedSample.1) = [4] ∧
      passedSample.2.scheduler.pool.capacity = 3 ∧
      ((play Kernel passedSample.2 [.create "c" 3 threadBody 0]).1.map fun e => e.created) =
        [none] :=
  ⟨booted_sample, (Run.play _ _).append (Run.play _ _), by decide +kernel, by decide +kernel,
    Run.play _ _, by decide +kernel, by decide +kernel, by decide +kernel, by decide +kernel,
    by decide +kernel⟩

end RoundRobin.Host
