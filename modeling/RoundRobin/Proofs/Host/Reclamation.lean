import Mathlib.Data.List.Perm.Subperm
import RoundRobin.Proofs.Host.Ledger

/-!
# Taking back exited threads

The block of an exited thread goes back to the pool once, by the first yield or exit after its
own exit, and never while it is in use.
-/

namespace RoundRobin.Host

open Scheduler

variable {h h' h₀ : Host} {es before after : List Event} {e : Event} {r main idle tid : Nat}

theorem AfterBoot.ledger (hafter : h.AfterBoot main idle) : Ledger main idle [] h := by
  have hdead : h.deadTids = [] := by
    rw [deadTids, tidsOf, hafter.none_dead, List.map_nil]
  constructor
  · exact ⟨hafter.initial_eq, hafter.idle_eq, hafter.tid_main, hafter.tid_idle⟩
  · rw [hafter.nextTid_eq]
    exact Nat.lt_succ_self _
  · intro x hx
    cases hx
  · exact List.nodup_nil
  · exact List.nodup_nil
  · intro x hx
    cases hx
  · rw [tidsInUse, hafter.blocks, List.map_singleton, hafter.tid_idle, hdead]
    exact List.Perm.refl _
  · exact hdead
  · exact hafter.frees_eq
  · intro hx
    cases hx

theorem Run.ledger (hafter : h₀.AfterBoot main idle) (hrun : Run Kernel h₀ es h) :
    Ledger main idle es h := by
  induction hrun with
  | nil => exact hafter.ledger
  | snoc hrun hallowed hperforms ih =>
      obtain ⟨r, ho⟩ := hrun.orderly ⟨main, hafter.orderly⟩
      exact ih.snoc ho hallowed hperforms

/-- The blocks in use, one by one. -/
theorem Ledger.blocks_perm (hl : Ledger main idle es h) (ho : h.Orderly r) :
    ∃ others : List Nat,
      h.scheduler.pool.blocksInUse.Perm (idle :: others ++ h.scheduler.destruction.members) ∧
      (others.map fun b => (h.scheduler.threads.get b).tid).Perm (unexitedTids es) := by
  have hidle : idle ∉ h.scheduler.destruction.members := by
    intro hmem
    exact hl.idle_notMem_created
      (hl.dead_created (List.mem_map.mpr ⟨idle, hmem, hl.tid_idle⟩))
  have hsub : (idle :: h.scheduler.destruction.members).Subperm h.scheduler.pool.blocksInUse := by
    apply List.subperm_of_subset
    · exact List.nodup_cons.mpr ⟨hidle, ho.settled.linked.destruction.nodup⟩
    · intro b hb
      rcases List.mem_cons.mp hb with rfl | hb
      · exact ho.settled.housed.idle _ hl.idle_eq
      · exact (ho.dead_pooled hb).2
  obtain ⟨known, hknown, hsublist⟩ := hsub
  obtain ⟨others, hothers⟩ := hsublist.exists_perm_append
  have hperm : h.scheduler.pool.blocksInUse.Perm
      (idle :: others ++ h.scheduler.destruction.members) :=
    calc
      h.scheduler.pool.blocksInUse.Perm (known ++ others) := hothers
      _ |>.Perm (idle :: h.scheduler.destruction.members ++ others) := hknown.append_right others
      _ |>.Perm (idle :: others ++ h.scheduler.destruction.members) :=
        List.perm_append_comm.cons idle
  refine ⟨others, hperm, ?_⟩
  have htids := hperm.map fun b => (h.scheduler.threads.get b).tid
  rw [List.map_append, List.map_cons, hl.tid_idle] at htids
  have hin_use := htids.symm.trans hl.in_use
  exact (List.perm_append_right_iff _).mp ((List.perm_cons _).mp hin_use)

/-- The event that begins a run, as an entry. -/
theorem Run.entry (ho : h₀.Orderly r) (hrun : Run Kernel h₀ (e :: es) h) :
    ∃ h₁ n, Entry h₀ r e h₁ ∧ e.caller = (h₀.scheduler.threads.get r).tid ∧
      h₁.Orderly n ∧ Run Kernel h₀ [e] h₁ ∧ Run Kernel h₁ es h := by
  obtain ⟨h₁, call, created, hallowed, hperforms, rfl, hrest⟩ := hrun.uncons
  obtain ⟨a, n, -, ht, -⟩ := Call.takes ho hallowed hperforms
  have hfirst : Run Kernel h₀ [.between h₀ call created h₁] h₁ := .snoc .nil hallowed hperforms
  exact ⟨h₁, n, entry_of_call ho hallowed hperforms, callerTid_of_containing ho.here,
    ht.orderly ho, hfirst, hrest⟩

/-- Calls that do not take threads back take none back. -/
theorem Run.quiet (ho : h₀.Orderly r) (hrun : Run Kernel h₀ es h)
    (hquiet : ∀ e ∈ es, ¬ e.Schedules) :
    freedTids es = [] ∧ h.deadTids = h₀.deadTids := by
  induction es generalizing h₀ r with
  | nil =>
      obtain rfl := hrun.eq_of_nil
      exact ⟨rfl, rfl⟩
  | cons e es ih =>
      obtain ⟨h₁, n, hentry, -, ho₁, -, hrest⟩ := hrun.entry ho
      obtain ⟨hfreed, hdead⟩ := ih ho₁ hrest fun x hx => hquiet x (List.mem_cons_of_mem _ hx)
      obtain ⟨hfirst, hkept⟩ : e.freed = [] ∧ h₁.deadTids = h₀.deadTids := by
        cases hentry with
        | kept _ _ hfreed _ hdead => exact ⟨hfreed, hdead⟩
        | created _ _ hfreed _ _ _ _ _ _ hdead => exact ⟨hfreed, hdead⟩
        | returned hcall => exact absurd hcall (hquiet e List.mem_cons_self)
      refine ⟨?_, hdead.trans hkept⟩
      rw [freedTids, List.flatMap_cons, hfirst, List.nil_append]
      exact hfreed

/-- What becomes of the thread `tid` that exits with the last of the events `before`, when the
events `after` follow. -/
structure TakenBack (tid : Nat) (before after : List Event) (h : Host) : Prop where
  /-- It is not taken back by its exit or earlier. -/
  not_before : tid ∉ freedTids before
  /-- The first yield or exit that follows takes it back, and nothing else does. -/
  by_first : ∀ mid d rest, after = mid ++ d :: rest → (∀ x ∈ mid, ¬ x.Schedules) → d.Schedules →
    tid ∉ freedTids mid ∧ d.freed = [tid] ∧ tid ∉ freedTids rest
  /-- Without one it waits. -/
  waits : (∀ x ∈ after, ¬ x.Schedules) → tid ∉ freedTids after ∧ tid ∈ h.deadTids

/-- A thread other than the boot thread that exits is the only dead one. -/
theorem Run.dead_of_retire (hl : Ledger main idle es h₀) (ho : h₀.Orderly r)
    (hcall : e.call = .retire) (hcaller : e.caller ≠ mainTid)
    (hrun : Run Kernel h₀ (e :: after) h) :
    ∃ h₁ n, h₁.Orderly n ∧ h₁.deadTids = [e.caller] ∧ Run Kernel h₀ [e] h₁ ∧
      Run Kernel h₁ after h := by
  obtain ⟨h₁, n, hentry, htid, ho₁, hfirst, hrest⟩ := hrun.entry ho
  have hinitial : h₀.scheduler.initial ≠ some r := by
    intro hself
    rw [htid] at hcaller
    have hmain := Option.some.inj (hself.symm.trans hl.initial_eq)
    exact hcaller ((hl.caller_eq_main_iff ho).mpr hmain)
  refine ⟨h₁, n, ho₁, ?_, hfirst, hrest⟩
  cases hentry with
  | kept hquiet => exact absurd (Or.inr hcall) hquiet
  | created hquiet => exact absurd (Or.inr hcall) hquiet
  | returned _ _ _ _ _ _ _ _ _ hdead => rw [hdead, if_pos ⟨hcall, hinitial⟩]

theorem Run.takenBack (hafter : h₀.AfterBoot main idle)
    (hrun : Run Kernel h₀ (before ++ e :: after) h) (hcall : e.call = .retire)
    (hcaller : e.caller ≠ mainTid) : TakenBack e.caller (before ++ [e]) after h := by
  have hnodup := (List.nodup_append'.mp (hrun.ledger hafter).freed_nodup).1
  obtain ⟨h₁, hbefore, hrest⟩ := hrun.split
  obtain ⟨r, ho⟩ := hbefore.orderly ⟨main, hafter.orderly⟩
  obtain ⟨h₂, n, ho₂, hdead, hexit, hlast⟩ :=
    Run.dead_of_retire (hbefore.ledger hafter) ho hcall hcaller hrest
  constructor
  · intro hfreed
    have hearly := ((hbefore.append hexit).ledger hafter).freed_nodup
    rw [hdead] at hearly
    exact (List.nodup_append'.mp hearly).2.2 hfreed (List.mem_singleton_self _)
  · rintro mid d rest rfl hmid hd
    obtain ⟨h₃, hquiet, hnext⟩ := hlast.split
    obtain ⟨hnone, hstill⟩ := hquiet.quiet ho₂ hmid
    obtain ⟨n', ho₃⟩ := hquiet.orderly ⟨n, ho₂⟩
    obtain ⟨h₄, -, hentry, -⟩ := hnext.entry ho₃
    have hfreed : d.freed = [e.caller] := by
      cases hentry with
      | kept hnot => exact absurd hd hnot
      | created hnot => exact absurd hd hnot
      | returned _ _ hfreed => rw [hfreed, hstill, hdead]
    refine ⟨?_, hfreed, ?_⟩
    · rw [hnone]
      exact List.not_mem_nil
    · -- no identifier is taken back twice in the whole run
      have hlater : (e.caller :: freedTids rest).Nodup := by
        rw [List.append_cons, ← List.append_assoc, freedTids, List.flatMap_append] at hnodup
        have hright := (List.nodup_append'.mp hnodup).2.1
        rw [List.flatMap_cons, hfreed] at hright
        exact hright
      exact (List.nodup_cons.mp hlater).1
  · intro hquiet
    obtain ⟨hnone, hstill⟩ := hlast.quiet ho₂ hquiet
    rw [hnone, hstill, hdead]
    exact ⟨List.not_mem_nil, List.mem_singleton_self _⟩

/-- Every event of a run is an entry that was added to a ledger. -/
theorem Run.exists_entry (hafter : h₀.AfterBoot main idle) (hrun : Run Kernel h₀ es h)
    (he : e ∈ es) : ∃ before h₁ h₂ r, Ledger main idle before h₁ ∧ h₁.Orderly r ∧
      Entry h₁ r e h₂ ∧ e.caller = (h₁.scheduler.threads.get r).tid := by
  obtain ⟨before, after, rfl⟩ := List.append_of_mem he
  obtain ⟨h₁, hbefore, hrest⟩ := hrun.split
  obtain ⟨r, ho⟩ := hbefore.orderly ⟨main, hafter.orderly⟩
  obtain ⟨h₂, -, hentry, hcaller, -⟩ := hrest.entry ho
  exact ⟨before, h₁, h₂, r, hbefore.ledger hafter, ho, hentry, hcaller⟩

/-- The taking back of exited threads, after the events `es`. -/
structure Reclamation (es : List Event) (h : Host) : Prop where
  /-- The blocks in use are those of the idle thread, of the threads created in the run that have
  not exited, and those on the destruction queue. -/
  in_use : ∃ idle others, h.scheduler.idle = some idle ∧
    (h.scheduler.threads.get idle).tid = idleTid ∧
    h.scheduler.pool.blocksInUse.Perm (idle :: others ++ h.scheduler.destruction.members) ∧
    (others.map fun b => (h.scheduler.threads.get b).tid).Perm (unexitedTids es)
  /-- They are told apart by their places and by the identifiers of their threads. -/
  distinct : h.scheduler.pool.blocksInUse.Nodup ∧ h.tidsInUse.Nodup
  balance : h.scheduler.pool.inUse + h.scheduler.pool.frees = h.scheduler.pool.allocs
  /-- The events tell of every block that went back to the pool. -/
  frees_eq : h.scheduler.pool.frees = (freedTids es).length
  /-- At most one thread waits to be taken back, and not the running one. -/
  dead_le : h.scheduler.destruction.members.length ≤ 1
  running_notMem : Block.base h.sp ∉ h.scheduler.destruction.members
  /-- Nothing but a yield or an exit takes a thread back. -/
  quiet : ∀ e ∈ es, ¬ e.Schedules → e.freed = []
  /-- No thread is taken back on its own stack. -/
  never_own : ∀ e ∈ es, e.caller ∉ e.freed
  /-- Every thread but the boot thread that exits is taken back by the next yield or exit. -/
  takenBack : ∀ before e after, es = before ++ e :: after → e.call = .retire →
    e.caller ≠ mainTid → TakenBack e.caller (before ++ [e]) after h
  /-- The boot thread has no block of the pool, and it and the idle thread are never taken back. -/
  spared : (∃ main, h.scheduler.initial = some main ∧
      (h.scheduler.threads.get main).tid = mainTid ∧ main ∉ h.scheduler.pool.blocksInUse) ∧
    mainTid ∉ freedTids es ∧ idleTid ∉ freedTids es

/-- In every state that a kernel reaches after boot the blocks in use are those that are needed,
and exited threads were taken back once, not too early and not too late. -/
theorem Run.reclamation (hbooted : h₀.Booted) (hrun : Run Kernel h₀ es h) :
    Reclamation es h := by
  obtain ⟨main, idle, hafter⟩ := hbooted.after
  obtain ⟨r, ho⟩ := hrun.orderly ⟨main, hafter.orderly⟩
  have hl := hrun.ledger hafter
  have hfreed : ∀ x ∈ freedTids es, x ∈ exitedTids es ∧ x ≠ mainTid := by
    intro x hx
    have hmem : x ∈ (exitedTids es).filter (· ≠ mainTid) := by
      rw [← hl.freed_eq]
      exact List.mem_append_left _ hx
    simpa using hmem
  constructor
  · obtain ⟨others, hperm, htids⟩ := hl.blocks_perm ho
    exact ⟨idle, others, hl.idle_eq, hl.tid_idle, hperm, htids⟩
  · exact ⟨Pool.nodup_blocksInUse _, hl.in_use_nodup⟩
  · exact ho.settled.housed.balanced.balance
  · exact hl.frees_eq
  · exact ho.settled.dead
  · rw [base_of_containing ho.here]
    exact fun hdead => (ho.dead_pooled hdead).1 rfl
  · intro e he hquiet
    obtain ⟨_, h₁, h₂, r', -, -, hentry, -⟩ := hrun.exists_entry hafter he
    cases hentry with
    | kept _ _ hnone => exact hnone
    | created _ _ hnone => exact hnone
    | returned hcall => exact absurd hcall hquiet
  · intro e he
    obtain ⟨_, h₁, h₂, r', hl₁, ho₁, hentry, hcaller⟩ := hrun.exists_entry hafter he
    cases hentry with
    | kept _ _ hnone | created _ _ hnone =>
        rw [hnone]
        exact List.not_mem_nil
    | returned _ _ hback =>
        rw [hback, hcaller]
        exact hl₁.caller_notMem_dead ho₁
  · rintro before e after rfl hcall hcaller
    exact hrun.takenBack hafter hcall hcaller
  · refine ⟨⟨main, hl.initial_eq, hl.tid_main, ?_⟩, ?_, ?_⟩
    · intro hmem
      obtain ⟨k, hk, rfl⟩ := Pool.mem_blocksInUse.mp hmem
      exact ho.settled.housed.boot k (Pool.lt_capacity_of_busy hk) hl.initial_eq
    · exact fun hmem => (hfreed _ hmem).2 rfl
    · intro hmem
      obtain ⟨hexited, hmain⟩ := hfreed _ hmem
      exact hl.idle_notMem_created ((hl.exited_mem _ hexited).resolve_left hmain)

theorem reclamation_sample :
    sample.Booted ∧ Run Kernel sample sampleRun.1 sampleRun.2 ∧ exitedTids sampleRun.1 = [3, 4] ∧
      freedTids sampleRun.1 = [3] ∧ Reclamation sampleRun.1 sampleRun.2 :=
  ⟨booted_sample, run_sample, by decide +kernel, by decide +kernel,
    Run.reclamation booted_sample run_sample⟩

end RoundRobin.Host
