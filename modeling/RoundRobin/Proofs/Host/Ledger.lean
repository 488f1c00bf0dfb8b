import RoundRobin.Proofs.Host.Situation
import RoundRobin.Proofs.Scheduler.Frame
import RoundRobin.Proofs.Scheduler.Books

/-!
# The ledger of a run

Over a whole run of the kernel: which threads were created, which exited, and which were taken
back. Each call adds one entry, and the entries agree with the blocks that are in use.
-/

namespace RoundRobin.Host

open Scheduler

variable {h h' h₀ : Host} {es : List Event} {e : Event} {b r : Nat}

/-- Identifier of the boot thread. -/
def mainTid : Nat := 1

/-- Identifier of the idle thread. -/
def idleTid : Nat := 2

/-- Identifiers of the threads whose blocks are in use. -/
def tidsInUse (h : Host) : List Nat :=
  h.scheduler.pool.blocksInUse.map fun b => (h.scheduler.threads.get b).tid

/-- Identifiers of the threads that have exited and are still to be taken back. -/
def deadTids (h : Host) : List Nat :=
  h.scheduler.tidsOf h.scheduler.destruction

/-- The call takes back exited threads. -/
def Event.Schedules (e : Event) : Prop :=
  e.call = .yieldNow ∨ e.call = .retire

/-- Identifiers of the threads created in a run. -/
def createdTids (es : List Event) : List Nat :=
  es.filterMap (·.created)

/-- Identifiers of the threads that exited in a run, in the order of their exits. -/
def exitedTids (es : List Event) : List Nat :=
  (es.filter (·.call = .retire)).map (·.caller)

/-- Identifiers of the threads whose blocks went back to the pool, in that order. -/
def freedTids (es : List Event) : List Nat :=
  es.flatMap (·.freed)

/-- Identifiers of the threads created in a run that have not exited. -/
def unexitedTids (es : List Event) : List Nat :=
  (createdTids es).filter (· ∉ exitedTids es)

theorem createdTids_snoc (es : List Event) (e : Event) :
    createdTids (es ++ [e]) = createdTids es ++ e.created.toList := by
  cases hcreated : e.created <;> simp [createdTids, hcreated]

theorem exitedTids_snoc (es : List Event) (e : Event) :
    exitedTids (es ++ [e]) = exitedTids es ++ if e.call = .retire then [e.caller] else [] := by
  by_cases hcall : e.call = .retire <;> simp [exitedTids, hcall]

theorem freedTids_snoc (es : List Event) (e : Event) :
    freedTids (es ++ [e]) = freedTids es ++ e.freed := by
  simp [freedTids]

theorem createdTids_snoc_of_none (es : List Event) (hcreated : e.created = none) :
    createdTids (es ++ [e]) = createdTids es := by
  rw [createdTids_snoc, hcreated, Option.toList_none, List.append_nil]

theorem exitedTids_snoc_of_ne (es : List Event) (hcall : e.call ≠ .retire) :
    exitedTids (es ++ [e]) = exitedTids es := by
  rw [exitedTids_snoc, if_neg hcall, List.append_nil]

theorem freedTids_snoc_of_nil (es : List Event) (hfreed : e.freed = []) :
    freedTids (es ++ [e]) = freedTids es := by
  rw [freedTids_snoc, hfreed, List.append_nil]

theorem Call.Amounts.exit_iff {call : Call} {now : Nat} {a : Action} (ha : call.Amounts now a) :
    a = .exit ↔ call = .retire := by
  cases call <;> simp_all [Call.Amounts] <;> grind

theorem Call.Amounts.yield_iff {call : Call} {now : Nat} {a : Action} (ha : call.Amounts now a) :
    a = .yield ↔ call = .yieldNow := by
  cases call <;> simp_all [Call.Amounts] <;> grind

theorem freedBetween_of_subset
    (hsub : ∀ b ∈ h.scheduler.pool.blocksInUse, b ∈ h'.scheduler.pool.blocksInUse) :
    freedBetween h h' = [] := by
  rw [freedBetween, List.map_eq_nil_iff, List.filter_eq_nil_iff]
  intro b hb
  simpa using hsub b hb

theorem freedBetween_of_returned (hback : Returned h.scheduler h'.scheduler.pool) :
    freedBetween h h' = deadTids h := by
  rw [freedBetween, hback.filter_eq]
  rfl

theorem callerTid_of_containing (hsp : Block.containing h.sp = .ok r) :
    h.callerTid = (h.scheduler.threads.get r).tid := by
  rw [callerTid, base_of_containing hsp]

/-- What one call of the thread in `r` adds to the books. -/
inductive Entry (h : Host) (r : Nat) (e : Event) (h' : Host) : Prop
  /-- Nothing. -/
  | kept (call : ¬ e.Schedules) (created : e.created = none) (freed : e.freed = [])
      (same : SameBooks h.scheduler h'.scheduler) (dead : h'.deadTids = h.deadTids)
  /-- A new thread. -/
  | created (call : ¬ e.Schedules) (created : e.created = some h.scheduler.nextTid)
      (freed : e.freed = []) (idle : h'.scheduler.idle = h.scheduler.idle)
      (initial : h'.scheduler.initial = h.scheduler.initial)
      (nextTid : h'.scheduler.nextTid = h.scheduler.nextTid + 1)
      (tid : ∀ b, h.scheduler.Live b →
        (h'.scheduler.threads.get b).tid = (h.scheduler.threads.get b).tid)
      (in_use : h'.tidsInUse.Perm (h.scheduler.nextTid :: h.tidsInUse))
      (frees : h'.scheduler.pool.frees = h.scheduler.pool.frees)
      (dead : h'.deadTids = h.deadTids)
  /-- All threads that were dead are taken back; a thread that exits now is dead. -/
  | returned (call : e.Schedules) (created : e.created = none) (freed : e.freed = h.deadTids)
      (idle : h'.scheduler.idle = h.scheduler.idle)
      (initial : h'.scheduler.initial = h.scheduler.initial)
      (nextTid : h'.scheduler.nextTid = h.scheduler.nextTid)
      (tid : ∀ b, (h'.scheduler.threads.get b).tid = (h.scheduler.threads.get b).tid)
      (in_use : h.tidsInUse.Perm (h.deadTids ++ h'.tidsInUse))
      (frees : h'.scheduler.pool.frees = h.scheduler.pool.frees + h.deadTids.length)
      (dead : h'.deadTids =
        if e.call = .retire ∧ h.scheduler.initial ≠ some r then [e.caller] else [])

theorem deadTids_congr (hmembers : h'.scheduler.destruction.members =
      h.scheduler.destruction.members)
    (htid : ∀ b ∈ h.scheduler.destruction.members,
      (h'.scheduler.threads.get b).tid = (h.scheduler.threads.get b).tid) :
    h'.deadTids = h.deadTids := by
  rw [deadTids, tidsOf, hmembers]
  exact List.map_congr_left htid

/-- The new thread comes to the identifiers in use. -/
theorem tidsInUse_occupied {k : Nat} (hfree : h.scheduler.pool.busy[k]? = some false)
    (hpool : h'.scheduler.pool = h.scheduler.pool.occupied k)
    (htid : (h'.scheduler.threads.get (h.scheduler.pool.slotAddress k)).tid = h.scheduler.nextTid)
    (hold : ∀ b ∈ h.scheduler.pool.blocksInUse,
      (h'.scheduler.threads.get b).tid = (h.scheduler.threads.get b).tid) :
    h'.tidsInUse.Perm (h.scheduler.nextTid :: h.tidsInUse) := by
  have hperm := (Pool.perm_blocksInUse_occupied hfree).map
    fun b => (h'.scheduler.threads.get b).tid
  rw [List.map_cons, htid, List.map_congr_left hold] at hperm
  rw [tidsInUse, hpool]
  exact hperm

/-- The dead leave the identifiers in use. -/
theorem tidsInUse_returned (hback : Returned h.scheduler h'.scheduler.pool)
    (htid : ∀ b, (h'.scheduler.threads.get b).tid = (h.scheduler.threads.get b).tid) :
    h.tidsInUse.Perm (h.deadTids ++ h'.tidsInUse) := by
  have hmap := hback.perm.1.map fun b => (h.scheduler.threads.get b).tid
  rw [List.map_append] at hmap
  have hsame : h'.tidsInUse = h'.scheduler.pool.blocksInUse.map
      fun b => (h.scheduler.threads.get b).tid :=
    List.map_congr_left fun b _ => htid b
  rw [hsame]
  exact hmap

/-- `e` is the event of a call that the thread in `r` makes and that amounts to the action `a`. -/
structure Event.Reports (e : Event) (h : Host) (r : Nat) (a : Action) (h' : Host) : Prop where
  yields_iff : e.call = .yieldNow ↔ a = .yield
  exits_iff : e.call = .retire ↔ a = .exit
  caller_eq : e.caller = (h.scheduler.threads.get r).tid
  created_eq : e.created = (createdBlock a).map fun b => (h'.scheduler.threads.get b).tid
  freed_eq : e.freed = freedBetween h h'

theorem Call.reports {call : Call} {created : Option Nat} (ho : h.Orderly r)
    (hadmissible : call.Admissible h) (hrun : call.perform h = .ok created h') :
    ∃ a n, h.Takes r a h' n ∧ (Event.between h call created h').Reports h r a h' := by
  obtain ⟨a, n, hamounts, ht, hcreated⟩ := Call.takes ho hadmissible hrun
  exact ⟨a, n, ht, hamounts.yield_iff.symm, hamounts.exit_iff.symm,
    callerTid_of_containing ho.here, hcreated, rfl⟩

namespace Event.Reports

variable {a : Action} {k : Nat}

theorem schedules_iff (he : e.Reports h r a h') : e.Schedules ↔ a = .yield ∨ a = .exit :=
  or_congr he.yields_iff he.exits_iff

theorem kept (he : e.Reports h r a h') (hquiet : a ≠ .yield ∧ a ≠ .exit ∧ ∀ b, a ≠ .create b)
    (hsame : SameBooks h.scheduler h'.scheduler)
    (hdead : h'.scheduler.destruction.members = h.scheduler.destruction.members) :
    Entry h r e h' := by
  refine .kept ?_ ?_ ?_ hsame (deadTids_congr hdead fun b _ => hsame.tid b)
  · rw [he.schedules_iff, not_or]
    exact ⟨hquiet.1, hquiet.2.1⟩
  · rw [he.created_eq]
    cases a with
    | create b => exact absurd rfl (hquiet.2.2 b)
    | _ => rfl
  · rw [he.freed_eq]
    apply freedBetween_of_subset
    rw [hsame.pool]
    exact fun b hb => hb

/-- The new thread has a block that was nobody's, so nobody is renamed. -/
theorem added (he : e.Reports h r (.create (h.scheduler.pool.slotAddress k)) h')
    (ho : h.Orderly r) (hfree : h.scheduler.pool.busy[k]? = some false)
    (hpool : h'.scheduler.pool = h.scheduler.pool.occupied k)
    (hidle : h'.scheduler.idle = h.scheduler.idle)
    (hinitial : h'.scheduler.initial = h.scheduler.initial)
    (hnext : h'.scheduler.nextTid = h.scheduler.nextTid + 1)
    (htid : ∀ c, (h'.scheduler.threads.get c).tid =
      if h.scheduler.pool.slotAddress k = c then h.scheduler.nextTid
      else (h.scheduler.threads.get c).tid)
    (hdead : h'.scheduler.destruction.members = h.scheduler.destruction.members) :
    Entry h r e h' := by
  have hold : ∀ b, h.scheduler.Live b →
      (h'.scheduler.threads.get b).tid = (h.scheduler.threads.get b).tid := by
    intro b hb
    have hne : h.scheduler.pool.slotAddress k ≠ b :=
      fun heq => ho.settled.not_live_of_free hfree (heq ▸ hb)
    rw [htid, if_neg hne]
  have hnew : (h'.scheduler.threads.get (h.scheduler.pool.slotAddress k)).tid =
      h.scheduler.nextTid := by
    rw [htid, if_pos rfl]
  have hperm := tidsInUse_occupied hfree hpool hnew fun b hb => hold b (Or.inr hb)
  refine .created ?_ ?_ ?_ hidle hinitial hnext hold hperm (by rw [hpool]; rfl) ?_
  · rw [he.schedules_iff]
    simp
  · rw [he.created_eq]
    exact congrArg some hnew
  · rw [he.freed_eq]
    apply freedBetween_of_subset
    intro b hb
    rw [hpool]
    exact (Pool.mem_blocksInUse_occupied (Pool.lt_capacity_of_busy hfree)).mpr (Or.inr hb)
  · apply deadTids_congr hdead
    intro b hb
    have howner := (ho.settled.linked.destruction.mem_iff b).mp hb
    exact hold b (ho.settled.housed.owned b (howner.trans_ne (by decide)))

theorem returned (he : e.Reports h r a h') (hcall : a = .yield ∨ a = .exit)
    (hback : Returned h.scheduler h'.scheduler.pool)
    (hidle : h'.scheduler.idle = h.scheduler.idle)
    (hinitial : h'.scheduler.initial = h.scheduler.initial)
    (hnext : h'.scheduler.nextTid = h.scheduler.nextTid)
    (htid : ∀ c, (h'.scheduler.threads.get c).tid = (h.scheduler.threads.get c).tid)
    (hdead : h'.scheduler.destruction.members =
      if a = .exit ∧ h.scheduler.initial ≠ some r then [r] else []) : Entry h r e h' := by
  refine .returned (he.schedules_iff.mpr hcall) ?_ ?_ hidle hinitial hnext htid
    (tidsInUse_returned hback htid) ?_ ?_
  · rw [he.created_eq]
    rcases hcall with ha | ha <;> rw [ha] <;> rfl
  · rw [he.freed_eq]
    exact freedBetween_of_returned hback
  · rw [hback.perm.2, deadTids, tidsOf, List.length_map]
  · rw [deadTids, tidsOf, hdead, he.caller_eq]
    simp only [he.exits_iff]
    split
    · rw [List.map_singleton, htid]
    · rfl

end Event.Reports

/-- Each call of a kernel adds one of the three kinds of entry. -/
theorem entry_of_call {call : Call} {created : Option Nat} (ho : h.Orderly r)
    (hadmissible : call.Admissible h) (hrun : call.perform h = .ok created h') :
    Entry h r (.between h call created h') h' := by
  obtain ⟨a, n, ht, he⟩ := Call.reports ho hadmissible hrun
  have hbooks := ht.bookkeeping ho.settled
  generalize hs' : h'.scheduler = s' at hbooks
  cases hbooks with
  | kept hquiet hsame hdead =>
      subst hs'
      exact he.kept hquiet hsame hdead
  | created hfree hpool hidle hinitial hnext htid hdead =>
      subst hs'
      exact he.added ho hfree hpool hidle hinitial hnext htid hdead
  | returned hcall hback hidle hinitial hnext htid hdead =>
      subst hs'
      exact he.returned hcall hback hidle hinitial hnext htid hdead

/-- A dead thread does not run, and has a block of the pool. -/
theorem Orderly.dead_pooled (ho : h.Orderly r) (hb : b ∈ h.scheduler.destruction.members) :
    b ≠ r ∧ b ∈ h.scheduler.pool.blocksInUse := by
  have howner := (ho.settled.linked.destruction.mem_iff b).mp hb
  have hqueued : (h.scheduler.threads.get b).owner ≠ .detached := howner.trans_ne (by decide)
  obtain ⟨-, -, -, hpooled⟩ := (ho.settled.parked_of_owner hqueued).waits.dead_of_owner howner
  exact ⟨ho.settled.ne_of_owner hqueued, (ho.settled.housed.owned b hqueued).resolve_left hpooled⟩

/-- `main` is the block of the boot thread and `idle` that of the idle thread. -/
structure Named (main idle : Nat) (h : Host) : Prop where
  initial_eq : h.scheduler.initial = some main
  idle_eq : h.scheduler.idle = some idle
  tid_main : (h.scheduler.threads.get main).tid = mainTid
  tid_idle : (h.scheduler.threads.get idle).tid = idleTid

/-- Nobody who has a block is renamed. -/
theorem Entry.tid_eq (hentry : Entry h r e h') (hb : h.scheduler.Live b) :
    (h'.scheduler.threads.get b).tid = (h.scheduler.threads.get b).tid := by
  cases hentry with
  | kept _ _ _ hsame => exact hsame.tid b
  | created _ _ _ _ _ _ htid => exact htid b hb
  | returned _ _ _ _ _ _ htid => exact htid b

theorem Entry.named {main idle : Nat} (hentry : Entry h r e h') (ho : h.Orderly r)
    (hn : h.Named main idle) : h'.Named main idle := by
  obtain ⟨hinitial, hidle⟩ : h'.scheduler.initial = h.scheduler.initial ∧
      h'.scheduler.idle = h.scheduler.idle := by
    cases hentry with
    | kept _ _ _ hsame => exact ⟨hsame.initial, hsame.idle⟩
    | created _ _ _ hidle hinitial => exact ⟨hinitial, hidle⟩
    | returned _ _ _ hidle hinitial => exact ⟨hinitial, hidle⟩
  have hlive : h.scheduler.Live idle := Or.inr (ho.settled.housed.idle idle hn.idle_eq)
  exact {
    initial_eq := hinitial.trans hn.initial_eq
    idle_eq := hidle.trans hn.idle_eq
    tid_main := (hentry.tid_eq (Or.inl hn.initial_eq)).trans hn.tid_main
    tid_idle := (hentry.tid_eq hlive).trans hn.tid_idle }

/-- The books after the events `es`: who was created, who exited, who was taken back, and whose
blocks are in use. -/
structure Ledger (main idle : Nat) (es : List Event) (h : Host) : Prop extends
    h.Named main idle where
  next_lt : idleTid < h.scheduler.nextTid
  created_lt : ∀ x ∈ createdTids es, idleTid < x ∧ x < h.scheduler.nextTid
  created_nodup : (createdTids es).Nodup
  exited_nodup : (exitedTids es).Nodup
  exited_mem : ∀ x ∈ exitedTids es, x = mainTid ∨ x ∈ createdTids es
  /-- The blocks in use are those of the idle thread, of the threads that have not exited, and of
  the threads that have exited and wait to be taken back. -/
  in_use : h.tidsInUse.Perm (idleTid :: unexitedTids es ++ h.deadTids)
  /-- Threads are taken back in the order in which they exit, all but the boot thread. -/
  freed_eq : freedTids es ++ h.deadTids = (exitedTids es).filter (· ≠ mainTid)
  frees_eq : h.scheduler.pool.frees = (freedTids es).length
  main_exited : mainTid ∈ exitedTids es →
    (h.scheduler.threads.get main).owner = .detached ∧
      (h.scheduler.threads.get main).status = .dying

namespace Ledger

variable {main idle : Nat}

theorem dead_exited (hl : Ledger main idle es h) {x : Nat} (hx : x ∈ h.deadTids) :
    x ∈ exitedTids es ∧ x ≠ mainTid := by
  have hmem : x ∈ (exitedTids es).filter (· ≠ mainTid) := by
    rw [← hl.freed_eq]
    exact List.mem_append_right _ hx
  simpa using hmem

theorem dead_created (hl : Ledger main idle es h) {x : Nat} (hx : x ∈ h.deadTids) :
    x ∈ createdTids es :=
  (hl.exited_mem x (hl.dead_exited hx).1).resolve_left (hl.dead_exited hx).2

theorem idle_notMem_created (hl : Ledger main idle es h) : idleTid ∉ createdTids es :=
  fun hmem => Nat.lt_irrefl _ (hl.created_lt _ hmem).1

theorem main_notMem_created (hl : Ledger main idle es h) : mainTid ∉ createdTids es := by
  intro hmem
  have hlt := (hl.created_lt _ hmem).1
  simp [idleTid, mainTid] at hlt

theorem freed_nodup (hl : Ledger main idle es h) : (freedTids es ++ h.deadTids).Nodup := by
  rw [hl.freed_eq]
  exact hl.exited_nodup.filter _

/-- No two threads in the pool have the same identifier. -/
theorem in_use_nodup (hl : Ledger main idle es h) : h.tidsInUse.Nodup := by
  rw [hl.in_use.nodup_iff, List.cons_append, List.nodup_cons, List.nodup_append']
  refine ⟨?_, hl.created_nodup.filter _, (List.nodup_append'.mp hl.freed_nodup).2.1, ?_⟩
  · rw [List.mem_append, not_or]
    exact ⟨fun hmem => hl.idle_notMem_created (List.mem_of_mem_filter hmem),
      fun hmem => hl.idle_notMem_created (hl.dead_created hmem)⟩
  · intro x hx hdead
    exact (by simpa using (List.mem_filter.mp hx).2 : x ∉ exitedTids es) (hl.dead_exited hdead).1

theorem main_notMem_tidsInUse (hl : Ledger main idle es h) : mainTid ∉ h.tidsInUse := by
  intro hmem
  rw [hl.in_use.mem_iff, List.cons_append, List.mem_cons, List.mem_append] at hmem
  rcases hmem with heq | hmem | hdead
  · cases heq
  · exact hl.main_notMem_created (List.mem_of_mem_filter hmem)
  · exact hl.main_notMem_created (hl.dead_created hdead)

/-- Live threads are told apart by their identifiers. -/
theorem tid_injective (hl : Ledger main idle es h) {b c : Nat} (hb : h.scheduler.Live b)
    (hc : h.scheduler.Live c)
    (htid : (h.scheduler.threads.get b).tid = (h.scheduler.threads.get c).tid) : b = c := by
  have hpooled : ∀ {d}, d ∈ h.scheduler.pool.blocksInUse →
      (h.scheduler.threads.get d).tid ≠ (h.scheduler.threads.get main).tid := by
    intro d hd heq
    rw [hl.tid_main] at heq
    exact hl.main_notMem_tidsInUse (heq ▸ List.mem_map_of_mem hd)
  have hmain : ∀ {d}, h.scheduler.initial = some d → d = main :=
    fun hd => Option.some.inj (hd.symm.trans hl.initial_eq)
  rcases hb with hb | hb <;> rcases hc with hc | hc
  · rw [hmain hb, hmain hc]
  · rw [hmain hb] at htid
    exact absurd htid.symm (hpooled hc)
  · rw [hmain hc] at htid
    exact absurd htid (hpooled hb)
  · exact List.inj_on_of_nodup_map hl.in_use_nodup hb hc htid

theorem mem_pool (hl : Ledger main idle es h) (ho : h.Orderly r) (hmain : r ≠ main) :
    r ∈ h.scheduler.pool.blocksInUse := by
  refine ho.settled.live.resolve_left fun hinitial => hmain ?_
  exact Option.some.inj (hinitial.symm.trans hl.initial_eq)

theorem main_notMem_exited (hl : Ledger main idle es h) (ho : h.Orderly main) :
    mainTid ∉ exitedTids es := by
  intro hmem
  have hdying := (hl.main_exited hmem).2
  rw [ho.settled.here.status] at hdying
  cases hdying

/-- The running thread is not dead. -/
theorem caller_notMem_dead (hl : Ledger main idle es h) (ho : h.Orderly r) :
    (h.scheduler.threads.get r).tid ∉ h.deadTids := by
  intro hmem
  obtain ⟨b, hb, htid⟩ := List.mem_map.mp hmem
  obtain ⟨hbr, hpooled⟩ := ho.dead_pooled hb
  exact hbr (hl.tid_injective (Or.inr hpooled) ho.settled.live htid)

/-- A running thread other than the boot thread and the idle thread was created in the run and has
not exited. -/
theorem caller_unexited (hl : Ledger main idle es h) (ho : h.Orderly r) (hmain : r ≠ main)
    (hidle : r ≠ idle) : (h.scheduler.threads.get r).tid ∈ unexitedTids es := by
  have hr := hl.mem_pool ho hmain
  have hmem : (h.scheduler.threads.get r).tid ∈ h.tidsInUse := List.mem_map.mpr ⟨r, hr, rfl⟩
  rw [hl.in_use.mem_iff, List.cons_append, List.mem_cons, List.mem_append] at hmem
  rcases hmem with heq | hmem | hdead
  · rw [← hl.tid_idle] at heq
    have hlive : h.scheduler.Live idle := Or.inr (ho.settled.housed.idle idle hl.idle_eq)
    exact absurd (hl.tid_injective ho.settled.live hlive heq) hidle
  · exact hmem
  · exact absurd hdead (hl.caller_notMem_dead ho)

theorem caller_eq_main_iff (hl : Ledger main idle es h) (ho : h.Orderly r) :
    (h.scheduler.threads.get r).tid = mainTid ↔ r = main := by
  constructor
  · intro htid
    rw [← hl.tid_main] at htid
    exact hl.tid_injective ho.settled.live (Or.inl hl.initial_eq) htid
  · rintro rfl
    exact hl.tid_main

/-- The boot thread is told by its identifier or by its place. -/
theorem caller_is_main (hl : Ledger main idle es h) (ho : h.Orderly r) :
    (h.scheduler.threads.get r).tid = mainTid ↔ h.scheduler.initial = some r := by
  rw [hl.caller_eq_main_iff ho, hl.initial_eq, Option.some.injEq, eq_comm]

/-- A thread that exits has not exited before. -/
theorem caller_notMem_exited (hl : Ledger main idle es h) (ho : h.Orderly r) (hidle : r ≠ idle) :
    (h.scheduler.threads.get r).tid ∉ exitedTids es := by
  by_cases hmain : r = main
  · subst hmain
    rw [hl.tid_main]
    exact hl.main_notMem_exited ho
  · have hmem := (List.mem_filter.mp (hl.caller_unexited ho hmain hidle)).2
    simpa using hmem

/-- Once the boot thread has exited it stays as it is. -/
theorem main_still (hl : Ledger main idle es h) (ho : h.Orderly r) {a : Action} {n : Nat}
    (ht : h.Takes r a h' n) (hexited : mainTid ∈ exitedTids es) :
    (h'.scheduler.threads.get main).owner = .detached ∧
      (h'.scheduler.threads.get main).status = .dying := by
  have hstill := hl.main_exited hexited
  have hidle : h.scheduler.idle ≠ some main :=
    fun hself => ho.settled.housed.idle_ne_initial hself hl.initial_eq
  rw [ht.get_of_still ho.settled (Or.inl hl.initial_eq) hidle (Or.inr hstill)]
  exact hstill

theorem main_exited_snoc (hl : Ledger main idle es h) (ho : h.Orderly r) {a : Action} {n : Nat}
    (ht : h.Takes r a h' n) (hexit : a = .exit ↔ e.call = .retire)
    (hcaller : e.caller = (h.scheduler.threads.get r).tid)
    (hexited : mainTid ∈ exitedTids (es ++ [e])) :
    (h'.scheduler.threads.get main).owner = .detached ∧
      (h'.scheduler.threads.get main).status = .dying := by
  rw [exitedTids_snoc, List.mem_append] at hexited
  rcases hexited with hexited | hexited
  · exact hl.main_still ho ht hexited
  · by_cases hcall : e.call = .retire
    · rw [if_pos hcall, List.mem_singleton, hcaller] at hexited
      obtain rfl := (hl.caller_eq_main_iff ho).mp hexited.symm
      obtain rfl := hexit.mpr hcall
      exact ht.exit_main ho.settled hl.initial_eq
    · rw [if_neg hcall] at hexited
      cases hexited

/-- The thread that gives up the processor for good moves from those that have not exited to
those that wait to be taken back. -/
theorem unexited_perm (hl : Ledger main idle es h) (ho : h.Orderly r)
    (hidle : e.call = .retire → r ≠ idle) (hcreated : e.created = none)
    (hcaller : e.caller = (h.scheduler.threads.get r).tid) :
    (unexitedTids es).Perm (unexitedTids (es ++ [e]) ++
      if e.call = .retire ∧ h.scheduler.initial ≠ some r then [e.caller] else []) := by
  have hcreatedTids := createdTids_snoc_of_none es hcreated
  have hunexited : unexitedTids (es ++ [e]) = (unexitedTids es).filter
      (· ∉ if e.call = .retire then [e.caller] else []) := by
    rw [unexitedTids, unexitedTids, hcreatedTids, exitedTids_snoc, List.filter_filter]
    apply List.filter_congr
    intro x _
    simp [Bool.and_comm]
  by_cases hcall : e.call = .retire
  · rw [if_pos hcall] at hunexited
    by_cases hmain : r = main
    · have hnot : ¬ (e.call = .retire ∧ h.scheduler.initial ≠ some r) :=
        fun hexit => hexit.2 (hmain ▸ hl.initial_eq)
      have hkeep : unexitedTids (es ++ [e]) = unexitedTids es := by
        rw [hunexited, List.filter_eq_self]
        intro x hx
        have hne : x ≠ mainTid := by
          rintro rfl
          exact hl.main_notMem_created (List.mem_of_mem_filter hx)
        rw [hcaller, (hl.caller_eq_main_iff ho).mpr hmain]
        simpa using hne
      rw [if_neg hnot, List.append_nil, hkeep]
    · have hexit : e.call = .retire ∧ h.scheduler.initial ≠ some r := by
        refine ⟨hcall, fun hinitial => hmain ?_⟩
        exact Option.some.inj (hinitial.symm.trans hl.initial_eq)
      have hmem : e.caller ∈ unexitedTids es := by
        rw [hcaller]
        exact hl.caller_unexited ho hmain (hidle hcall)
      have hnodup : (unexitedTids es).Nodup := hl.created_nodup.filter _
      have herase : unexitedTids (es ++ [e]) = (unexitedTids es).erase e.caller := by
        rw [hunexited, hnodup.erase_eq_filter]
        apply List.filter_congr
        intro x _
        simp [bne, Bool.beq_eq_decide_eq]
      rw [if_pos hexit, herase]
      exact (List.perm_cons_erase hmem).trans (List.perm_append_singleton _ _).symm
  · rw [if_neg hcall] at hunexited
    rw [if_neg fun hexit => hcall hexit.1, hunexited]
    simp

/-- The next identifier is nobody's yet. -/
theorem nextTid_notMem_created (hl : Ledger main idle es h) :
    h.scheduler.nextTid ∉ createdTids es :=
  fun hmem => Nat.lt_irrefl _ (hl.created_lt _ hmem).2

theorem nextTid_notMem_exited (hl : Ledger main idle es h) :
    h.scheduler.nextTid ∉ exitedTids es := by
  intro hmem
  rcases hl.exited_mem _ hmem with heq | hmem
  · have hlt := hl.next_lt
    rw [heq] at hlt
    simp [idleTid, mainTid] at hlt
  · exact hl.nextTid_notMem_created hmem

/-- A thread exits once. -/
theorem exited_nodup_snoc (hl : Ledger main idle es h) (ho : h.Orderly r)
    (hidle : e.call = .retire → r ≠ idle)
    (hcaller : e.caller = (h.scheduler.threads.get r).tid) :
    (exitedTids (es ++ [e])).Nodup := by
  rw [exitedTids_snoc]
  split
  · next hcall =>
      rw [List.nodup_append_comm, hcaller]
      exact List.nodup_cons.mpr ⟨hl.caller_notMem_exited ho (hidle hcall), hl.exited_nodup⟩
  · rw [List.append_nil]
    exact hl.exited_nodup

/-- The thread that exits is the boot thread or was created in the run. -/
theorem exited_mem_snoc (hl : Ledger main idle es h) (ho : h.Orderly r)
    (hidle : e.call = .retire → r ≠ idle)
    (hcaller : e.caller = (h.scheduler.threads.get r).tid) :
    ∀ x ∈ exitedTids (es ++ [e]), x = mainTid ∨ x ∈ createdTids es := by
  rw [exitedTids_snoc]
  intro x hx
  rcases List.mem_append.mp hx with hx | hx
  · exact hl.exited_mem x hx
  · split at hx
    · next hcall =>
        rw [List.mem_singleton.mp hx, hcaller]
        by_cases hmain : r = main
        · exact Or.inl ((hl.caller_eq_main_iff ho).mpr hmain)
        · exact Or.inr (List.mem_of_mem_filter (hl.caller_unexited ho hmain (hidle hcall)))
    · cases hx

/-- The dead are freed, and a thread other than the boot thread that exits now is dead. -/
theorem freed_eq_snoc (hl : Ledger main idle es h) (ho : h.Orderly r)
    (hcaller : e.caller = (h.scheduler.threads.get r).tid) :
    freedTids es ++ h.deadTids ++
        (if e.call = .retire ∧ h.scheduler.initial ≠ some r then [e.caller] else []) =
      (exitedTids (es ++ [e])).filter (· ≠ mainTid) := by
  have hmain_iff : e.caller = mainTid ↔ h.scheduler.initial = some r := by
    rw [hcaller, hl.caller_is_main ho]
  rw [hl.freed_eq, exitedTids_snoc, List.filter_append, List.append_cancel_left_eq]
  by_cases hcall : e.call = .retire
  · by_cases hinitial : h.scheduler.initial = some r
    · simp [hcall, hinitial, hmain_iff.mpr hinitial]
    · have hne : e.caller ≠ mainTid := fun heq => hinitial (hmain_iff.mp heq)
      simp [hcall, hinitial, hne]
  · simp [hcall]

/-- The new thread comes to those that have not exited. -/
theorem in_use_created (hl : Ledger main idle es h) (hcall : e.call ≠ .retire)
    (hcreated : e.created = some h.scheduler.nextTid)
    (hperm : h'.tidsInUse.Perm (h.scheduler.nextTid :: h.tidsInUse)) :
    h'.tidsInUse.Perm (idleTid :: unexitedTids (es ++ [e]) ++ h.deadTids) := by
  have hunexited : unexitedTids (es ++ [e]) = unexitedTids es ++ [h.scheduler.nextTid] := by
    rw [unexitedTids, exitedTids_snoc_of_ne es hcall, createdTids_snoc, hcreated,
      Option.toList_some, List.filter_append]
    simp [unexitedTids, hl.nextTid_notMem_exited]
  rw [hunexited]
  calc
    h'.tidsInUse.Perm (h.scheduler.nextTid :: h.tidsInUse) := hperm
    _ |>.Perm (h.scheduler.nextTid :: idleTid :: (unexitedTids es ++ h.deadTids)) :=
      hl.in_use.cons _
    _ |>.Perm (idleTid :: h.scheduler.nextTid :: (unexitedTids es ++ h.deadTids)) :=
      List.Perm.swap _ _ _
    _ |>.Perm (idleTid :: (unexitedTids es ++ h.scheduler.nextTid :: h.deadTids)) :=
      List.perm_middle.symm.cons _
    _ = idleTid :: (unexitedTids es ++ [h.scheduler.nextTid]) ++ h.deadTids := by simp

/-- An entry that says nothing. -/
theorem snoc_kept (hl : Ledger main idle es h) (hnamed : h'.Named main idle)
    (hcall : e.call ≠ .retire) (hcreated : e.created = none) (hfreed : e.freed = [])
    (hsame : SameBooks h.scheduler h'.scheduler) (hdead : h'.deadTids = h.deadTids)
    (hmain : mainTid ∈ exitedTids (es ++ [e]) →
      (h'.scheduler.threads.get main).owner = .detached ∧
        (h'.scheduler.threads.get main).status = .dying) :
    Ledger main idle (es ++ [e]) h' := by
  have hcreatedTids := createdTids_snoc_of_none es hcreated
  have hexitedTids := exitedTids_snoc_of_ne es hcall
  have hfreedTids := freedTids_snoc_of_nil es hfreed
  have htids : h'.tidsInUse = h.tidsInUse := by
    rw [tidsInUse, hsame.pool]
    exact List.map_congr_left fun b _ => hsame.tid b
  constructor
  · exact hnamed
  · rw [hsame.nextTid]
    exact hl.next_lt
  · rw [hcreatedTids, hsame.nextTid]
    exact hl.created_lt
  · rw [hcreatedTids]
    exact hl.created_nodup
  · rw [hexitedTids]
    exact hl.exited_nodup
  · rw [hexitedTids, hcreatedTids]
    exact hl.exited_mem
  · rw [unexitedTids, hcreatedTids, hexitedTids, htids, hdead]
    exact hl.in_use
  · rw [hexitedTids, hfreedTids, hdead]
    exact hl.freed_eq
  · rw [hfreedTids, hsame.pool]
    exact hl.frees_eq
  · exact hmain

/-- An entry for a new thread. -/
theorem snoc_created (hl : Ledger main idle es h) (hnamed : h'.Named main idle)
    (hcall : e.call ≠ .retire) (hcreated : e.created = some h.scheduler.nextTid)
    (hfreed : e.freed = []) (hnext : h'.scheduler.nextTid = h.scheduler.nextTid + 1)
    (hperm : h'.tidsInUse.Perm (h.scheduler.nextTid :: h.tidsInUse))
    (hfrees : h'.scheduler.pool.frees = h.scheduler.pool.frees)
    (hdead : h'.deadTids = h.deadTids)
    (hmain : mainTid ∈ exitedTids (es ++ [e]) →
      (h'.scheduler.threads.get main).owner = .detached ∧
        (h'.scheduler.threads.get main).status = .dying) :
    Ledger main idle (es ++ [e]) h' := by
  have hcreatedTids : createdTids (es ++ [e]) = createdTids es ++ [h.scheduler.nextTid] := by
    rw [createdTids_snoc, hcreated]
    rfl
  have hexitedTids := exitedTids_snoc_of_ne es hcall
  have hfreedTids := freedTids_snoc_of_nil es hfreed
  constructor
  · exact hnamed
  · rw [hnext]
    exact Nat.lt_succ_of_lt hl.next_lt
  · rw [hcreatedTids, hnext]
    intro x hx
    rcases List.mem_append.mp hx with hx | hx
    · exact ⟨(hl.created_lt x hx).1, Nat.lt_succ_of_lt (hl.created_lt x hx).2⟩
    · rw [List.mem_singleton.mp hx]
      exact ⟨hl.next_lt, Nat.lt_succ_self _⟩
  · rw [hcreatedTids, List.nodup_append_comm]
    exact List.nodup_cons.mpr ⟨hl.nextTid_notMem_created, hl.created_nodup⟩
  · rw [hexitedTids]
    exact hl.exited_nodup
  · rw [hexitedTids, hcreatedTids]
    intro x hx
    exact (hl.exited_mem x hx).imp_right fun hmem => List.mem_append_left _ hmem
  · rw [hdead]
    exact hl.in_use_created hcall hcreated hperm
  · rw [hexitedTids, hfreedTids, hdead]
    exact hl.freed_eq
  · rw [hfreedTids, hfrees]
    exact hl.frees_eq
  · exact hmain

/-- An entry by which the dead are taken back. -/
theorem snoc_returned (hl : Ledger main idle es h) (ho : h.Orderly r)
    (hnamed : h'.Named main idle) (hidle : e.call = .retire → r ≠ idle)
    (hcaller : e.caller = (h.scheduler.threads.get r).tid) (hcreated : e.created = none)
    (hfreed : e.freed = h.deadTids) (hnext : h'.scheduler.nextTid = h.scheduler.nextTid)
    (hperm : h.tidsInUse.Perm (h.deadTids ++ h'.tidsInUse))
    (hfrees : h'.scheduler.pool.frees = h.scheduler.pool.frees + h.deadTids.length)
    (hdead : h'.deadTids =
      if e.call = .retire ∧ h.scheduler.initial ≠ some r then [e.caller] else [])
    (hmain : mainTid ∈ exitedTids (es ++ [e]) →
      (h'.scheduler.threads.get main).owner = .detached ∧
        (h'.scheduler.threads.get main).status = .dying) :
    Ledger main idle (es ++ [e]) h' := by
  have hcreatedTids := createdTids_snoc_of_none es hcreated
  constructor
  · exact hnamed
  · rw [hnext]
    exact hl.next_lt
  · rw [hcreatedTids, hnext]
    exact hl.created_lt
  · rw [hcreatedTids]
    exact hl.created_nodup
  · exact hl.exited_nodup_snoc ho hidle hcaller
  · rw [hcreatedTids]
    exact hl.exited_mem_snoc ho hidle hcaller
  · -- what was dead is gone from both sides, and a thread that exits now takes its place
    have hrest : h'.tidsInUse.Perm (idleTid :: unexitedTids es) := by
      rw [← List.perm_append_left_iff h.deadTids]
      exact hperm.symm.trans (hl.in_use.trans List.perm_append_comm)
    rw [hdead, List.cons_append]
    exact hrest.trans ((hl.unexited_perm ho hidle hcreated hcaller).cons _)
  · rw [freedTids_snoc, hfreed, hdead]
    exact hl.freed_eq_snoc ho hcaller
  · rw [freedTids_snoc, hfreed, hfrees, hl.frees_eq, List.length_append]
  · exact hmain

end Ledger

/-- One call of the kernel adds one entry to the ledger, and takes no thread back that makes the
call itself. -/
theorem Ledger.snoc {main idle : Nat} (hl : Ledger main idle es h) (ho : h.Orderly r) {call : Call}
    {created : Option Nat} (hallowed : Kernel h call) (hrun : call.perform h = .ok created h') :
    Ledger main idle (es ++ [.between h call created h']) h' := by
  obtain ⟨a, n, ht, hreports⟩ := Call.reports ho hallowed hrun
  have hentry := entry_of_call ho hallowed hrun
  have hnamed := hentry.named ho hl.toNamed
  have hcaller := hreports.caller_eq
  have hmain := hl.main_exited_snoc ho ht hreports.exits_iff.symm hcaller
  have hidle : call = .retire → r ≠ idle := by
    rintro rfl rfl
    exact hallowed r ho.here hl.idle_eq
  cases hentry with
  | kept hquiet hcreated hfreed hsame hdead =>
      exact hl.snoc_kept hnamed (fun hretire => hquiet (Or.inr hretire)) hcreated hfreed hsame
        hdead hmain
  | created hquiet hcreated hfreed _ _ hnext _ hperm hfrees hdead =>
      exact hl.snoc_created hnamed (fun hretire => hquiet (Or.inr hretire)) hcreated hfreed hnext
        hperm hfrees hdead hmain
  | returned _ hcreated hfreed _ _ hnext _ hperm hfrees hdead =>
      exact hl.snoc_returned ho hnamed hidle hcaller hcreated hfreed hnext hperm hfrees hdead hmain

end RoundRobin.Host
