import RoundRobin.Proofs.Host.Misuse

/-!
# Creation of threads

A call to create a thread does all of it or nothing. With no block free it answers so and leaves
the host as it was; with a block free it adds one thread at the tail of the ready queue. Over a
whole run identifiers are counted up from boot: refused calls take none, and a block that is used
again does not bring an identifier back.
-/

namespace RoundRobin

namespace Scheduler

variable {s : Scheduler} {P : Thread → Prop} {k r : Nat} {t : Thread} {context : Context}

theorem Settled.get_makeReady_spawned (h : s.Settled P r) (hk : s.pool.busy[k]? = some false)
    (c : Nat) :
    ((s.spawned k t context).makeReady (s.pool.slotAddress k)).threads.get c =
      if s.pool.slotAddress k = c then
        { t with tid := s.nextTid, context, owner := .ready, linked := true, status := .ready }
      else s.threads.get c := by
  have hkind : (s.spawned k t context).ready.kind = .ready := by
    rw [h.spawned_frame hk]
    exact h.linked.ready.kind_eq
  rw [get_makeReady, get_spawned, get_spawned, if_pos rfl, hkind]
  split <;> rfl

theorem Settled.makeReady_spawned_frame (h : s.Settled P r) (hk : s.pool.busy[k]? = some false) :
    (s.spawned k t context).makeReady (s.pool.slotAddress k) =
      { s with
        pool := s.pool.occupied k
        threads := ((s.spawned k t context).makeReady (s.pool.slotAddress k)).threads
        ready := s.ready.append (s.pool.slotAddress k)
        nextTid := s.nextTid + 1 } := by
  rw [h.spawned_frame hk]
  rfl

end Scheduler

namespace Host

open Scheduler

variable {h h' h₀ h₁ : Host} {es : List Event} {e : Event} {name : String}
  {priority entry arg b k r main idle : Nat}

/-- The control block of a thread that was created and made ready, with its stack pointer at
`top`. -/
def newcomer (s : Scheduler) (name : String) (priority entry arg top : Nat) : Thread :=
  { tid := s.nextTid, status := .ready, nameBuffer := .encode name, priority, wakeTick := none
    linked := true, owner := .ready, context := .entering s.trampoline entry arg top
    magic := Config.threadMagic }

/-- `h'` is `h` with one more thread, in the slot `k` of the pool. -/
structure Adds (h : Host) (name : String) (priority entry arg k : Nat) (h' : Host) : Prop where
  /-- The slot is the lowest free one. -/
  lowest : h.scheduler.pool.busy[k]? = some false ∧
    ∀ j < k, h.scheduler.pool.busy[j]? = some true
  /-- No thread has the block, the running one included. -/
  vacant : ¬ h.scheduler.Live (h.scheduler.pool.slotAddress k)
  apart : Block.base h.sp ≠ h.scheduler.pool.slotAddress k
  thread : h'.scheduler.threads.get (h.scheduler.pool.slotAddress k) =
    newcomer h.scheduler name priority entry arg
      (h.scheduler.pool.slotAddress k + Config.blockSize - 8)
  others : ∀ b, b ≠ h.scheduler.pool.slotAddress k →
    h'.scheduler.threads.get b = h.scheduler.threads.get b
  /-- Nothing else changes but the pool, the tail of the ready queue, the next identifier and the
  log. -/
  rest : h' = (h.logged
      { severity := .debug, source := .scheduler
        text := s!"created thread {h.scheduler.nextTid} \"{name}\" priority {priority}" }
    ).withScheduler { h.scheduler with
      pool := h.scheduler.pool.occupied k
      threads := h'.scheduler.threads
      ready := h.scheduler.ready.append (h.scheduler.pool.slotAddress k)
      nextTid := h.scheduler.nextTid + 1 }

/-- A thread is added once it is made ready. -/
theorem Spawns.adds (ho : h.Orderly r) (hspawn : h.Spawns name priority entry arg b h₁) :
    ∃ k, h.scheduler.pool.slotAddress k = b ∧
      Adds h name priority entry arg k (h₁.withScheduler (h₁.scheduler.makeReady b)) := by
  obtain ⟨_, _, t, top, halloc, hnew, -, htop, rfl⟩ := hspawn
  obtain ⟨k, hslot, -, rfl, rfl, rfl⟩ := Pool.alloc_eq_some_iff.mp halloc
  have hk := Pool.busy_of_freeSlot? hslot
  have hvacant := ho.settled.not_live_of_free hk
  obtain rfl := (ho.settled.housed.placed.isBlock k).initialStackPointer_eq htop
  simp only [Thread.new, Except.bind_eq_ok_iff, Except.pure_eq_ok_iff] at hnew
  obtain ⟨-, -, rfl⟩ := hnew
  refine ⟨k, rfl, ?_⟩
  constructor
  · exact Pool.freeSlot?_eq_some_iff.mp hslot
  · exact hvacant
  · rw [base_of_containing ho.here]
    rintro rfl
    exact hvacant ho.settled.live
  · exact (ho.settled.get_makeReady_spawned hk _).trans (if_pos rfl)
  · intro c hne
    exact (ho.settled.get_makeReady_spawned hk c).trans (if_neg (Ne.symm hne))
  · exact congrArg _ (ho.settled.makeReady_spawned_frame hk)

theorem create_of_full (hpriority : priority ≤ Config.priorityMax)
    (hfull : h.scheduler.pool.inUse = h.scheduler.pool.capacity) :
    (create name priority entry arg : HostM (Except SpawnError Nat)) h =
      .ok (.error .outOfMemory) h :=
  create_eq_ok_iff.mpr ⟨requirePriority_ok (Nat.not_lt.mpr hpriority),
    Or.inl ⟨Pool.alloc_eq_none_iff.mpr hfull, rfl, rfl⟩⟩

theorem create_of_room (ho : h.Orderly r) (hroom : Roomy h.scheduler.pool)
    (hpriority : priority ≤ Config.priorityMax)
    (hfree : h.scheduler.pool.inUse ≠ h.scheduler.pool.capacity)
    (htid : h.scheduler.nextTid + 1 < Word.limit32)
    (hcounted : h.scheduler.pool.allocs < h.scheduler.nextTid) :
    ∃ k h', (create name priority entry arg : HostM (Except SpawnError Nat)) h =
        .ok (.ok h.scheduler.nextTid) h' ∧ Adds h name priority entry arg k h' := by
  obtain ⟨res, h', hcreate⟩ : Returns (create name priority entry arg) h :=
    returns_create ho.settled hroom htid (counted_of_identified hcounted htid)
      (requirePriority_ok (Nat.not_lt.mpr hpriority))
  obtain ⟨-, ⟨hnone, -⟩ | ⟨b, h₁, hspawn, hunblock, rfl⟩⟩ := create_eq_ok_iff.mp hcreate
  · exact absurd (Pool.alloc_eq_none_iff.mp hnone) hfree
  · obtain ⟨-, -, -, rfl⟩ := unblock_eq_ok_iff.mp hunblock
    obtain ⟨k, rfl, hadds⟩ := hspawn.adds ho
    rw [hadds.thread] at hcreate
    exact ⟨k, _, hcreate, hadds⟩

theorem halts_allocateTid (htid : Word.limit32 ≤ h.scheduler.nextTid + 1) :
    Halts allocateTid h .addOverflow := by
  have hadd : Word.add Word.limit32 h.scheduler.nextTid 1 = .error .addOverflow :=
    if_neg (Nat.not_lt.mpr htid)
  exact halts_bind_of_ok (get_eq_ok_iff.mpr ⟨rfl, rfl⟩) (halts_liftM hadd).bind

/-- The last identifier is given to nobody: there is none to come after it. -/
theorem halts_create_of_exhausted (hpriority : priority ≤ Config.priorityMax)
    (hfree : h.scheduler.pool.inUse ≠ h.scheduler.pool.capacity)
    (htid : Word.limit32 ≤ h.scheduler.nextTid + 1) :
    Halts (create name priority entry arg) h .addOverflow := by
  have hrange := requirePriority_ok (Nat.not_lt.mpr hpriority)
  obtain ⟨t, hnew⟩ : ∃ t, Thread.new name priority = .ok t := exists_new hrange
  have hspawn : Halts (spawn name priority entry arg) h .addOverflow := by
    refine halts_bind_of_ok (liftM_eq_ok_iff.mpr ⟨hrange, rfl⟩)
      (halts_bind_of_ok (get_eq_ok_iff.mpr ⟨rfl, rfl⟩) ?_)
    cases halloc : h.scheduler.pool.alloc h.scheduler.threads with
    | error cause =>
        obtain ⟨-, -, rfl⟩ := Pool.alloc_eq_error_iff.mp halloc
        exact (halts_liftM rfl).bind
    | ok found =>
        obtain ⟨⟨b, pool, threads⟩, rfl⟩ : ∃ allotted, found = some allotted :=
          Option.ne_none_iff_exists'.mp fun hnone =>
            hfree (Pool.alloc_eq_none_iff.mp (hnone ▸ halloc))
        refine halts_bind_of_ok (liftM_eq_ok_iff.mpr ⟨rfl, rfl⟩)
          (halts_bind_of_ok (a := ()) (set_allot_eq_ok_iff.mpr rfl)
            (halts_bind_of_ok (a := ()) (initThread_eq_ok_iff.mpr ⟨t, hnew, rfl⟩) (Halts.bind ?_)))
        exact halts_allocateTid htid
  exact hspawn.bind

/-- The identifiers after the events `es`. Boot takes the first two, and the threads created since
have the next ones, in the order in which they were created. -/
structure Numbered (main idle : Nat) (es : List Event) (h : Host) : Prop extends
    h.Named main idle where
  created_eq : createdTids es = List.range' 3 (createdTids es).length
  nextTid_eq : h.scheduler.nextTid = (createdTids es).length + 3

theorem AfterBoot.numbered (hafter : h.AfterBoot main idle) : Numbered main idle [] h where
  toNamed := hafter.ledger.toNamed
  created_eq := rfl
  nextTid_eq := hafter.nextTid_eq

/-- Whatever a call does, it takes the next identifier if it creates a thread, and none if not. -/
theorem Numbered.snoc (hn : Numbered main idle es h) (ho : h.Orderly r)
    (hentry : Entry h r e h') : Numbered main idle (es ++ [e]) h' := by
  have hcreated := hn.created_eq
  have hnext := hn.nextTid_eq
  refine ⟨hentry.named ho hn.toNamed, ?_, ?_⟩
  · rw [createdTids_snoc]
    cases hentry with
    | kept _ hnone | returned _ hnone =>
        rw [hnone, Option.toList_none, List.append_nil]
        exact hcreated
    | created _ hnew =>
        rw [hnew, Option.toList_some, List.length_append, List.length_singleton,
          List.range'_1_concat, ← hcreated, hnext, Nat.add_comm]
  · rw [createdTids_snoc]
    cases hentry with
    | kept _ hnone _ hsame =>
        rw [hnone, Option.toList_none, List.append_nil, hsame.nextTid]
        exact hnext
    | created _ hnew _ _ _ hmore =>
        rw [hnew, Option.toList_some, List.length_append, List.length_singleton, hmore, hnext]
    | returned _ hnone _ _ _ hsame =>
        rw [hnone, Option.toList_none, List.append_nil, hsame]
        exact hnext

theorem Run.numbered (hafter : h₀.AfterBoot main idle) (hrun : Run Kernel h₀ es h) :
    Numbered main idle es h := by
  induction hrun with
  | nil => exact hafter.numbered
  | snoc hrun hallowed hperforms ih =>
      obtain ⟨r, ho⟩ := hrun.orderly ⟨main, hafter.orderly⟩
      exact ih.snoc ho (entry_of_call ho hallowed hperforms)

/-- Let a kernel reach any state after boot, over a pool that ends before the address space does.
The boot thread is thread 1, the idle thread is thread 2, and the threads created since are 3, 4 and
so on. A call to create a thread of a valid priority is refused exactly if all slots are in use, and
then nothing whatever changes. Otherwise it gives the next identifier and adds one thread, unless
the identifiers of 32 bits are used up. -/
theorem Run.creation (hbooted : h₀.Booted) (hroom : Roomy h₀.scheduler.pool)
    (hrun : Run Kernel h₀ es h) :
    (∃ main idle, h.scheduler.initial = some main ∧ (h.scheduler.threads.get main).tid = 1 ∧
      h.scheduler.idle = some idle ∧ (h.scheduler.threads.get idle).tid = 2) ∧
    createdTids es = List.range' 3 (createdTids es).length ∧
    ∀ (name : String) (priority entry arg : Nat), priority ≤ Config.priorityMax →
      (h.scheduler.pool.inUse = h.scheduler.pool.capacity →
        (create name priority entry arg : HostM (Except SpawnError Nat)) h =
          .ok (.error .outOfMemory) h) ∧
      (h.scheduler.pool.inUse ≠ h.scheduler.pool.capacity →
        (createdTids es).length + 4 < Word.limit32 →
        ∃ k h', (create name priority entry arg : HostM (Except SpawnError Nat)) h =
            .ok (.ok ((createdTids es).length + 3)) h' ∧ Adds h name priority entry arg k h') ∧
      (h.scheduler.pool.inUse ≠ h.scheduler.pool.capacity →
        Word.limit32 ≤ (createdTids es).length + 4 →
        Halts (create name priority entry arg) h .addOverflow) := by
  obtain ⟨main, idle, hafter⟩ := hbooted.after
  have hstart : ∃ r, h₀.Orderly r := ⟨main, hafter.orderly⟩
  obtain ⟨r, ho⟩ := hrun.orderly hstart
  obtain ⟨hbase, hcapacity, -⟩ := hrun.pool_place hstart
  have hn := hrun.numbered hafter
  have hnext := hn.nextTid_eq
  have hstays : Roomy h.scheduler.pool := by
    rw [Roomy, hbase, hcapacity]
    exact hroom
  refine ⟨⟨main, idle, hn.initial_eq, hn.tid_main, hn.idle_eq, hn.tid_idle⟩, hn.created_eq, ?_⟩
  intro name priority entry arg hpriority
  refine ⟨create_of_full hpriority, fun hfree hleft => ?_, fun hfree hspent => ?_⟩
  · rw [← hnext]
    have hcounted := hrun.allocs_lt_nextTid hstart hafter.allocs_lt_nextTid
    exact create_of_room ho hstays hpriority hfree (by omega) hcounted
  · exact halts_create_of_exhausted hpriority hfree (by omega)

/-- Two threads are created, and there is no block for a third. -/
def fullSample : List Event × Host :=
  play Kernel sample
    [.create "a" 3 threadBody 7, .create "b" 5 threadBody 9, .create "c" 5 threadBody 9]

/-- The first of them exits, and its block is taken back. -/
def vacatedSample : List Event × Host :=
  play Kernel fullSample.2 [.yieldNow, .retire, .setLevel .on, .yieldNow]

/-- The pool is full, and later the next thread gets the block of the one that exited, but not its
identifier. -/
theorem creation_sample :
    sample.Booted ∧ Roomy sample.scheduler.pool ∧
      Run Kernel sample fullSample.1 fullSample.2 ∧ createdTids fullSample.1 = [3, 4] ∧
      (create "c" 5 threadBody 9 : HostM (Except SpawnError Nat)) fullSample.2 =
        .ok (.error .outOfMemory) fullSample.2 ∧
      Run Kernel sample (fullSample.1 ++ vacatedSample.1) vacatedSample.2 ∧
      freedTids (fullSample.1 ++ vacatedSample.1) = [3] ∧
      ∃ h', (create "d" 63 threadBody 11 : HostM (Except SpawnError Nat)) vacatedSample.2 =
          .ok (.ok 5) h' ∧ Adds vacatedSample.2 "d" 63 threadBody 11 1 h' := by
  have hroom : Roomy sample.scheduler.pool := by
    unfold Roomy
    decide +kernel
  have hfull : Run Kernel sample fullSample.1 fullSample.2 := Run.play _ _
  have hvacated : Run Kernel sample (fullSample.1 ++ vacatedSample.1) vacatedSample.2 :=
    hfull.append (Run.play _ _)
  have hused : fullSample.2.scheduler.pool.inUse = fullSample.2.scheduler.pool.capacity := by
    decide +kernel
  have hfree : vacatedSample.2.scheduler.pool.inUse ≠ vacatedSample.2.scheduler.pool.capacity := by
    decide +kernel
  have hslot : vacatedSample.2.scheduler.pool.freeSlot? = some 1 := by decide +kernel
  have hcount : (createdTids (fullSample.1 ++ vacatedSample.1)).length = 2 := by decide +kernel
  have hleft : (createdTids (fullSample.1 ++ vacatedSample.1)).length + 4 < Word.limit32 := by
    rw [hcount]
    decide
  have hrefused :=
    ((Run.creation booted_sample hroom hfull).2.2 "c" 5 threadBody 9 (by decide)).1 hused
  obtain ⟨k, h', hcreate, hadds⟩ :=
    ((Run.creation booted_sample hroom hvacated).2.2 "d" 63 threadBody 11 (by decide)).2.1
      hfree hleft
  rw [hcount] at hcreate
  obtain rfl : 1 = k := Option.some.inj
    (hslot.symm.trans (Pool.freeSlot?_eq_some_iff.mpr hadds.lowest))
  exact ⟨booted_sample, hroom, hfull, by decide +kernel, hrefused, hvacated, by decide +kernel,
    h', hcreate, hadds⟩

end Host

end RoundRobin
