import RoundRobin.Proofs.Scheduler.Dispatch

/-!
# Steps of the scheduling state

All that a call can do to the scheduling state and to the stack pointer, as one relation, `Step`.
Every step leads from a settled state with a running thread to another one.
-/

namespace RoundRobin.Scheduler

variable {s s' s₁ : Scheduler} {P : Thread → Prop} {b r n sp sp' now : Nat}

/-- The exited thread that is still to be taken back, if there is one, is taken back. -/
inductive Reclaimed (s : Scheduler) : Scheduler → Prop
  | none (empty : s.destruction.members = []) : Reclaimed s s
  | one {b k : Nat} (only : s.destruction.members = [b]) (busy : s.pool.busy[k]? = some true)
      (slot : s.pool.slotAddress k = b) : Reclaimed s (s.reap b (s.pool.vacated k))

/-- At most one exited thread waits to be taken back, and its block is the pool's. -/
structure Reclaimable (s : Scheduler) : Prop where
  placed : s.pool.Placed
  few : s.destruction.members.length ≤ 1
  pooled : ∀ b ∈ s.destruction.members, b ∈ s.pool.blocksInUse

/-- The sleepers due at the tick `now` are woken one after another. -/
inductive Woken (now : Nat) : Scheduler → Scheduler → Prop
  | done {s : Scheduler} (not_due : ¬ s.sleepers.Due s.threads now) : Woken now s s
  | next {s s' : Scheduler} {b wake : Nat} {rest : List Nat}
      (first : s.sleepers.queue.members = b :: rest)
      (tick : (s.threads.get b).wakeTick = some wake) (due : wake ≤ now)
      (others : Woken now (s.rouse b) s') : Woken now s s'

/-- What a call amounts to. -/
inductive Action where
  /-- Nothing but counters and the priority of the running thread changes. -/
  | count
  /-- The blocked thread in `b` is made ready. -/
  | unblock (b : Nat)
  /-- A thread is created in `b` and made ready. -/
  | create (b : Nat)
  /-- The running thread gives way to the others that are ready. -/
  | yield
  /-- The running thread waits to be unblocked. -/
  | block
  /-- The running thread sleeps until the tick `wake`. -/
  | sleep (wake : Nat)
  /-- The running thread exits. -/
  | exit
  /-- The sleepers due at `now` are made ready. -/
  | wake (now : Nat)
  /-- The tick counter advances, and the sleepers due are made ready. -/
  | interrupt
  deriving DecidableEq

/-- The state in which the thread in `r` is left by an action that gives up the processor. -/
inductive Departs (s : Scheduler) (r : Nat) : Action → Scheduler → Prop
  | idles {s₁ : Scheduler} (self : s.idle = some r) (reclaimed : Reclaimed s s₁) :
      Departs s r .yield (s₁.mark r .ready)
  | yields {s₁ : Scheduler} (other : s.idle ≠ some r) (reclaimed : Reclaimed (s.enqueue r) s₁) :
      Departs s r .yield (s₁.mark r .ready)
  | blocks : Departs s r .block (s.mark r .blocked)
  | sleeps {wake : Nat} (other : s.idle ≠ some r) :
      Departs s r (.sleep wake) ((s.putToSleep r wake).mark r .blocked)
  | exits {s₁ : Scheduler} (other : s.idle ≠ some r) (reclaimed : Reclaimed s s₁) :
      Departs s r .exit (s₁.mark r .dying)

/-- An action on the state `s` and the stack pointer `sp`, in the thread in `r`, after which the
thread in the last block runs. -/
inductive Step (s : Scheduler) (sp r : Nat) : Action → Scheduler → Nat → Nat → Prop
  | counted (stats : TickStats) (sliceTicks : Nat) :
      Step s sp r .count ((s.withStats stats).withSlice sliceTicks) sp r
  | prioritised (priority : Nat) :
      Step s sp r .count (s.alter r fun t => { t with priority }) sp r
  | unblocked {b : Nat} (live : s.Live b) (free : (s.threads.get b).Free)
      (blocked : (s.threads.get b).status = .blocked) : Step s sp r (.unblock b) (s.makeReady b) sp r
  | created {k : Nat} {t : Thread} {context : Context} (slot : s.pool.freeSlot? = some k)
      (free : t.Free) (blocked : t.status = .blocked) (tick : t.wakeTick = none)
      (intact : t.IsValid) (stack : Block.containing context.sp = .ok (s.pool.slotAddress k))
      (room : s.pool.allocs + 1 < Word.limit64) :
      Step s sp r (.create (s.pool.slotAddress k))
        ((s.spawned k t context).makeReady (s.pool.slotAddress k)) sp r
  | departed {a : Action} {s₁ s' : Scheduler} {sp' n : Nat} (departs : Departs s r a s₁)
      (dispatched : Dispatched s₁ sp r s' sp' n) : Step s sp r a s' sp' n
  | woke {s' : Scheduler} {now : Nat} (woken : Woken now s s') : Step s sp r (.wake now) s' sp r
  | interrupted {s' : Scheduler} (stats : TickStats) (sliceTicks : Nat)
      (woken : Woken (s.ticks + 1) ((s.advance.withStats stats).withSlice sliceTicks) s') :
      Step s sp r .interrupt s' sp r

theorem Reclaimed.idle_eq (h : Reclaimed s s') : s'.idle = s.idle := by
  cases h <;> rfl

theorem Reclaimed.initial_eq (h : Reclaimed s s') : s'.initial = s.initial := by
  cases h <;> rfl

theorem Reclaimed.destruction_eq (h : Reclaimed s s') : s'.destruction.members = [] := by
  cases h with
  | none hempty => exact hempty
  | one honly => simp [reap, exhume, Queue.behead, honly]

theorem Settled.reclaimable (h : s.Settled P r)
    (hhere : (s.threads.get r).owner ≠ .destruction) : s.Reclaimable where
  placed := h.housed.placed
  few := h.dead
  pooled b hb := by
    have howner := (h.linked.destruction.mem_iff b).mp hb
    have hne : b ≠ r := by
      rintro rfl
      exact hhere howner
    have hlive : s.Live b := h.housed.owned b (by rw [howner]; decide)
    obtain ⟨-, -, -, hmain⟩ := (h.others b hlive hne).waits.dead_of_owner howner
    exact hlive.resolve_left hmain

theorem Reclaimed.settled (h : Reclaimed s s') (hs : s.Settled P r)
    (hhere : (s.threads.get r).owner ≠ .destruction) : s'.Settled P r := by
  cases h with
  | none => exact hs
  | @one b k honly hbusy hslot =>
      have hne : b ≠ r := by
        rintro rfl
        have hmem : b ∈ s.destruction.members := by
          rw [honly]
          exact List.mem_singleton_self b
        exact hhere ((hs.linked.destruction.mem_iff b).mp hmem)
      obtain ⟨-, j, -, hj, hreap⟩ := hs.reap honly hne
      obtain rfl : j = k := s.pool.slotAddress_injective (hj.trans hslot.symm)
      exact hreap

/-- Counters are no part of a settled state. -/
theorem Settled.counted (h : s.Settled P r) (stats : TickStats) (sliceTicks : Nat) :
    ((s.withStats stats).withSlice sliceTicks).Settled P r :=
  h.revise (h.linked.congr rfl rfl rfl fun _ => rfl) rfl rfl rfl rfl (fun _ _ => rfl) h.intact h.here

theorem Settled.advance (h : s.Settled P r) : s.advance.Settled P r :=
  h.revise (h.linked.congr rfl rfl rfl fun _ => rfl) rfl rfl rfl rfl (fun _ _ => rfl) h.intact h.here

theorem Settled.prioritised (h : s.Settled Active r) (priority : Nat) :
    (s.alter r fun t => { t with priority }).Settled Active r :=
  h.alter rfl rfl (fun _ => rfl) rfl ⟨h.here.owner, h.here.status, h.here.tick⟩

/-- A thread on a queue does not run. -/
theorem Settled.ne_of_owner (h : s.Settled Active r)
    (howner : (s.threads.get b).owner ≠ .detached) : b ≠ r := by
  rintro rfl
  exact howner h.here.owner

theorem Settled.parked_of_owner (h : s.Settled Active r)
    (howner : (s.threads.get b).owner ≠ .detached) : s.Parked b :=
  h.others b (h.housed.owned b howner) (h.ne_of_owner howner)

theorem Settled.asleep_of_owner (h : s.Settled Active r)
    (howner : (s.threads.get b).owner = .sleep) :
    (s.threads.get b).status = .blocked ∧ (s.threads.get b).wakeTick ≠ none ∧ s.idle ≠ some b :=
  (h.parked_of_owner (howner.trans_ne (by decide))).waits.asleep_of_owner howner

/-- The first sleeper is tagged as one. -/
theorem Settled.owner_of_first (h : s.Settled P r) {rest : List Nat}
    (hfirst : s.sleepers.queue.members = b :: rest) : (s.threads.get b).owner = .sleep := by
  apply (h.linked.sleep.mem_iff b).mp
  rw [hfirst]
  exact List.mem_cons_self

theorem Settled.rouse_active (h : s.Settled Active r) {rest : List Nat}
    (hfirst : s.sleepers.queue.members = b :: rest) : (s.rouse b).Settled Active r :=
  h.rouse hfirst (h.ne_of_owner ((h.owner_of_first hfirst).trans_ne (by decide)))

theorem Woken.settled (h : Woken now s s') (hs : s.Settled Active r) : s'.Settled Active r := by
  induction h with
  | done => exact hs
  | next hfirst _ _ _ ih => exact ih (hs.rouse_active hfirst)

/-- A thread that gives up the processor is ready to be left. -/
theorem Departs.settled {a : Action} (hd : Departs s r a s₁) (h : s.Settled Active r) :
    s₁.Settled (s₁.Leaving r) r := by
  have howner := h.here.owner
  have htick := h.here.tick
  cases hd with
  | idles hself hreclaimed =>
      have hs := hreclaimed.settled h (by rw [howner]; decide)
      exact hs.mark (Or.inl ⟨.idle hs.here.owner rfl hs.here.tick (hreclaimed.idle_eq.trans hself),
        by simp⟩)
  | yields hother hreclaimed =>
      have hqueued : (s.enqueue r).Settled (fun t => t.owner = .ready ∧ t.wakeTick = none) r :=
        h.enqueue howner ⟨rfl, htick⟩
      have hs := hreclaimed.settled hqueued (by rw [hqueued.here.1]; decide)
      exact hs.mark (Or.inl ⟨.ready hs.here.1 rfl hs.here.2, by simp⟩)
  | blocks => exact h.mark (Or.inl ⟨.blocked howner rfl htick, by simp⟩)
  | @sleeps wake hother =>
      have hset : (s.alter r fun t => { t with wakeTick := some wake }).Settled
          (fun t => t.owner = .detached ∧ t.wakeTick = some wake) r :=
        h.alter rfl rfl (fun hsleep => by rw [howner] at hsleep; cases hsleep) rfl ⟨howner, rfl⟩
      have hs : (s.putToSleep r wake).Settled
          (fun t => t.owner = .sleep ∧ t.wakeTick = some wake) r :=
        hset.shelve hset.here.1 hset.here.2 ⟨rfl, hset.here.2⟩
      have hsome : ((s.putToSleep r wake).threads.get r).wakeTick ≠ none := by
        rw [hs.here.2]
        exact Option.some_ne_none wake
      exact hs.mark (Or.inl ⟨.asleep hs.here.1 rfl hsome hother, by simp⟩)
  | exits hother hreclaimed =>
      have hs := hreclaimed.settled h (by rw [howner]; decide)
      refine hs.mark (Or.inr ⟨hs.here.owner, rfl, hs.here.tick, ?_, hreclaimed.destruction_eq⟩)
      intro hself
      exact hother (hreclaimed.idle_eq.symm.trans hself)

/-- Every step leads from a settled state, in which one thread runs on its own stack, to another
one. -/
theorem Step.settled {a : Action} (hstep : Step s sp r a s' sp' n) (h : s.Settled Active r)
    (hsp : Block.containing sp = .ok r) : s'.Settled Active n ∧ Block.containing sp' = .ok n := by
  cases hstep with
  | counted stats sliceTicks => exact ⟨h.counted stats sliceTicks, hsp⟩
  | prioritised priority => exact ⟨h.prioritised priority, hsp⟩
  | @unblocked b hlive hfree hblocked =>
      have hne : b ≠ r := by
        rintro rfl
        rw [h.here.status] at hblocked
        cases hblocked
      exact ⟨h.makeReady hlive hne hfree.1 hblocked, hsp⟩
  | @created k t context hslot hfree hblocked htick hintact hstack hroom =>
      have hk := Pool.busy_of_freeSlot? hslot
      have hspawn := h.spawn hk hroom hfree hblocked htick hintact hstack
      have hget := s.get_spawned k t context (s.pool.slotAddress k)
      rw [if_pos rfl] at hget
      refine ⟨hspawn.makeReady ?_ ?_ ?_ ?_, hsp⟩
      · exact (h.live_spawned hk t context _).mpr (Or.inl rfl)
      · exact fun heq => h.not_live_of_free hk (heq ▸ h.live)
      · rw [hget]
        exact hfree.1
      · rw [hget]
        exact hblocked
  | departed hdeparts hdispatched => exact hdispatched.settled (hdeparts.settled h) hsp
  | woke hwoken => exact ⟨hwoken.settled h, hsp⟩
  | interrupted stats sliceTicks hwoken =>
      exact ⟨hwoken.settled (h.advance.counted stats sliceTicks), hsp⟩

end RoundRobin.Scheduler
