import RoundRobin.Proofs.Host.Run

/-!
# Boot

The adoption of the boot context and the start of the idle thread lead to an orderly state, from
which all runs of a kernel set out.
-/

namespace RoundRobin

open Scheduler

theorem Queue.tracks_new {kind : Owner} (hkind : kind ≠ .detached) {threads : Memory Thread}
    (hdetached : ∀ b, (threads.get b).owner = .detached) : (Queue.new kind).Tracks kind threads where
  kind_eq := rfl
  nodup := List.nodup_nil
  size_eq := rfl
  mem_iff t := by
    rw [hdetached]
    exact iff_of_false List.not_mem_nil (Ne.symm hkind)

namespace Scheduler

variable {s : Scheduler} {b r : Nat}

/-- A scheduler that has done nothing yet. -/
def Pristine (s : Scheduler) : Prop :=
  ∃ base n trampoline, s = { pool := .new base n, trampoline }

theorem Pristine.blocksInUse (h : s.Pristine) : s.pool.blocksInUse = [] := by
  obtain ⟨base, n, trampoline, rfl⟩ := h
  apply List.eq_nil_of_length_eq_zero
  rw [Pool.length_blocksInUse]
  simp [Pool.inUse, Pool.new, List.count_replicate]

/-- With the boot context adopted there is one thread, and it runs. -/
theorem Pristine.settled_adopt (h : s.Pristine) (hplaced : s.pool.Placed)
    (hapart : ∀ k < s.pool.capacity, b ≠ s.pool.slotAddress k) {t : Thread} (hfree : t.Free)
    (htick : t.wakeTick = none) (hintact : t.IsValid) : (s.adopt b t).Settled Active b := by
  have hempty := h.blocksInUse
  obtain ⟨base, n, trampoline, rfl⟩ := h
  have hget := get_adopt { pool := .new base n, trampoline } b t
  have hdetached : ∀ c, ((Scheduler.adopt { pool := .new base n, trampoline } b t).threads.get
      c).owner = .detached := by
    intro c
    rw [hget]
    split
    · exact hfree.1
    · rfl
  have hlinked : ∀ c, ((Scheduler.adopt { pool := .new base n, trampoline } b t).threads.get
      c).linked = false := by
    intro c
    rw [hget]
    split
    · exact hfree.2
    · rfl
  exact {
    linked := {
      ready := Queue.tracks_new (by decide) hdetached
      sleep := Queue.tracks_new (by decide) hdetached
      destruction := Queue.tracks_new (by decide) hdetached
      tidy := by
        intro c
        rw [Thread.Tidy, hdetached, hlinked]
        simp
      ascending := List.Pairwise.nil }
    housed := {
      placed := hplaced
      balanced := Pool.balanced_new base n
      boot := by
        intro k hk heq
        exact hapart k hk (Option.some.inj heq)
      idle := by
        intro c hc
        cases hc
      owned := fun c hc => absurd (hdetached c) hc }
    dead := Nat.zero_le 1
    live := Or.inl rfl
    intact := by
      rw [hget, if_pos rfl]
      exact hintact
    here := by
      rw [hget, if_pos rfl]
      exact ⟨hfree.1, rfl, htick⟩
    others := by
      rintro c (hc | hc) hne
      · exact absurd (Option.some.inj hc).symm hne
      · exact absurd hc (List.eq_nil_iff_forall_not_mem.mp hempty c) }

/-- The thread in `main` was adopted as the boot thread, and nothing else has happened. -/
structure Adopted (s : Scheduler) (main : Nat) : Prop where
  settled : s.Settled Active main
  blocks : s.pool.blocksInUse = []
  frees_eq : s.pool.frees = 0
  none_dead : s.destruction.members = []
  initial_eq : s.initial = some main
  idle_eq : s.idle = none
  tid_main : (s.threads.get main).tid = 1
  nextTid_eq : s.nextTid = 2

theorem Pristine.adopted (h : s.Pristine) {t : Thread} (hsettled : (s.adopt b t).Settled Active b) :
    (s.adopt b t).Adopted b where
  settled := hsettled
  blocks := h.blocksInUse
  frees_eq := by
    obtain ⟨base, n, trampoline, rfl⟩ := h
    rfl
  none_dead := by
    obtain ⟨base, n, trampoline, rfl⟩ := h
    rfl
  initial_eq := rfl
  idle_eq := by
    obtain ⟨base, n, trampoline, rfl⟩ := h
    rfl
  tid_main := by
    obtain ⟨base, n, trampoline, rfl⟩ := h
    rw [get_adopt, if_pos rfl]
  nextTid_eq := by
    obtain ⟨base, n, trampoline, rfl⟩ := h
    rfl

section

variable {main k : Nat} (t : Thread) (context : Context)

/-- The first thread that is created has the only block in use. -/
theorem Adopted.blocks_spawned (h : s.Adopted main) (hk : s.pool.busy[k]? = some false) :
    (s.spawned k t context).pool.blocksInUse = [s.pool.slotAddress k] := by
  have hperm := Pool.perm_blocksInUse_occupied hk
  rw [h.blocks] at hperm
  rw [h.settled.spawned_frame hk]
  exact List.perm_singleton.mp hperm

/-- It is told apart from the boot thread. -/
theorem Adopted.get_spawned (h : s.Adopted main) (hk : s.pool.busy[k]? = some false) :
    (s.spawned k t context).threads.get main = s.threads.get main ∧
      (s.spawned k t context).threads.get (s.pool.slotAddress k) = { t with tid := 2, context } := by
  have hmain : s.pool.slotAddress k ≠ main :=
    fun heq => h.settled.not_live_of_free hk (heq ▸ h.settled.live)
  constructor
  · rw [Scheduler.get_spawned, if_neg hmain]
  · rw [Scheduler.get_spawned, if_pos rfl, h.nextTid_eq]

end

/-- A blocked thread is made the idle thread. -/
theorem Settled.appoint (h : s.Settled Active r) (hnone : s.idle = none)
    (hb : b ∈ s.pool.blocksInUse) (howner : (s.threads.get b).owner = .detached)
    (hblocked : (s.threads.get b).status = .blocked) (htick : (s.threads.get b).wakeTick = none) :
    (s.appoint b).Settled Active r where
  linked := h.linked.congr rfl rfl rfl fun _ => rfl
  housed := {
    placed := h.housed.placed
    balanced := h.housed.balanced
    boot := h.housed.boot
    idle := by
      intro c hc
      cases hc
      exact hb
    owned := h.housed.owned }
  dead := h.dead
  live := h.live
  intact := h.intact
  here := h.here
  others := by
    intro c hc hne
    obtain ⟨hintact, hstack, hwaits⟩ := h.others c hc hne
    refine ⟨hintact, hstack, ?_⟩
    change Waits (some b) s.initial c (s.threads.get c)
    by_cases hcb : c = b
    · subst hcb
      exact .blocked howner hblocked htick
    · have hother : some b ≠ some c := fun heq => hcb (Option.some.inj heq).symm
      rw [hnone] at hwaits
      cases hwaits with
      | ready ho hs ht => exact .ready ho hs ht
      | asleep ho hs ht => exact .asleep ho hs ht hother
      | dead ho hs ht _ hpooled => exact .dead ho hs ht hother hpooled
      | blocked ho hs ht => exact .blocked ho hs ht
      | idle _ _ _ hself => cases hself
      | exited ho hs ht hself => exact .exited ho hs ht hself

end Scheduler

namespace Host

variable {h : Host}

/-- A host before boot: its scheduler has done nothing, the blocks of the pool are aligned and lie
in the address space, and the stack is not in one of them. -/
structure Fresh (h : Host) : Prop where
  pristine : h.scheduler.Pristine
  placed : h.scheduler.pool.Placed
  apart : ∀ k < h.scheduler.pool.capacity, Block.base h.sp ≠ h.scheduler.pool.slotAddress k

/-- A host right after boot: the boot context was adopted and the idle thread was started. -/
structure Booted (h : Host) : Prop where
  boot : ∃ h₀ h₁ entry, h₀.Fresh ∧ (init : HostM Unit) h₀ = .ok () h₁ ∧
    (start entry : HostM (Except SpawnError Unit)) h₁ = .ok (.ok ()) h

theorem base_of_containing {sp b : Nat} (h : Block.containing sp = .ok b) : Block.base sp = b :=
  (Block.containing_eq_ok_iff_base.mp h).2

/-- What boot leaves: the boot thread runs, and the idle thread has the only block in use. -/
structure AfterBoot (h : Host) (main idle : Nat) : Prop where
  orderly : h.Orderly main
  initial_eq : h.scheduler.initial = some main
  idle_eq : h.scheduler.idle = some idle
  blocks : h.scheduler.pool.blocksInUse = [idle]
  frees_eq : h.scheduler.pool.frees = 0
  none_dead : h.scheduler.destruction.members = []
  tid_main : (h.scheduler.threads.get main).tid = 1
  tid_idle : (h.scheduler.threads.get idle).tid = 2
  nextTid_eq : h.scheduler.nextTid = 3

/-- The adopted boot context is the only thread, and it runs. -/
theorem Fresh.init {h₁ : Host} (hfresh : h.Fresh)
    (hinit : (Scheduler.init : HostM Unit) h = .ok () h₁) :
    ∃ main, h₁.scheduler.Adopted main ∧ Block.containing h₁.sp = .ok main := by
  obtain ⟨-, -, main, hmain, t, hnew, -, rfl⟩ := init_eq_ok_iff.mp hinit
  obtain ⟨-, hfree, htick, hintact⟩ := Thread.new_eq_ok hnew
  have hapart := hfresh.apart
  rw [base_of_containing hmain] at hapart
  have hsettled := hfresh.pristine.settled_adopt hfresh.placed hapart hfree htick hintact
  exact ⟨main, hfresh.pristine.adopted hsettled, hmain⟩

theorem Booted.after (hbooted : h.Booted) : ∃ main idle, h.AfterBoot main idle := by
  obtain ⟨h₀, h₁, entry, hfresh, hinit, hstart⟩ := hbooted.boot
  obtain ⟨main, hadopted, hhere⟩ := hfresh.init hinit
  have hsettled := hadopted.settled
  obtain ⟨-, hres, -⟩ | ⟨idle, h₂, hspawn, -, rfl⟩ := start_eq_ok_iff.mp hstart
  · cases hres
  obtain ⟨k, t, context, hslot, rfl, ⟨hfree, hblocked, htick, hintact⟩, hstack, hroom, hs₂, hsp₂⟩ :=
    hspawn.spawned hsettled.housed.placed
  have hk := Pool.busy_of_freeSlot? hslot
  have hframe := hsettled.spawned_frame hk t context
  have hblocks := hadopted.blocks_spawned t context hk
  obtain ⟨hmain, hidle⟩ := hadopted.get_spawned t context hk
  have hspawned := hsettled.spawn hk hroom hfree hblocked htick hintact hstack
  rw [← hs₂] at hframe hblocks hmain hidle hspawned
  refine ⟨main, h₁.scheduler.pool.slotAddress k, ?_⟩
  constructor
  · refine ⟨?_, ?_⟩
    · apply hspawned.appoint
      · rw [hframe]
        exact hadopted.idle_eq
      · rw [hblocks]
        exact List.mem_singleton_self _
      · rw [hidle]
        exact hfree.1
      · rw [hidle]
        exact hblocked
      · rw [hidle]
        exact htick
    · change Block.containing h₂.sp = _
      rw [hsp₂]
      exact hhere
  · change h₂.scheduler.initial = _
    rw [hframe]
    exact hadopted.initial_eq
  · rfl
  · exact hblocks
  · change h₂.scheduler.pool.frees = _
    rw [hframe]
    exact hadopted.frees_eq
  · change h₂.scheduler.destruction.members = _
    rw [hframe]
    exact hadopted.none_dead
  · change (h₂.scheduler.threads.get main).tid = 1
    rw [hmain]
    exact hadopted.tid_main
  · change (h₂.scheduler.threads.get _).tid = 2
    rw [hidle]
  · change h₂.scheduler.nextTid = 3
    rw [hframe]
    change h₁.scheduler.nextTid + 1 = 3
    rw [hadopted.nextTid_eq]

/-- Booting a fresh host, if it works, leads to a booted one. -/
theorem Fresh.booted {h₀ : Host} (hfresh : h₀.Fresh) (hboot : Host.boot h₀ = .ok (.ok ()) h) :
    h.Booted := by
  obtain ⟨_, h₁, hinit, hstart⟩ := bind_eq_ok_iff.mp hboot
  exact ⟨⟨h₀, h₁, threadBody, hfresh, hinit, hstart⟩⟩

/-- Whether the computation returns and the call was not refused. -/
def accepted {α : Type} (act : HostM (Except SpawnError α)) (h : Host) : Bool :=
  match act h with
  | .ok (.ok _) _ => true
  | _ => false

/-- A host with a pool of three blocks before boot. -/
def sampleBefore : Host :=
  Host.new 3 (bootStack 4000)

/-- A host with a pool of three blocks right after boot. -/
def sample : Host :=
  match Host.boot sampleBefore with
  | .ok _ h => h
  | .error _ h => h

theorem fresh_sampleBefore : sampleBefore.Fresh where
  pristine := ⟨_, _, _, rfl⟩
  placed := ⟨by decide, by decide, by decide⟩
  apart := by decide

theorem booted_sample : sample.Booted := by
  have haccepted : accepted Host.boot sampleBefore = true := by decide +kernel
  unfold sample
  unfold accepted at haccepted
  split at haccepted
  · next hboot =>
      rw [hboot]
      exact fresh_sampleBefore.booted hboot
  · cases haccepted

end Host

end RoundRobin
