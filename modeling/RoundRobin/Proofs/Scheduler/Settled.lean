import RoundRobin.Proofs.Pool.Slots
import RoundRobin.Proofs.Scheduler.Linked

/-!
# The state between two calls

Where every live thread stands while one of them runs: what its control block says, on which
queue it is, and what the pool has to do with it. `Settled` holds between two calls and, with
another condition on the running thread, at every point within one.
-/

namespace RoundRobin.Scheduler

variable {s s' : Scheduler} {P Q : Thread → Prop} {b c r : Nat}

/-- `b` is the block of a thread: the boot block, or a block of the pool that is in use. -/
def Live (s : Scheduler) (b : Nat) : Prop :=
  s.initial = some b ∨ b ∈ s.pool.blocksInUse

instance (s : Scheduler) (b : Nat) : Decidable (s.Live b) :=
  inferInstanceAs (Decidable (_ ∨ _))

/-- What a thread that does not run may be doing. -/
inductive Waits (idle main : Option Nat) (b : Nat) (c : Thread) : Prop
  /-- It is on the ready queue. -/
  | ready (owner : c.owner = .ready) (status : c.status = .ready) (tick : c.wakeTick = none)
  /-- It is on the sleep queue. -/
  | asleep (owner : c.owner = .sleep) (status : c.status = .blocked) (tick : c.wakeTick ≠ none)
      (other : idle ≠ some b)
  /-- It is on the destruction queue. -/
  | dead (owner : c.owner = .destruction) (status : c.status = .dying) (tick : c.wakeTick = none)
      (other : idle ≠ some b) (pooled : main ≠ some b)
  /-- It waits to be unblocked. -/
  | blocked (owner : c.owner = .detached) (status : c.status = .blocked) (tick : c.wakeTick = none)
  /-- It is the idle thread and gave way to another one. -/
  | idle (owner : c.owner = .detached) (status : c.status = .ready) (tick : c.wakeTick = none)
      (self : idle = some b)
  /-- It is the boot thread and has exited. -/
  | exited (owner : c.owner = .detached) (status : c.status = .dying) (tick : c.wakeTick = none)
      (self : main = some b)

/-- The thread in `b` does not run, and its registers are saved. -/
structure Parked (s : Scheduler) (b : Nat) : Prop where
  intact : (s.threads.get b).IsValid
  stack : Block.containing (s.threads.get b).context.sp = .ok b
  waits : Waits s.idle s.initial b (s.threads.get b)

/-- The control block of a running thread. -/
structure Active (c : Thread) : Prop where
  owner : c.owner = .detached
  status : c.status = .running
  tick : c.wakeTick = none

/-- Blocks are accounted for, and only live threads are on queues. -/
structure Housed (s : Scheduler) : Prop where
  placed : s.pool.Placed
  balanced : s.pool.Balanced
  boot : ∀ k < s.pool.capacity, s.initial ≠ some (s.pool.slotAddress k)
  idle : ∀ b, s.idle = some b → b ∈ s.pool.blocksInUse
  owned : ∀ b, (s.threads.get b).owner ≠ .detached → s.Live b

/-- Everything is in order and the thread in `r` satisfies `P`, all others being parked. -/
structure Settled (P : Thread → Prop) (s : Scheduler) (r : Nat) : Prop where
  linked : s.Linked
  housed : s.Housed
  dead : s.destruction.members.length ≤ 1
  live : s.Live r
  intact : (s.threads.get r).IsValid
  here : P (s.threads.get r)
  others : ∀ b, s.Live b → b ≠ r → s.Parked b

/-- What a thread is doing depends on its owner, its status and its wake tick. -/
theorem Waits.congr {idle main : Option Nat} {t t' : Thread} (h : Waits idle main b t)
    (howner : t'.owner = t.owner) (hstatus : t'.status = t.status)
    (htick : t'.wakeTick = t.wakeTick) : Waits idle main b t' := by
  cases h with
  | ready ho hs ht => exact .ready (howner.trans ho) (hstatus.trans hs) (htick.trans ht)
  | asleep ho hs ht hother =>
      exact .asleep (howner.trans ho) (hstatus.trans hs) (by rwa [htick]) hother
  | dead ho hs ht hother hpooled =>
      exact .dead (howner.trans ho) (hstatus.trans hs) (htick.trans ht) hother hpooled
  | blocked ho hs ht => exact .blocked (howner.trans ho) (hstatus.trans hs) (htick.trans ht)
  | idle ho hs ht hself =>
      exact .idle (howner.trans ho) (hstatus.trans hs) (htick.trans ht) hself
  | exited ho hs ht hself =>
      exact .exited (howner.trans ho) (hstatus.trans hs) (htick.trans ht) hself

theorem Waits.status_ne_running {idle main : Option Nat} {t : Thread} (h : Waits idle main b t) :
    t.status ≠ .running := by
  cases h <;> simp_all

theorem Waits.ready_of_owner {idle main : Option Nat} {t : Thread} (h : Waits idle main b t)
    (howner : t.owner = .ready) : t.status = .ready ∧ t.wakeTick = none := by
  cases h <;> simp_all

theorem Waits.asleep_of_owner {idle main : Option Nat} {t : Thread} (h : Waits idle main b t)
    (howner : t.owner = .sleep) : t.status = .blocked ∧ t.wakeTick ≠ none ∧ idle ≠ some b := by
  cases h <;> simp_all

theorem Waits.dead_of_owner {idle main : Option Nat} {t : Thread} (h : Waits idle main b t)
    (howner : t.owner = .destruction) :
    t.status = .dying ∧ t.wakeTick = none ∧ idle ≠ some b ∧ main ≠ some b := by
  cases h <;> simp_all

theorem Waits.detached_of_idle {idle main : Option Nat} {t : Thread} (h : Waits idle main b t)
    (hidle : idle = some b) (hready : t.owner ≠ .ready) :
    t.owner = .detached ∧ t.wakeTick = none := by
  cases h <;> simp_all

theorem Waits.detached_of_blocked {idle main : Option Nat} {t : Thread}
    (h : Waits idle main b t) (hblocked : t.status = .blocked) (howner : t.owner ≠ .sleep) :
    t.owner = .detached := by
  cases h <;> simp_all

theorem Parked.congr (h : s.Parked b) (hget : s'.threads.get b = s.threads.get b)
    (hidle : s'.idle = s.idle) (hinitial : s'.initial = s.initial) : s'.Parked b := by
  refine ⟨?_, ?_, ?_⟩
  · rw [hget]
    exact h.intact
  · rw [hget]
    exact h.stack
  · rw [hget, hidle, hinitial]
    exact h.waits

theorem live_congr (hpool : s'.pool = s.pool) (hinitial : s'.initial = s.initial) :
    s'.Live b ↔ s.Live b := by
  rw [Live, Live, hpool, hinitial]

namespace Housed

/-- Nothing but queue membership of live threads changes. -/
theorem congr (h : s.Housed) (hpool : s'.pool = s.pool) (hidle : s'.idle = s.idle)
    (hinitial : s'.initial = s.initial)
    (howned : ∀ b, (s'.threads.get b).owner ≠ .detached → s.Live b) : s'.Housed where
  placed := hpool ▸ h.placed
  balanced := hpool ▸ h.balanced
  boot := by
    rw [hpool, hinitial]
    exact h.boot
  idle := by
    rw [hpool, hidle]
    exact h.idle
  owned b hb := (live_congr hpool hinitial).mpr (howned b hb)

/-- One live thread changes. -/
theorem modify (h : s.Housed) (hpool : s'.pool = s.pool) (hidle : s'.idle = s.idle)
    (hinitial : s'.initial = s.initial) (hlive : s.Live b)
    (hsame : ∀ c, c ≠ b → s'.threads.get c = s.threads.get c) : s'.Housed := by
  apply h.congr hpool hidle hinitial
  intro c hc
  by_cases hcb : c = b
  · rw [hcb]
    exact hlive
  · rw [hsame c hcb] at hc
    exact h.owned c hc

theorem notMem_initial (h : s.Housed) (hinitial : s.initial = some b) :
    b ∉ s.pool.blocksInUse := by
  intro hmem
  obtain ⟨k, hk, rfl⟩ := Pool.mem_blocksInUse.mp hmem
  exact h.boot k (Pool.lt_capacity_of_busy hk) hinitial

theorem idle_ne_initial (h : s.Housed) (hidle : s.idle = some b) : s.initial ≠ some b :=
  fun hinitial => h.notMem_initial hinitial (h.idle b hidle)

/-- The block of a thread on the destruction queue goes back to the pool. -/
theorem reap (h : s.Housed) {k : Nat} (hk : s.pool.busy[k]? = some true)
    (hb : s.pool.slotAddress k = b) (hidle : s.idle ≠ some b) :
    (s.reap b (s.pool.vacated k)).Housed where
  placed := h.placed.vacated k
  balanced := h.balanced.vacated hk
  boot j hj := h.boot j (by simpa [Scheduler.reap, Pool.vacated, Pool.capacity] using hj)
  idle i hi := (Pool.mem_blocksInUse_vacated _ _ _).mpr
    ⟨h.idle i hi, fun heq => hidle (by rw [← hb, ← heq]; exact hi)⟩
  owned c hc := by
    change ((s.exhume b).threads.get c).owner ≠ .detached at hc
    rw [get_exhume] at hc
    by_cases hbc : b = c
    · rw [if_pos hbc] at hc
      exact absurd rfl hc
    · rw [if_neg hbc] at hc
      rcases h.owned c hc with hmain | hmem
      · exact Or.inl hmain
      · exact Or.inr ((Pool.mem_blocksInUse_vacated _ _ _).mpr
          ⟨hmem, fun heq => hbc (by rw [heq, hb])⟩)

theorem not_live_of_free (h : s.Housed) {k : Nat} (hk : s.pool.busy[k]? = some false) :
    ¬ s.Live (s.pool.slotAddress k) := by
  rintro (hmain | hmem)
  · exact h.boot k (Pool.lt_capacity_of_busy hk) hmain
  · exact Pool.notMem_blocksInUse_of_free hk hmem

theorem detached_of_not_live (h : s.Housed) (hb : ¬ s.Live b) :
    (s.threads.get b).owner = .detached := by
  by_contra howner
  exact hb (h.owned b howner)

/-- The contents of a free block are on no queue, so handing the block out cuts none. -/
theorem allot_eq (h : s.Housed) (hlinked : s.Linked) (hb : ¬ s.Live b) (pool : Pool)
    (threads : Memory Thread) : s.allot b pool threads = { s with pool, threads } := by
  have howner := h.detached_of_not_live hb
  exact severLinks_of_notMem (hlinked.ready.notMem_of_detached (by decide) howner)
    (hlinked.sleep.notMem_of_detached (by decide) howner)
    (hlinked.destruction.notMem_of_detached (by decide) howner)

end Housed

/-- A block that goes back to the pool is no thread's any more. -/
theorem live_reap {k : Nat} (hslot : s.pool.slotAddress k = b) (hmain : s.initial ≠ some b)
    (c : Nat) : (s.reap b (s.pool.vacated k)).Live c ↔ s.Live c ∧ c ≠ b := by
  change (s.initial = some c ∨ c ∈ (s.pool.vacated k).blocksInUse) ↔
    (s.initial = some c ∨ c ∈ s.pool.blocksInUse) ∧ c ≠ b
  rw [Pool.mem_blocksInUse_vacated, hslot]
  constructor
  · rintro (hc | ⟨hc, hcb⟩)
    · exact ⟨Or.inl hc, fun heq => hmain (heq ▸ hc)⟩
    · exact ⟨Or.inr hc, hcb⟩
  · rintro ⟨hc | hc, hcb⟩
    · exact Or.inl hc
    · exact Or.inr ⟨hc, hcb⟩

namespace Settled

/-- The thread in `r` changes. -/
theorem revise (h : s.Settled P r) (hlinked : s'.Linked) (hpool : s'.pool = s.pool)
    (hidle : s'.idle = s.idle) (hinitial : s'.initial = s.initial)
    (hdestruction : s'.destruction = s.destruction)
    (hsame : ∀ b, b ≠ r → s'.threads.get b = s.threads.get b)
    (hintact : (s'.threads.get r).IsValid) (hhere : Q (s'.threads.get r)) : s'.Settled Q r where
  linked := hlinked
  housed := h.housed.modify hpool hidle hinitial h.live hsame
  dead := hdestruction ▸ h.dead
  live := (live_congr hpool hinitial).mpr h.live
  intact := hintact
  here := hhere
  others b hb hne :=
    (h.others b ((live_congr hpool hinitial).mp hb) hne).congr (hsame b hne) hidle hinitial

/-- A parked thread changes and is parked again. -/
theorem revise_other (h : s.Settled P r) (hb : s.Live b) (hne : b ≠ r) (hlinked : s'.Linked)
    (hpool : s'.pool = s.pool) (hidle : s'.idle = s.idle) (hinitial : s'.initial = s.initial)
    (hdestruction : s'.destruction = s.destruction)
    (hsame : ∀ c, c ≠ b → s'.threads.get c = s.threads.get c) (hparked : s'.Parked b) :
    s'.Settled P r where
  linked := hlinked
  housed := h.housed.modify hpool hidle hinitial hb hsame
  dead := hdestruction ▸ h.dead
  live := (live_congr hpool hinitial).mpr h.live
  intact := by
    rw [hsame r (Ne.symm hne)]
    exact h.intact
  here := by
    rw [hsame r (Ne.symm hne)]
    exact h.here
  others c hc hcr := by
    by_cases hcb : c = b
    · rw [hcb]
      exact hparked
    · exact (h.others c ((live_congr hpool hinitial).mp hc) hcr).congr (hsame c hcb) hidle hinitial

theorem alter (h : s.Settled P r) {f : Thread → Thread}
    (howner : (f (s.threads.get r)).owner = (s.threads.get r).owner)
    (hlinked : (f (s.threads.get r)).linked = (s.threads.get r).linked)
    (hwake : (s.threads.get r).owner = .sleep →
      (f (s.threads.get r)).wake = (s.threads.get r).wake)
    (hmagic : (f (s.threads.get r)).magic = (s.threads.get r).magic)
    (hhere : Q (f (s.threads.get r))) : (s.alter r f).Settled Q r := by
  have hget : (s.alter r f).threads.get r = f (s.threads.get r) := by
    rw [get_alter, if_pos rfl]
  refine h.revise (h.linked.alter howner hlinked hwake) rfl rfl rfl rfl ?_ ?_ ?_
  · intro b hne
    rw [get_alter, if_neg (Ne.symm hne)]
  · rw [hget, Thread.IsValid, hmagic]
    exact h.intact
  · rw [hget]
    exact hhere

theorem mark (h : s.Settled P r) {status : Status}
    (hhere : Q { s.threads.get r with status }) : (s.mark r status).Settled Q r :=
  h.alter rfl rfl (fun _ => rfl) rfl hhere

theorem enqueue (h : s.Settled P r) (hfree : (s.threads.get r).owner = .detached)
    (hhere : Q ((s.threads.get r).claimedBy .ready)) : (s.enqueue r).Settled Q r := by
  have hget : (s.enqueue r).threads.get r = (s.threads.get r).claimedBy .ready := by
    rw [get_enqueue, if_pos rfl, h.linked.ready.kind_eq]
  refine h.revise (h.linked.enqueue hfree) rfl rfl rfl rfl ?_ ?_ ?_
  · intro b hne
    rw [get_enqueue, if_neg (Ne.symm hne)]
  · rw [hget]
    exact h.intact
  · rw [hget]
    exact hhere

theorem shelve (h : s.Settled P r) (hfree : (s.threads.get r).owner = .detached) {wake : Nat}
    (hwake : (s.threads.get r).wakeTick = some wake)
    (hhere : Q ((s.threads.get r).claimedBy .sleep)) : (s.shelve r wake).Settled Q r := by
  have hget : (s.shelve r wake).threads.get r = (s.threads.get r).claimedBy .sleep := by
    rw [get_shelve, if_pos rfl, h.linked.sleep.kind_eq]
  refine h.revise (h.linked.shelve hfree hwake) rfl rfl rfl rfl ?_ ?_ ?_
  · intro b hne
    rw [get_shelve, if_neg (Ne.symm hne)]
  · rw [hget]
    exact h.intact
  · rw [hget]
    exact hhere

/-- A thread that waits to be unblocked is made ready. -/
theorem makeReady (h : s.Settled P r) (hb : s.Live b) (hne : b ≠ r)
    (hfree : (s.threads.get b).owner = .detached) (hblocked : (s.threads.get b).status = .blocked) :
    (s.makeReady b).Settled P r := by
  have hparked := h.others b hb hne
  have htick : (s.threads.get b).wakeTick = none := by
    rcases hparked.waits with _ | _ | _ | ⟨-, -, htick⟩ | _ | _ <;> simp_all
  have hget : (s.makeReady b).threads.get b =
      { (s.threads.get b).claimedBy .ready with status := .ready } := by
    rw [get_makeReady, if_pos rfl, h.linked.ready.kind_eq]
  refine h.revise_other hb hne ((h.linked.enqueue hfree).mark b .ready) rfl rfl rfl rfl ?_ ?_
  · intro c hcb
    rw [get_makeReady, if_neg (Ne.symm hcb)]
  · refine ⟨?_, ?_, ?_⟩
    · rw [hget]
      exact hparked.intact
    · rw [hget]
      exact hparked.stack
    · rw [hget]
      exact .ready rfl rfl htick

/-- The first sleeper is woken. -/
theorem rouse (h : s.Settled P r) {rest : List Nat}
    (hmembers : s.sleepers.queue.members = b :: rest) (hne : b ≠ r) : (s.rouse b).Settled P r := by
  have howner : (s.threads.get b).owner = .sleep :=
    (h.linked.sleep.mem_iff b).mp (by rw [hmembers]; exact List.mem_cons_self)
  have hb : s.Live b := h.housed.owned b (by rw [howner]; decide)
  have hparked := h.others b hb hne
  have hget : (s.rouse b).threads.get b =
      { s.threads.get b with
        owner := .ready, linked := true, wakeTick := none, status := .ready } := by
    rw [get_rouse, if_pos rfl, h.linked.ready.kind_eq]
  refine h.revise_other hb hne (h.linked.rouse hmembers) rfl rfl rfl rfl ?_ ?_
  · intro c hcb
    rw [get_rouse, if_neg (Ne.symm hcb)]
  · refine ⟨?_, ?_, ?_⟩
    · rw [hget]
      exact hparked.intact
    · rw [hget]
      exact hparked.stack
    · rw [hget]
      exact .ready rfl rfl rfl

/-- The one thread on the destruction queue has a block of the pool, is not the idle thread, and
is taken back without harm. -/
theorem reap (h : s.Settled P r) (hmembers : s.destruction.members = [b]) (hne : b ≠ r) :
    s.idle ≠ some b ∧ ∃ k, s.pool.busy[k]? = some true ∧ s.pool.slotAddress k = b ∧
      (s.reap b (s.pool.vacated k)).Settled P r := by
  have howner : (s.threads.get b).owner = .destruction :=
    (h.linked.destruction.mem_iff b).mp (by rw [hmembers]; exact List.mem_cons_self)
  have hb : s.Live b := h.housed.owned b (by rw [howner]; decide)
  obtain ⟨-, -, hidle, hmain⟩ := (h.others b hb hne).waits.dead_of_owner howner
  obtain ⟨k, hk, hslot⟩ := Pool.mem_blocksInUse.mp (hb.resolve_left hmain)
  have hlive := live_reap hslot hmain
  have hget : ∀ c, c ≠ b →
      (s.reap b (s.pool.vacated k)).threads.get c = s.threads.get c := by
    intro c hcb
    exact (get_exhume s b c).trans (if_neg (Ne.symm hcb))
  refine ⟨hidle, k, hk, hslot, ?_⟩
  exact {
    linked := (h.linked.exhume hmembers).congr rfl rfl rfl fun _ => rfl
    housed := h.housed.reap hk hslot hidle
    dead := by simp [Scheduler.reap, Scheduler.exhume, Queue.behead, hmembers]
    live := (hlive r).mpr ⟨h.live, Ne.symm hne⟩
    intact := by
      rw [hget r (Ne.symm hne)]
      exact h.intact
    here := by
      rw [hget r (Ne.symm hne)]
      exact h.here
    others := by
      intro c hc hcr
      obtain ⟨hc, hcb⟩ := (hlive c).mp hc
      exact (h.others c hc hcr).congr (hget c hcb) rfl rfl }

theorem not_live_of_free (h : s.Settled P r) {k : Nat} (hk : s.pool.busy[k]? = some false) :
    ¬ s.Live (s.pool.slotAddress k) :=
  h.housed.not_live_of_free hk

end Settled

/-- The state after a thread with the control block `c` and the registers `context` was created in
slot `k`. -/
def spawned (s : Scheduler) (k : Nat) (c : Thread) (context : Context) : Scheduler :=
  (s.allot (s.pool.slotAddress k) (s.pool.occupied k)
    (s.threads.set (s.pool.slotAddress k) Zeroed.zeroed)).enlist (s.pool.slotAddress k) c context

theorem get_spawned (s : Scheduler) (k : Nat) (t : Thread) (context : Context) (c : Nat) :
    (s.spawned k t context).threads.get c =
      if s.pool.slotAddress k = c then { t with tid := s.nextTid, context }
      else s.threads.get c := by
  rw [spawned, get_enlist]
  split
  · rfl
  · next hne => exact (Memory.get_set _ _ _ _).trans (if_neg hne)

/-- The creation of a thread touches the pool, the identifiers and one control block. -/
theorem Housed.spawned_frame (h : s.Housed) (hlinked : s.Linked) {k : Nat}
    (hk : s.pool.busy[k]? = some false) (t : Thread) (context : Context) :
    s.spawned k t context =
      { s with
        pool := s.pool.occupied k
        nextTid := s.nextTid + 1
        threads := (s.spawned k t context).threads } := by
  rw [spawned, h.allot_eq hlinked (h.not_live_of_free hk)]
  rfl

theorem Housed.live_spawned (h : s.Housed) (hlinked : s.Linked) {k : Nat}
    (hk : s.pool.busy[k]? = some false) (t : Thread) (context : Context) (c : Nat) :
    (s.spawned k t context).Live c ↔ c = s.pool.slotAddress k ∨ s.Live c := by
  rw [spawned, h.allot_eq hlinked (h.not_live_of_free hk)]
  change (s.initial = some c ∨ c ∈ (s.pool.occupied k).blocksInUse) ↔
    _ ∨ s.initial = some c ∨ c ∈ s.pool.blocksInUse
  rw [Pool.mem_blocksInUse_occupied (Pool.lt_capacity_of_busy hk)]
  exact or_left_comm

/-- A new thread is on no queue. -/
theorem Housed.linked_spawned (h : s.Housed) (hlinked : s.Linked) {k : Nat}
    (hk : s.pool.busy[k]? = some false) {t : Thread} (hfree : t.Free) (context : Context) :
    (s.spawned k t context).Linked := by
  have hold := h.detached_of_not_live (h.not_live_of_free hk)
  have hframe := h.spawned_frame hlinked hk t context
  have haltered : (s.alter (s.pool.slotAddress k)
      fun _ => { t with tid := s.nextTid, context }).Linked := by
    apply hlinked.alter
    · rw [hold]
      exact hfree.1
    · rw [((hlinked.tidy _).free hold).2]
      exact hfree.2
    · intro hsleep
      rw [hold] at hsleep
      cases hsleep
  apply haltered.congr
  · rw [hframe]
    rfl
  · rw [hframe]
    rfl
  · rw [hframe]
    rfl
  · intro c
    rw [get_spawned, get_alter]

/-- A new thread has a block of its own, which was counted. -/
theorem Housed.spawned (h : s.Housed) (hlinked : s.Linked) {k : Nat}
    (hk : s.pool.busy[k]? = some false) (hroom : s.pool.allocs + 1 < Word.limit64) (t : Thread)
    (context : Context) : (s.spawned k t context).Housed where
  placed := by
    rw [h.spawned_frame hlinked hk]
    exact h.placed.occupied k
  balanced := by
    rw [h.spawned_frame hlinked hk]
    exact h.balanced.occupied hk hroom
  boot := by
    rw [h.spawned_frame hlinked hk]
    intro j hj
    exact h.boot j (by simpa [Pool.occupied, Pool.capacity] using hj)
  idle := by
    rw [h.spawned_frame hlinked hk]
    intro i hi
    exact (Pool.mem_blocksInUse_occupied (Pool.lt_capacity_of_busy hk)).mpr
      (Or.inr (h.idle i hi))
  owned := by
    intro c hc
    rw [get_spawned] at hc
    rw [h.live_spawned hlinked hk]
    split at hc
    · next heq => exact Or.inl heq.symm
    · exact Or.inr (h.owned c hc)

theorem Settled.spawned_frame (h : s.Settled P r) {k : Nat} (hk : s.pool.busy[k]? = some false)
    (t : Thread) (context : Context) :
    s.spawned k t context =
      { s with
        pool := s.pool.occupied k
        nextTid := s.nextTid + 1
        threads := (s.spawned k t context).threads } :=
  h.housed.spawned_frame h.linked hk t context

theorem Settled.live_spawned (h : s.Settled P r) {k : Nat} (hk : s.pool.busy[k]? = some false)
    (t : Thread) (context : Context) (c : Nat) :
    (s.spawned k t context).Live c ↔ c = s.pool.slotAddress k ∨ s.Live c :=
  h.housed.live_spawned h.linked hk t context c

/-- A new thread is blocked, and nothing else happens. -/
theorem Settled.spawn (h : s.Settled P r) {k : Nat} (hk : s.pool.busy[k]? = some false)
    (hroom : s.pool.allocs + 1 < Word.limit64) {t : Thread} {context : Context} (hfree : t.Free)
    (hblocked : t.status = .blocked) (htick : t.wakeTick = none) (hintact : t.IsValid)
    (hstack : Block.containing context.sp = .ok (s.pool.slotAddress k)) :
    (s.spawned k t context).Settled P r := by
  have hget := s.get_spawned k t context
  have hlive := h.live_spawned hk t context
  have hframe := h.spawned_frame hk t context
  have hne : ∀ c, s.Live c → s.pool.slotAddress k ≠ c :=
    fun c hc heq => h.not_live_of_free hk (heq ▸ hc)
  exact {
    linked := h.housed.linked_spawned h.linked hk hfree context
    housed := h.housed.spawned h.linked hk hroom t context
    dead := by
      rw [hframe]
      exact h.dead
    live := (hlive r).mpr (Or.inr h.live)
    intact := by
      rw [hget, if_neg (hne r h.live)]
      exact h.intact
    here := by
      rw [hget, if_neg (hne r h.live)]
      exact h.here
    others := by
      intro c hc hcr
      rcases (hlive c).mp hc with rfl | hc
      · refine ⟨?_, ?_, ?_⟩
        · rw [hget, if_pos rfl]
          exact hintact
        · rw [hget, if_pos rfl]
          exact hstack
        · rw [hget, if_pos rfl]
          exact .blocked hfree.1 hblocked htick
      · refine (h.others c hc hcr).congr ?_ ?_ ?_
        · rw [hget, if_neg (hne c hc)]
        · rw [hframe]
        · rw [hframe] }

end RoundRobin.Scheduler
