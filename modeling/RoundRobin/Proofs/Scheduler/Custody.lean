import RoundRobin.Proofs.Scheduler.Books
import RoundRobin.Proofs.Scheduler.Registers

/-!
# Custody of blocks

Every thread that can still be reached has a block of its own. This is less than `Settled`: it
leaves open what the threads that do not run are doing, so it outlasts an exit of the idle thread.
The steps of the scheduling state keep it as long as nobody takes the idle thread back.
-/

namespace RoundRobin.Scheduler

variable {s s' s₁ : Scheduler} {b r n sp sp' now : Nat} {a : Action}

/-- Blocks are accounted for, live threads alone are on queues, and all but the thread in `r` have
a stack pointer saved that lies in their own block. -/
structure Custody (s : Scheduler) (r : Nat) : Prop where
  linked : s.Linked
  housed : s.Housed
  reclaimable : s.Reclaimable
  awake : ∀ b, s.idle = some b → (s.threads.get b).owner ≠ .sleep
  live : s.Live r
  stack : ∀ b, s.Live b → b ≠ r → Block.containing (s.threads.get b).context.sp = .ok b

/-- The thread in `r` runs. It is on no queue, unless it is the idle thread and exited before. -/
structure Runs (s : Scheduler) (r : Nat) : Prop where
  status : (s.threads.get r).status = .running
  owner : (s.threads.get r).owner = .detached ∨
    (s.idle = some r ∧ (s.threads.get r).owner = .destruction)

/-- The idle thread does not wait to be taken back. -/
def IdleSpared (s : Scheduler) : Prop :=
  ∀ b, s.idle = some b → b ∉ s.destruction.members

instance (s : Scheduler) : Decidable s.IdleSpared :=
  inferInstanceAs (Decidable (∀ b ∈ s.idle, b ∉ s.destruction.members))

/-- The thread in `r` can be put to the destruction queue if a dispatch has to. -/
def Buriable (s : Scheduler) (r : Nat) : Prop :=
  (s.threads.get r).status = .dying → s.initial ≠ some r →
    (s.threads.get r).owner = .detached ∧ s.destruction.members = []

theorem Settled.custody (h : s.Settled Active r) : s.Custody r where
  linked := h.linked
  housed := h.housed
  reclaimable := h.reclaimable (by rw [h.here.owner]; decide)
  awake b hidle hsleep := (h.asleep_of_owner hsleep).2.2 hidle
  live := h.live
  stack b hb hne := (h.others b hb hne).stack

theorem Settled.runs (h : s.Settled Active r) : s.Runs r :=
  ⟨h.here.status, Or.inl h.here.owner⟩

namespace Runs

theorem congr (h : s.Runs r) (hidle : s'.idle = s.idle)
    (hstatus : (s'.threads.get r).status = (s.threads.get r).status)
    (howner : (s'.threads.get r).owner = (s.threads.get r).owner) : s'.Runs r where
  status := hstatus.trans h.status
  owner := by
    rw [howner, hidle]
    exact h.owner

/-- A running thread that nobody is about to take back is on no queue. -/
theorem detached (h : s.Runs r) (hlinked : s.Linked) (hspared : s.IdleSpared) :
    (s.threads.get r).owner = .detached := by
  rcases h.owner with howner | ⟨hidle, howner⟩
  · exact howner
  · exact absurd ((hlinked.destruction.mem_iff r).mpr howner) (hspared r hidle)

theorem detached_of_other (h : s.Runs r) (hother : s.idle ≠ some r) :
    (s.threads.get r).owner = .detached :=
  h.owner.resolve_right fun hdead => hother hdead.1

end Runs

namespace Custody

/-- Who takes a link is live, and is not the idle thread if it sleeps. Nothing else matters. -/
theorem congr (h : s.Custody r) (hlinked : s'.Linked) (hpool : s'.pool = s.pool)
    (hidle : s'.idle = s.idle) (hinitial : s'.initial = s.initial)
    (hdead : s'.destruction = s.destruction) (hsame : SameRegisters s s')
    (howner : ∀ b, (s'.threads.get b).owner = .detached ∨
      (s'.threads.get b).owner = (s.threads.get b).owner ∨
        (s.Live b ∧ ((s'.threads.get b).owner = .sleep → s.idle ≠ some b))) : s'.Custody r where
  linked := hlinked
  housed := by
    apply h.housed.congr hpool hidle hinitial
    intro b hb
    rcases howner b with hfree | hold | ⟨hlive, -⟩
    · exact absurd hfree hb
    · exact h.housed.owned b (hold ▸ hb)
    · exact hlive
  reclaimable := by
    obtain ⟨hplaced, hfew, hpooled⟩ := h.reclaimable
    exact ⟨hpool ▸ hplaced, hdead ▸ hfew, by rwa [hpool, hdead]⟩
  awake b hb hsleep := by
    rw [hidle] at hb
    rcases howner b with hfree | hold | ⟨-, hnot⟩
    · rw [hfree] at hsleep
      cases hsleep
    · exact h.awake b hb (hold ▸ hsleep)
    · exact hnot hsleep hb
  live := (live_congr hpool hinitial).mpr h.live
  stack b hb hne := by
    rw [hsame.context b]
    exact h.stack b ((live_congr hpool hinitial).mp hb) hne

theorem alter (h : s.Custody r) {f : Thread → Thread} (b : Nat)
    (howner : ∀ t, (f t).owner = t.owner) (hlinked : ∀ t, (f t).linked = t.linked)
    (hwake : ∀ t, (f t).wake = t.wake) (hcontext : ∀ t, (f t).context = t.context) :
    (s.alter b f).Custody r := by
  apply h.congr (h.linked.alter (howner _) (hlinked _) fun _ => hwake _) rfl rfl rfl rfl
    (.alter s b hcontext)
  intro c
  rw [get_alter]
  split
  · next heq => exact Or.inr (Or.inl ((howner _).trans (by rw [heq])))
  · exact Or.inr (Or.inl rfl)

theorem mark (h : s.Custody r) (b : Nat) (status : Status) : (s.mark b status).Custody r :=
  h.alter b (fun _ => rfl) (fun _ => rfl) (fun _ => rfl) fun _ => rfl

theorem enqueue (h : s.Custody r) (hlive : s.Live b)
    (hfree : (s.threads.get b).owner = .detached) : (s.enqueue b).Custody r := by
  apply h.congr (h.linked.enqueue hfree) rfl rfl rfl rfl (.enqueue s b)
  intro c
  rw [get_enqueue]
  split
  · next heq =>
      refine Or.inr (Or.inr ⟨heq ▸ hlive, fun hsleep => ?_⟩)
      change s.ready.kind = .sleep at hsleep
      rw [h.linked.ready.kind_eq] at hsleep
      cases hsleep
  · exact Or.inr (Or.inl rfl)

theorem makeReady (h : s.Custody r) (hlive : s.Live b)
    (hfree : (s.threads.get b).owner = .detached) : (s.makeReady b).Custody r :=
  (h.enqueue hlive hfree).mark b .ready

theorem putToSleep (h : s.Custody r) (hother : s.idle ≠ some r)
    (hfree : (s.threads.get r).owner = .detached) (wake : Nat) :
    (s.putToSleep r wake).Custody r := by
  apply h.congr (h.linked.putToSleep hfree wake) rfl rfl rfl rfl (.putToSleep s r wake)
  intro c
  rw [get_putToSleep]
  split
  · next heq => exact Or.inr (Or.inr ⟨heq ▸ h.live, fun _ => heq ▸ hother⟩)
  · exact Or.inr (Or.inl rfl)

theorem rouse (h : s.Custody r) {rest : List Nat}
    (hmembers : s.sleepers.queue.members = b :: rest) : (s.rouse b).Custody r := by
  have howner : (s.threads.get b).owner = .sleep := by
    apply (h.linked.sleep.mem_iff b).mp
    rw [hmembers]
    exact List.mem_cons_self
  apply h.congr (h.linked.rouse hmembers) rfl rfl rfl rfl (.rouse s b)
  intro c
  rw [get_rouse, h.linked.ready.kind_eq]
  split
  · next heq =>
      refine Or.inr (Or.inr ⟨heq ▸ h.housed.owned b (by rw [howner]; decide), fun hsleep => ?_⟩)
      cases hsleep
  · exact Or.inr (Or.inl rfl)

theorem counted (h : s.Custody r) (stats : TickStats) (sliceTicks : Nat) :
    ((s.withStats stats).withSlice sliceTicks).Custody r :=
  h.congr (h.linked.congr rfl rfl rfl fun _ => rfl) rfl rfl rfl rfl ⟨fun _ => rfl, rfl⟩
    fun _ => Or.inr (Or.inl rfl)

theorem advance (h : s.Custody r) : s.advance.Custody r :=
  h.congr (h.linked.congr rfl rfl rfl fun _ => rfl) rfl rfl rfl rfl ⟨fun _ => rfl, rfl⟩
    fun _ => Or.inr (Or.inl rfl)

theorem owner_dequeue (s : Scheduler) (c : Nat) :
    (s.dequeue.threads.get c).owner = .detached ∨
      (s.dequeue.threads.get c).owner = (s.threads.get c).owner := by
  rcases s.get_dequeue c with hsame | hsame <;> rw [hsame]
  · exact Or.inr rfl
  · exact Or.inl rfl

theorem owner_elect (s : Scheduler) (n c : Nat) :
    ((s.elect n).threads.get c).owner = (s.dequeue.threads.get c).owner := by
  change ((s.dequeue.mark n .running).threads.get c).owner = _
  rw [get_mark]
  split
  · next heq => rw [heq]
  · rfl

theorem elect (h : s.Custody r) (n : Nat) : (s.elect n).Custody r := by
  apply h.congr (h.linked.elect n) (pool_elect s n) (idle_elect s n) (initial_elect s n)
    (destruction_elect s n) (.elect s n)
  intro c
  rw [owner_elect]
  rcases owner_dequeue s c with hfree | hold
  · exact Or.inl hfree
  · exact Or.inr (Or.inl hold)

/-- The thread in `r` is put to the destruction queue. -/
theorem bury (h : s.Custody r) (hmain : s.initial ≠ some r)
    (hfree : (s.threads.get r).owner = .detached) (hempty : s.destruction.members = []) :
    (s.bury r).Custody r where
  linked := h.linked.bury hfree
  housed := by
    have hget : ∀ c, c ≠ r → (s.bury r).threads.get c = s.threads.get c := by
      intro c hne
      rw [get_bury, if_neg (Ne.symm hne)]
    exact h.housed.modify rfl rfl rfl h.live hget
  reclaimable := by
    have hmembers : (s.bury r).destruction.members = [r] := by
      change s.destruction.members ++ [r] = [r]
      rw [hempty, List.nil_append]
    refine ⟨h.reclaimable.placed, ?_, ?_⟩
    · rw [hmembers]
      exact Nat.le_refl 1
    · intro b hb
      rw [hmembers, List.mem_singleton] at hb
      rw [hb]
      exact h.live.resolve_left hmain
  awake b hb := by
    rw [get_bury, h.linked.destruction.kind_eq]
    split
    · simp [Thread.claimedBy]
    · exact h.awake b hb
  live := h.live
  stack b hb hne := by
    rw [(SameRegisters.bury s r).context b]
    exact h.stack b hb hne

theorem park (h : s.Custody r) (hburiable : s.Buriable r) : (s.park r).Custody r := by
  unfold Scheduler.park
  split
  · next hpark =>
      obtain ⟨hfree, hempty⟩ := hburiable hpark.1 hpark.2
      exact h.bury hpark.2 hfree hempty
  · exact h

/-- The stack pointer of the thread in `r` is saved, and that in `n` goes on. -/
theorem saveStack (h : s.Custody r) (hlive : s.Live n) (hsp : Block.containing sp = .ok r) :
    (s.saveStack r sp).Custody n where
  linked := h.linked.alter rfl rfl fun _ => rfl
  housed := by
    have hget : ∀ c, c ≠ r → (s.saveStack r sp).threads.get c = s.threads.get c := by
      intro c hne
      rw [get_saveStack, if_neg (Ne.symm hne)]
    exact h.housed.modify rfl rfl rfl h.live hget
  reclaimable := ⟨h.reclaimable.placed, h.reclaimable.few, h.reclaimable.pooled⟩
  awake b hb := by
    rw [get_saveStack]
    split
    · next heq => exact heq ▸ h.awake b hb
    · exact h.awake b hb
  live := hlive
  stack b hb hne := by
    rw [get_saveStack]
    split
    · next heq => exact heq ▸ hsp
    · next hbr => exact h.stack b hb (Ne.symm hbr)

/-- The exited thread that is taken back is neither the idle thread nor the running one. -/
theorem reclaimed (h : s.Custody r) (hback : Reclaimed s s') (hspared : s.IdleSpared)
    (hhere : r ∉ s.destruction.members) : s'.Custody r := by
  cases hback with
  | none => exact h
  | @one b k honly hbusy hslot =>
      have hmem : b ∈ s.destruction.members := by
        rw [honly]
        exact List.mem_singleton_self b
      have hmain : s.initial ≠ some b :=
        fun hinitial => h.housed.notMem_initial hinitial (h.reclaimable.pooled b hmem)
      have hlive := live_reap hslot hmain
      have hempty : (s.reap b (s.pool.vacated k)).destruction.members = [] := by
        simp [Scheduler.reap, Scheduler.exhume, Queue.behead, honly]
      have hcontext := (SameRegisters.exhume s b).context
      exact {
        linked := (h.linked.exhume honly).congr rfl rfl rfl fun _ => rfl
        housed := h.housed.reap hbusy hslot fun hidle => hspared b hidle hmem
        reclaimable := by
          refine ⟨h.reclaimable.placed.vacated k, ?_, ?_⟩
          · rw [hempty]
            exact Nat.zero_le 1
          · intro c hc
            rw [hempty] at hc
            cases hc
        awake := by
          intro c hc
          change ((s.exhume b).threads.get c).owner ≠ .sleep
          rw [get_exhume]
          split
          · simp [Thread.released]
          · exact h.awake c hc
        live := (hlive r).mpr ⟨h.live, fun heq => hhere (heq ▸ hmem)⟩
        stack := by
          intro c hc hne
          change Block.containing ((s.exhume b).threads.get c).context.sp = _
          rw [hcontext c]
          exact h.stack c ((hlive c).mp hc).1 hne }

/-- A thread is created in a free slot. -/
theorem spawn (h : s.Custody r) {k : Nat} (hk : s.pool.busy[k]? = some false)
    (hroom : s.pool.allocs + 1 < Word.limit64) {t : Thread} {context : Context} (hfree : t.Free)
    (hstack : Block.containing context.sp = .ok (s.pool.slotAddress k)) :
    (s.spawned k t context).Custody r := by
  have hframe := h.housed.spawned_frame h.linked hk t context
  have hlive := h.housed.live_spawned h.linked hk t context
  have hne : ∀ c, s.Live c → s.pool.slotAddress k ≠ c :=
    fun c hc heq => h.housed.not_live_of_free hk (heq ▸ hc)
  have hold : ∀ c, s.Live c → (s.spawned k t context).threads.get c = s.threads.get c := by
    intro c hc
    rw [get_spawned, if_neg (hne c hc)]
  exact {
    linked := h.housed.linked_spawned h.linked hk hfree context
    housed := h.housed.spawned h.linked hk hroom t context
    reclaimable := by
      rw [hframe]
      refine ⟨h.reclaimable.placed.occupied k, h.reclaimable.few, fun b hb => ?_⟩
      exact (Pool.mem_blocksInUse_occupied (Pool.lt_capacity_of_busy hk)).mpr
        (Or.inr (h.reclaimable.pooled b hb))
    awake := by
      rw [hframe]
      intro b hb
      change ((s.spawned k t context).threads.get b).owner ≠ .sleep
      rw [hold b (Or.inr (h.housed.idle b hb))]
      exact h.awake b hb
    live := (hlive r).mpr (Or.inr h.live)
    stack := by
      intro c hc hcr
      rcases (hlive c).mp hc with rfl | hc
      · rw [get_spawned, if_pos rfl]
        exact hstack
      · rw [hold c hc]
        exact h.stack c hc hcr }

theorem live_of_next (h : s.Custody r) (hnext : s.Next n) : s.Live n := by
  rcases hnext.cases h.linked with howner | ⟨-, hidle⟩
  · exact h.housed.owned n (by rw [howner]; decide)
  · exact Or.inr (h.housed.idle n hidle)

/-- The thread that is dispatched runs. Only the idle thread can be found on the destruction
queue then. -/
theorem runs_elect (h : s.Custody r) (hnext : s.Next n) : (s.elect n).Runs n := by
  constructor
  · change ((s.dequeue.mark n .running).threads.get n).status = _
    rw [get_mark, if_pos rfl]
  · rw [owner_elect, idle_elect]
    cases hmembers : s.ready.members with
    | cons first rest =>
        obtain rfl : first = n := by simpa [Next, hmembers] using hnext
        rw [get_dequeue_of_cons hmembers, if_pos rfl]
        exact Or.inl rfl
    | nil =>
        have hidle : s.idle = some n := by simpa [Next, hmembers] using hnext
        have hready : (s.threads.get n).owner ≠ .ready := by
          intro howner
          have hmem := (h.linked.ready.mem_iff n).mpr howner
          rw [hmembers] at hmem
          cases hmem
        rw [dequeue_of_nil hmembers]
        cases howner : (s.threads.get n).owner with
        | detached => exact Or.inl rfl
        | ready => exact absurd howner hready
        | sleep => exact absurd howner (h.awake n hidle)
        | destruction => exact Or.inr ⟨hidle, rfl⟩

end Custody

/-- A dispatch leads to a state in which the thread that was chosen runs on its own stack. -/
theorem Dispatched.custody (hd : Dispatched s sp r s' sp' n) (h : s.Custody r)
    (hburiable : s.Buriable r) (hsp : Block.containing sp = .ok r) :
    s'.Custody n ∧ s'.Runs n ∧ Block.containing sp' = .ok n := by
  cases hd with
  | stay hnext => exact ⟨h.elect r, h.runs_elect hnext, hsp⟩
  | switch hnext hne =>
      have helect := h.elect n
      have hparked : ((s.elect n).park r).Custody r := by
        apply helect.park
        intro hdying hmain
        rw [status_elect_of_ne (Ne.symm hne)] at hdying
        rw [initial_elect] at hmain
        obtain ⟨hfree, hempty⟩ := hburiable hdying hmain
        rw [Custody.owner_elect, destruction_elect]
        exact ⟨(Custody.owner_dequeue s r).elim id (·.trans hfree), hempty⟩
      have hlive : ((s.elect n).park r).Live n :=
        (live_congr ((pool_park _ r).trans (pool_elect s n))
          ((initial_park _ r).trans (initial_elect s n))).mpr (h.live_of_next hnext)
      have hget : ((s.elect n).park r).threads.get n = (s.elect n).threads.get n :=
        get_park_of_ne (Ne.symm hne)
      have hsaved : (((s.elect n).park r).saveStack r sp).threads.get n =
          (s.elect n).threads.get n := by
        rw [get_saveStack, if_neg hne, hget]
      refine ⟨hparked.saveStack hlive hsp, ?_, hparked.stack n hlive (Ne.symm hne)⟩
      apply (h.runs_elect hnext).congr
      · exact idle_park _ r
      · rw [hsaved]
      · rw [hsaved]

/-- An exit: who waited is taken back, and the thread in `r` waits to be taken back itself. -/
theorem Reclaimed.exit_custody (hback : Reclaimed s s₁) (h : s.Custody r) (hruns : s.Runs r)
    (hspared : s.IdleSpared) :
    (s₁.mark r .dying).Custody r ∧ (s₁.mark r .dying).Buriable r := by
  have hfree := hruns.detached h.linked hspared
  have hhere : r ∉ s.destruction.members :=
    h.linked.destruction.notMem_of_detached (by decide) hfree
  refine ⟨(h.reclaimed hback hspared hhere).mark r .dying, fun _ _ => ⟨?_, hback.destruction_eq⟩⟩
  rw [get_mark, if_pos rfl]
  cases hback with
  | none => exact hfree
  | @one b k honly =>
      have hne : b ≠ r := by
        rintro rfl
        rw [honly] at hhere
        exact hhere (List.mem_singleton_self b)
      change ((s.exhume b).threads.get r).owner = _
      rw [get_exhume, if_neg hne]
      exact hfree

/-- A thread that gives up the processor can be left. -/
theorem Departs.custody (hd : Departs s r a s₁) (h : s.Custody r) (hruns : s.Runs r)
    (hspared : a = .yield ∨ a = .exit → s.IdleSpared) : s₁.Custody r ∧ s₁.Buriable r := by
  have halive : ∀ (s : Scheduler) (status : Status), status ≠ .dying →
      (s.mark r status).Buriable r := by
    intro s status hstatus hdying
    rw [get_mark, if_pos rfl] at hdying
    exact absurd hdying hstatus
  cases hd with
  | idles hself hback =>
      have hhere : r ∉ s.destruction.members := hspared (Or.inl rfl) r hself
      exact ⟨(h.reclaimed hback (hspared (Or.inl rfl)) hhere).mark r .ready,
        halive _ _ (by decide)⟩
  | yields hother hback =>
      have hfree := hruns.detached_of_other hother
      have hhere : r ∉ s.destruction.members :=
        h.linked.destruction.notMem_of_detached (by decide) hfree
      exact ⟨((h.enqueue h.live hfree).reclaimed hback (hspared (Or.inl rfl)) hhere).mark r .ready,
        halive _ _ (by decide)⟩
  | blocks => exact ⟨h.mark r .blocked, halive _ _ (by decide)⟩
  | sleeps hother =>
      exact ⟨(h.putToSleep hother (hruns.detached_of_other hother) _).mark r .blocked,
        halive _ _ (by decide)⟩
  | exits _ hback => exact hback.exit_custody h hruns (hspared (Or.inr rfl))

/-- Waking sleepers does nothing to the running thread. -/
theorem Woken.custody (hw : Woken now s s') (h : s.Custody r) (hruns : s.Runs r) :
    s'.Custody r ∧ s'.Runs r := by
  induction hw with
  | done => exact ⟨h, hruns⟩
  | @next s s' b wake rest hfirst _ _ _ ih =>
      have hne : b ≠ r := by
        rintro rfl
        have howner : (s.threads.get b).owner = .sleep := by
          apply (h.linked.sleep.mem_iff b).mp
          rw [hfirst]
          exact List.mem_cons_self
        rcases hruns.owner with hfree | ⟨-, hdead⟩
        · rw [hfree] at howner
          cases howner
        · rw [hdead] at howner
          cases howner
      have hget : (s.rouse b).threads.get r = s.threads.get r := by
        rw [get_rouse, if_neg hne]
      exact ih (h.rouse hfirst) (hruns.congr rfl (by rw [hget]) (by rw [hget]))

/-- Every step keeps custody of the blocks, unless it is a yield or an exit while the idle thread
waits to be taken back. -/
theorem Step.custody (hstep : Step s sp r a s' sp' n) (h : s.Custody r) (hruns : s.Runs r)
    (hsp : Block.containing sp = .ok r) (hspared : a = .yield ∨ a = .exit → s.IdleSpared) :
    s'.Custody n ∧ s'.Runs n ∧ Block.containing sp' = .ok n := by
  cases hstep with
  | counted stats sliceTicks =>
      exact ⟨h.counted stats sliceTicks, hruns.congr rfl rfl rfl, hsp⟩
  | prioritised priority =>
      refine ⟨h.alter r (fun _ => rfl) (fun _ => rfl) (fun _ => rfl) fun _ => rfl, ?_, hsp⟩
      apply hruns.congr
      · rfl
      · rw [get_alter, if_pos rfl]
      · rw [get_alter, if_pos rfl]
  | @unblocked b hlive hfree hblocked =>
      have hne : b ≠ r := by
        rintro rfl
        rw [hruns.status] at hblocked
        cases hblocked
      have hget : (s.makeReady b).threads.get r = s.threads.get r := by
        rw [get_makeReady, if_neg hne]
      exact ⟨h.makeReady hlive hfree.1, hruns.congr rfl (by rw [hget]) (by rw [hget]), hsp⟩
  | @created k t context hslot hfree hblocked htick hintact hstack hroom =>
      have hk := Pool.busy_of_freeSlot? hslot
      have hne : s.pool.slotAddress k ≠ r :=
        fun heq => h.housed.not_live_of_free hk (heq ▸ h.live)
      have hget : ((s.spawned k t context).makeReady (s.pool.slotAddress k)).threads.get r =
          s.threads.get r := by
        rw [get_makeReady, if_neg hne, get_spawned, if_neg hne]
      refine ⟨(h.spawn hk hroom hfree hstack).makeReady ?_ ?_, ?_, hsp⟩
      · exact (h.housed.live_spawned h.linked hk t context _).mpr (Or.inl rfl)
      · rw [get_spawned, if_pos rfl]
        exact hfree.1
      · apply hruns.congr
        · change (s.spawned k t context).idle = _
          rw [h.housed.spawned_frame h.linked hk]
        · rw [hget]
        · rw [hget]
  | departed hdeparts hdispatched =>
      obtain ⟨hleft, hburiable⟩ := hdeparts.custody h hruns hspared
      exact hdispatched.custody hleft hburiable hsp
  | woke hwoken =>
      obtain ⟨hs', hruns'⟩ := hwoken.custody h hruns
      exact ⟨hs', hruns', hsp⟩
  | interrupted stats sliceTicks hwoken =>
      obtain ⟨hs', hruns'⟩ :=
        hwoken.custody (h.advance.counted stats sliceTicks) (hruns.congr rfl rfl rfl)
      exact ⟨hs', hruns', hsp⟩

/-- What a step of the thread in `r` leaves of handles: the idle thread is the same, live threads
keep their identifiers, and nobody is put to the destruction queue but `r` if it exits. -/
structure SameHandles (s : Scheduler) (r : Nat) (exits : Prop) (s' : Scheduler) : Prop where
  idle : s'.idle = s.idle
  tid : ∀ b, s.Live b → (s'.threads.get b).tid = (s.threads.get b).tid
  dead : ∀ b ∈ s'.destruction.members, b ∈ s.destruction.members ∨ (b = r ∧ exits)

theorem SameBooks.sameHandles {exits : Prop} (h : SameBooks s s')
    (hdead : s'.destruction = s.destruction) : SameHandles s r exits s' :=
  ⟨h.idle, fun b _ => h.tid b, fun _ hb => Or.inl (hdead ▸ hb)⟩

theorem Dispatched.mem_dead (hd : Dispatched s sp r s' sp' n)
    (hb : b ∈ s'.destruction.members) :
    b ∈ s.destruction.members ∨ (b = r ∧ (s.threads.get r).status = .dying) := by
  cases hd with
  | stay =>
      rw [destruction_elect] at hb
      exact Or.inl hb
  | switch _ hne =>
      change b ∈ ((s.elect n).park r).destruction.members at hb
      unfold Scheduler.park at hb
      split at hb
      · next hpark =>
          change b ∈ (s.elect n).destruction.members ++ [r] at hb
          rw [destruction_elect, List.mem_append, List.mem_singleton] at hb
          rw [status_elect_of_ne (Ne.symm hne)] at hpark
          exact hb.imp_right fun heq => ⟨heq, hpark.1⟩
      · rw [destruction_elect] at hb
        exact Or.inl hb

/-- A thread is left with a status and another one is dispatched, after exited threads were taken
back. -/
theorem Reclaimed.sameHandles {status : Status} {exits : Prop} (hsame : SameBooks s s₁)
    {s₂ : Scheduler} (hback : Reclaimed s₁ s₂) (hexits : status = .dying → exits)
    (hd : Dispatched (s₂.mark r status) sp r s' sp' n) : SameHandles s r exits s' where
  idle := hd.sameBooks.idle.trans (hback.idle_eq.trans hsame.idle)
  tid b _ := by
    rw [hd.sameBooks.tid, (SameBooks.mark s₂ r status).tid, hback.tid_eq, hsame.tid]
  dead b hb := by
    rcases hd.mem_dead hb with hold | ⟨rfl, hdying⟩
    · change b ∈ s₂.destruction.members at hold
      rw [hback.destruction_eq] at hold
      cases hold
    · rw [get_mark, if_pos rfl] at hdying
      exact Or.inr ⟨rfl, hexits hdying⟩

theorem Step.sameHandles (hstep : Step s sp r a s' sp' n) (h : s.Custody r) :
    SameHandles s r (a = .exit) s' := by
  cases hstep with
  | counted stats sliceTicks => exact (SameBooks.counted s stats sliceTicks).sameHandles rfl
  | prioritised priority =>
      exact (SameBooks.alter s r (f := fun t => { t with priority }) fun _ => rfl).sameHandles rfl
  | unblocked => exact (SameBooks.makeReady s _).sameHandles rfl
  | @created k t context hslot =>
      have hk := Pool.busy_of_freeSlot? hslot
      have hframe := h.housed.spawned_frame h.linked hk t context
      have hbooks := SameBooks.makeReady (s.spawned k t context) (s.pool.slotAddress k)
      refine ⟨?_, ?_, ?_⟩
      · rw [hbooks.idle, hframe]
      · intro b hb
        have hne : s.pool.slotAddress k ≠ b :=
          fun heq => h.housed.not_live_of_free hk (heq ▸ hb)
        rw [hbooks.tid, get_spawned, if_neg hne]
      · intro b hb
        change b ∈ (s.spawned k t context).destruction.members at hb
        rw [hframe] at hb
        exact Or.inl hb
  | departed hdeparts hdispatched =>
      have hquiet : ∀ {s₁ : Scheduler} {status : Status} {exits : Prop}, SameBooks s s₁ →
          s₁.destruction = s.destruction → status ≠ .dying →
            Dispatched (s₁.mark r status) sp r s' sp' n → SameHandles s r exits s' := by
        intro s₁ status exits hsame hdead hstatus hd
        refine ⟨hd.sameBooks.idle.trans hsame.idle, fun b _ => ?_, fun b hb => ?_⟩
        · rw [hd.sameBooks.tid, (SameBooks.mark s₁ r status).tid, hsame.tid]
        · rcases hd.mem_dead hb with hold | ⟨-, hdying⟩
          · change b ∈ s₁.destruction.members at hold
            exact Or.inl (hdead ▸ hold)
          · rw [get_mark, if_pos rfl] at hdying
            exact absurd hdying hstatus
      cases hdeparts with
      | idles _ hback => exact hback.sameHandles (.refl s) (by simp) hdispatched
      | yields _ hback => exact hback.sameHandles (.enqueue s r) (by simp) hdispatched
      | blocks => exact hquiet (.refl s) rfl (by decide) hdispatched
      | sleeps => exact hquiet (.putToSleep s r _) rfl (by decide) hdispatched
      | exits _ hback => exact hback.sameHandles (.refl s) (fun _ => rfl) hdispatched
  | woke hwoken => exact hwoken.sameBooks.sameHandles hwoken.destruction_eq
  | interrupted stats sliceTicks hwoken =>
      have hbooks := ((SameBooks.advance s).trans (.counted _ stats sliceTicks)).trans
        hwoken.sameBooks
      exact hbooks.sameHandles hwoken.destruction_eq

/-- Who is taken back has no block any more. -/
theorem Reclaimed.not_live (hback : Reclaimed s s') (hmain : s.initial ≠ some b)
    (hb : b ∈ s.destruction.members) : ¬ s'.Live b := by
  cases hback with
  | none hempty =>
      rw [hempty] at hb
      cases hb
  | @one c k honly hbusy hslot =>
      obtain rfl : b = c := by
        rw [honly] at hb
        exact List.mem_singleton.mp hb
      exact fun hlive => ((live_reap hslot hmain b).mp hlive).2 rfl

/-- The boot thread stays the boot thread. -/
theorem Step.initial_eq (hstep : Step s sp r a s' sp' n) (h : s.Custody r) :
    s'.initial = s.initial := by
  cases hstep with
  | counted => rfl
  | prioritised => rfl
  | unblocked => rfl
  | @created k t context hslot =>
      have hframe := h.housed.spawned_frame h.linked (Pool.busy_of_freeSlot? hslot) t context
      change (s.spawned k t context).initial = s.initial
      rw [hframe]
  | departed hdeparts hdispatched =>
      rw [hdispatched.sameBooks.initial]
      cases hdeparts with
      | idles _ hback => exact hback.initial_eq
      | yields _ hback => exact hback.initial_eq
      | blocks => rfl
      | sleeps => rfl
      | exits _ hback => exact hback.initial_eq
  | woke hwoken => exact hwoken.sameBooks.initial
  | interrupted stats sliceTicks hwoken => exact hwoken.sameBooks.initial

/-- A yield or an exit takes the exited threads back. -/
theorem Step.not_live_of_dead (hstep : Step s sp r a s' sp' n) (ha : a = .yield ∨ a = .exit)
    (hmain : s.initial ≠ some b) (hb : b ∈ s.destruction.members) : ¬ s'.Live b := by
  cases hstep with
  | departed hdeparts hdispatched =>
      have hbooks := hdispatched.sameBooks
      rw [live_congr hbooks.pool hbooks.initial]
      cases hdeparts with
      | idles _ hback => exact hback.not_live hmain hb
      | yields _ hback => exact hback.not_live (s := s.enqueue r) hmain hb
      | exits _ hback => exact hback.not_live hmain hb
      | blocks | sleeps => simp at ha
  | _ => simp at ha

end RoundRobin.Scheduler
