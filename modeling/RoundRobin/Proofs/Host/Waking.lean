import RoundRobin.Proofs.Host.Progress
import RoundRobin.Proofs.Host.Refinement

/-!
# Waking sleepers

In every state that a kernel reaches, waking the sleepers that are due makes all of them ready, in
the order of their wake ticks and at one tick in the order in which they went to sleep, and leaves
everything else as it is. It does not matter in how many portions they are woken.
-/

namespace RoundRobin

namespace Scheduler

variable {s s' s₁ s₂ : Scheduler} {now a b : Nat}

/-- Which sleepers are woken is settled by the state. -/
theorem Woken.unique (h₁ : Woken now s s₁) (h₂ : Woken now s s₂) : s₁ = s₂ := by
  induction h₁ with
  | done hnot =>
      cases h₂ with
      | done => rfl
      | next hfirst htick hdue => exact absurd (SleepQueue.due_of_cons hfirst htick hdue) hnot
  | next hfirst htick hdue _ ih =>
      cases h₂ with
      | done hnot => exact absurd (SleepQueue.due_of_cons hfirst htick hdue) hnot
      | next hfirst' _ _ hothers =>
          cases hfirst.symm.trans hfirst'
          exact ih hothers

theorem not_due_mono (hle : a ≤ b) (hnot : ¬ s.sleepers.Due s.threads b) :
    ¬ s.sleepers.Due s.threads a :=
  fun ⟨w, hw, hdue⟩ => hnot ⟨w, hw, Nat.le_trans hdue hle⟩

/-- Waking in two portions is waking at the later tick. -/
theorem Woken.max (h₁ : Woken a s s₁) (h₂ : Woken b s₁ s₂) : Woken (max a b) s s₂ := by
  induction h₁ with
  | done hnot =>
      rcases Nat.le_total a b with hle | hle
      · rwa [Nat.max_eq_right hle]
      · rw [Nat.max_eq_left hle]
        rw [h₂.unique (.done (not_due_mono hle hnot))]
        exact .done hnot
  | next hfirst htick hdue _ ih =>
      exact .next hfirst htick (Nat.le_trans hdue (Nat.le_max_left a b)) (ih h₂)

/-- Waking concerns the ready list, the sleep queue and the control blocks alone. -/
theorem Woken.frame (h : Woken now s s') :
    s' = { s with ready := s'.ready, sleepers := s'.sleepers, threads := s'.threads } := by
  induction h with
  | done => rfl
  | next _ _ _ _ ih => exact ih

end Scheduler

/-- The queue of the given kind and members. -/
def Queue.holding (kind : Owner) (members : List Nat) : Queue :=
  { kind, members, size := members.length }

theorem Queue.Tracks.eq_holding {q : Queue} {kind : Owner} {threads : Memory Thread}
    (h : q.Tracks kind threads) : q = .holding kind q.members := by
  rw [holding, ← h.kind_eq, ← h.size_eq]

namespace Roster

variable {m : Roster} {idle main now wake : Nat} {a : Scheduler.Action}

theorem asleep_dispatch (idle : Nat) (m : Roster) : (m.dispatch idle).asleep = m.asleep := by
  rw [dispatch]
  split <;> rfl

theorem asleep_sleep : (m.sleep idle wake).asleep =
    (m.asleep.filter fun x => x.1 ≤ wake) ++
      (wake, m.running) :: m.asleep.filter fun x => wake < x.1 := by
  rw [sleep, asleep_dispatch]

/-- Unless the running thread goes to sleep, nobody joins the sleepers. -/
theorem asleep_obey_sublist (hquiet : ∀ wake, a ≠ .sleep wake) :
    (m.obey idle main now a).asleep.Sublist m.asleep := by
  cases a with
  | sleep wake => exact absurd rfl (hquiet wake)
  | wake | interrupt => exact List.filter_sublist
  | count | unblock | create => exact .refl _
  | block =>
      rw [obey, asleep_dispatch]
  | yield =>
      rw [obey, yield]
      split <;> rw [asleep_dispatch] <;> exact .refl _
  | exit =>
      rw [obey, exit]
      split <;> exact (asleep_dispatch idle m.drain ▸ List.Sublist.refl _)

end Roster

namespace Host

open Scheduler

variable {h h' h₀ : Host} {es : List Event} {e : Event} {call : Call} {created : Option Nat}
  {b n r main idle now count : Nat} {u : Unit}

/-- In a settled state the loop of the alarm ends after one round for each sleeper at the latest,
with the same outcome however many rounds it may take. -/
theorem wakeDue_of_woken (hs : h.scheduler.Settled Active r) {s : Scheduler}
    (hwoken : Woken now h.scheduler s)
    (hcount : h.scheduler.sleepers.queue.members.length ≤ count) :
    (wakeDue now count : HostM Unit) h = .ok () (h.withScheduler s) := by
  obtain ⟨g, hrun⟩ := (returns_wakeDue now count hs).unit
  rw [hrun, frame_wakeDue hrun, (woken_of_wakeDue hcount hrun).1.unique hwoken]

theorem wake_of_woken (hs : h.scheduler.Settled Active r) {s : Scheduler}
    (hwoken : Woken now h.scheduler s) :
    (wake now : HostM Unit) h = .ok () (h.withScheduler s) :=
  wake_eq_ok_iff.mpr (wakeDue_of_woken hs hwoken (Nat.le_refl _))

theorem exists_woken (hs : h.scheduler.Settled Active r) (now : Nat) :
    ∃ s, Woken now h.scheduler s := by
  obtain ⟨g, hrun⟩ := (returns_wakeDue now _ hs).unit
  exact ⟨_, (woken_of_wakeDue (Nat.le_refl _) hrun).1⟩

/-- Waking up to a tick and then up to another one is waking up to the later one. -/
theorem wake_wake (hs : h.scheduler.Settled Active r) (a b : Nat) :
    (do wake a; wake b : HostM Unit) h = (wake (max a b) : HostM Unit) h := by
  obtain ⟨s₁, hfirst⟩ := exists_woken hs a
  have hs₁ : (h.withScheduler s₁).scheduler.Settled Active r := hfirst.settled hs
  obtain ⟨s₂, hsecond⟩ := exists_woken hs₁ b
  rw [bind_of_ok (wake_of_woken hs hfirst), wake_of_woken hs₁ hsecond,
    wake_of_woken hs (hfirst.max hsecond)]
  rfl

/-- The call puts its caller to sleep. A sleep of less than one tick does not. -/
def Call.Sleeps : Call → Prop
  | .sleep ticks => ticks ≠ 0
  | .sleepUntil _ => True
  | .msleep ms => wholeTicks ms 1000 ≠ 0
  | .usleep us => wholeTicks us 1000000 ≠ 0
  | .nsleep ns => wholeTicks ns 1000000000 ≠ 0
  | _ => False

instance : DecidablePred Call.Sleeps
  | .sleep _ => inferInstanceAs (Decidable (_ ≠ _))
  | .sleepUntil _ => isTrue trivial
  | .msleep _ => inferInstanceAs (Decidable (_ ≠ _))
  | .usleep _ => inferInstanceAs (Decidable (_ ≠ _))
  | .nsleep _ => inferInstanceAs (Decidable (_ ≠ _))
  | .create .. | .yieldNow | .block | .unblock _ | .retire | .idlePass | .tick | .wake _
  | .timerInterrupt | .takeYield | .setPriority _ | .setLevel _ | .setInInterrupt _ => isFalse id

/-- Identifiers of the threads that went to sleep in a run, in the order in which each of them did
so for the last time. -/
def sleepOrder (es : List Event) : List Nat :=
  es.foldl (fun order e =>
    if e.call.Sleeps then order.erase e.caller ++ [e.caller] else order) []

theorem sleepOrder_snoc (es : List Event) (e : Event) :
    sleepOrder (es ++ [e]) =
      if e.call.Sleeps then (sleepOrder es).erase e.caller ++ [e.caller] else sleepOrder es := by
  simp [sleepOrder]

theorem Call.sleeps_iff : call.Sleeps ↔ ∃ wake, call.action h = .sleep wake := by
  have hnap : ∀ ticks, ticks ≠ 0 ↔ ∃ wake, napAction h.scheduler.ticks ticks = .sleep wake := by
    intro ticks
    by_cases hzero : ticks = 0 <;> simp [napAction, hzero]
  cases call with
  | sleep | msleep | usleep | nsleep => exact hnap _
  | sleepUntil due => exact ⟨fun _ => ⟨due, rfl⟩, fun _ => trivial⟩
  | create =>
      simp only [Sleeps, action, false_iff]
      rintro ⟨wake, hsleep⟩
      split at hsleep <;> cases hsleep
  | _ => simp [Sleeps, action]

/-- The sleepers went to sleep in the run, and those of one tick stand in the order in which they
did. -/
structure InSleepOrder (es : List Event) (h : Host) : Prop where
  slept : ∀ x ∈ h.scheduler.asleep, (h.scheduler.threads.get x.2).tid ∈ sleepOrder es
  order : h.scheduler.asleep.Pairwise fun x y => x.1 = y.1 →
    [(h.scheduler.threads.get x.2).tid, (h.scheduler.threads.get y.2).tid].Sublist (sleepOrder es)

theorem Orderly.live_of_asleep (ho : h.Orderly r) {x : Nat × Nat} (hx : x ∈ h.scheduler.asleep) :
    (h.scheduler.threads.get x.2).owner = .sleep ∧ h.scheduler.Live x.2 := by
  obtain ⟨b, hb, rfl⟩ := List.mem_map.mp hx
  have howner := (ho.settled.linked.sleep.mem_iff b).mp hb
  exact ⟨howner, ho.settled.housed.owned b (howner.trans_ne (by decide))⟩

namespace InSleepOrder

variable {es' : List Event}

/-- Some sleepers are woken or none, and nobody goes to sleep. -/
theorem thinned (hi : h.InSleepOrder es) (hsub : h'.scheduler.asleep.Sublist h.scheduler.asleep)
    (htid : ∀ x ∈ h.scheduler.asleep,
      (h'.scheduler.threads.get x.2).tid = (h.scheduler.threads.get x.2).tid)
    (horder : sleepOrder es' = sleepOrder es) : h'.InSleepOrder es' where
  slept x hx := by
    rw [horder, htid x (hsub.mem hx)]
    exact hi.slept x (hsub.mem hx)
  order := by
    refine (hi.order.sublist hsub).imp_of_mem fun hx hy hxy heq => ?_
    rw [horder, htid _ (hsub.mem hx), htid _ (hsub.mem hy)]
    exact hxy heq

/-- The thread in `r` goes to sleep until the tick `wake`. -/
theorem joined {wake : Nat} (hi : h.InSleepOrder es)
    (hasleep : h'.scheduler.asleep = (h.scheduler.asleep.filter fun x => x.1 ≤ wake) ++
      (wake, r) :: h.scheduler.asleep.filter fun x => wake < x.1)
    (htid : ∀ x ∈ h.scheduler.asleep,
      (h'.scheduler.threads.get x.2).tid = (h.scheduler.threads.get x.2).tid)
    (hself : (h'.scheduler.threads.get r).tid = (h.scheduler.threads.get r).tid)
    (hother : ∀ x ∈ h.scheduler.asleep,
      (h.scheduler.threads.get x.2).tid ≠ (h.scheduler.threads.get r).tid)
    (horder : sleepOrder es' = (sleepOrder es).erase (h.scheduler.threads.get r).tid ++
      [(h.scheduler.threads.get r).tid]) : h'.InSleepOrder es' := by
  have hmem : ∀ {p : Nat × Nat → Bool} {x}, x ∈ h.scheduler.asleep.filter p →
      x ∈ h.scheduler.asleep := fun hx => List.mem_of_mem_filter hx
  have hslept : ∀ x ∈ h.scheduler.asleep, (h.scheduler.threads.get x.2).tid ∈
      (sleepOrder es).erase (h.scheduler.threads.get r).tid := fun x hx =>
    (List.mem_erase_of_ne (hother x hx)).mpr (hi.slept x hx)
  -- Two threads that slept before stand as before, since neither of them is the one that joins.
  have hold : h.scheduler.asleep.Pairwise fun x y => x.1 = y.1 →
      [(h'.scheduler.threads.get x.2).tid, (h'.scheduler.threads.get y.2).tid].Sublist
        (sleepOrder es') := by
    refine hi.order.imp_of_mem fun {x y} hx hy hxy heq => ?_
    have herase := (hxy heq).erase (h.scheduler.threads.get r).tid
    rw [List.erase_of_not_mem (by simp [Ne.symm (hother x hx), Ne.symm (hother y hy)])] at herase
    rw [horder, htid x hx, htid y hy]
    exact herase.trans (List.sublist_append_left _ _)
  constructor
  · intro x hx
    rw [hasleep, List.mem_append, List.mem_cons] at hx
    rw [horder, List.mem_append, List.mem_singleton]
    rcases hx with hx | rfl | hx
    · rw [htid x (hmem hx)]
      exact Or.inl (hslept x (hmem hx))
    · exact Or.inr hself
    · rw [htid x (hmem hx)]
      exact Or.inl (hslept x (hmem hx))
  · rw [hasleep, List.pairwise_append, List.pairwise_cons]
    refine ⟨hold.filter _, ⟨fun y hy heq => ?_, hold.filter _⟩, fun x hx y hy heq => ?_⟩
    · have hlater := (List.mem_filter.mp hy).2
      simp only [decide_eq_true_eq] at hlater
      omega
    · have hsooner := (List.mem_filter.mp hx).2
      simp only [decide_eq_true_eq] at hsooner
      rcases List.mem_cons.mp hy with rfl | hy
      · rw [horder, htid x (hmem hx), hself]
        exact (List.singleton_sublist.mpr (hslept x (hmem hx))).append_right _
      · have hlater := (List.mem_filter.mp hy).2
        simp only [decide_eq_true_eq] at hlater
        omega

end InSleepOrder

theorem InSleepOrder.snoc (hi : h.InSleepOrder es) (hl : Ledger main idle es h)
    (ho : h.Orderly r) (hallowed : Kernel h call) (hperforms : call.perform h = .ok created h') :
    h'.InSleepOrder (es ++ [.between h call created h']) := by
  have hentry := entry_of_call ho hallowed hperforms
  obtain ⟨⟨n, ht⟩, -⟩ := Call.takes_action ho hallowed hperforms
  have hlists := congrArg Roster.asleep
    (Step.roster_eq ht ho.settled hl.idle_eq hl.initial_eq)
  have htid : ∀ x ∈ h.scheduler.asleep,
      (h'.scheduler.threads.get x.2).tid = (h.scheduler.threads.get x.2).tid :=
    fun x hx => hentry.tid_eq (ho.live_of_asleep hx).2
  have horder : sleepOrder (es ++ [.between h call created h']) =
      if call.Sleeps then (sleepOrder es).erase h.callerTid ++ [h.callerTid] else sleepOrder es :=
    sleepOrder_snoc es (.between h call created h')
  by_cases hsleeps : call.Sleeps
  · obtain ⟨wake, haction⟩ := (Call.sleeps_iff (h := h)).mp hsleeps
    rw [haction] at hlists
    rw [if_pos hsleeps, callerTid_of_containing ho.here] at horder
    refine hi.joined (hlists.trans Roster.asleep_sleep) htid (hentry.tid_eq ho.settled.live) ?_
      horder
    · intro x hx heq
      obtain ⟨howner, hlive⟩ := ho.live_of_asleep hx
      have hself := hl.tid_injective hlive ho.settled.live heq
      rw [hself, ho.settled.here.owner] at howner
      cases howner
  · rw [if_neg hsleeps] at horder
    refine hi.thinned ?_ htid horder
    have hsub : (h'.scheduler.roster n).asleep.Sublist (h.scheduler.roster r).asleep := by
      rw [hlists]
      exact Roster.asleep_obey_sublist fun wake haction =>
        hsleeps (Call.sleeps_iff.mpr ⟨wake, haction⟩)
    exact hsub

/-- In every state that a kernel reaches the sleepers of one tick stand in the order in which they
went to sleep. -/
theorem Run.inSleepOrder (hbooted : h₀.Booted) (hafter : h₀.AfterBoot main idle)
    (hrun : Run Kernel h₀ es h) : h.InSleepOrder es := by
  induction hrun with
  | nil =>
      have hnobody : h₀.scheduler.asleep = [] := by
        rw [Scheduler.asleep, hbooted.at_rest.2.1, List.map_nil]
      constructor <;> rw [hnobody]
      · intro x hx
        cases hx
      · exact .nil
  | snoc hrun hallowed hperforms ih =>
      obtain ⟨r, ho⟩ := hrun.orderly ⟨main, hafter.orderly⟩
      exact ih.snoc (hrun.ledger hafter) ho hallowed hperforms

/-- The sleepers that are due at the tick `now`, from the head of the sleep queue. -/
def dueAt (h : Host) (now : Nat) : List Nat :=
  h.scheduler.sleepers.queue.members.filter fun b => (h.scheduler.threads.get b).wake ≤ now

/-- `b` is due before `c`: at an earlier tick, or at the same one but it went to sleep before `c`
in the run `es`. -/
def DueBefore (es : List Event) (h : Host) (b c : Nat) : Prop :=
  (h.scheduler.threads.get b).wake < (h.scheduler.threads.get c).wake ∨
    (h.scheduler.threads.get b).wake = (h.scheduler.threads.get c).wake ∧
      [(h.scheduler.threads.get b).tid, (h.scheduler.threads.get c).tid].Sublist (sleepOrder es)

/-- Between `h`, which the run `es` led to, and `h'` the sleepers that are due at the tick `now`
were woken. -/
structure Releases (es : List Event) (now : Nat) (h h' : Host) : Prop where
  /-- They come last among the threads that are ready. -/
  ready_eq : h'.scheduler.ready = .holding .ready (h.scheduler.ready.members ++ h.dueAt now)
  /-- They come in the order in which they are due. -/
  order : (h.dueAt now).Pairwise (DueBefore es h)
  /-- The others sleep on as they were. -/
  sleepers_eq : h'.scheduler.sleepers.queue = .holding .sleep
    (h.scheduler.sleepers.queue.members.filter fun b => now < (h.scheduler.threads.get b).wake)
  wakeTick_eq : ∀ b ∈ h.scheduler.sleepers.queue.members,
    (h.scheduler.threads.get b).wakeTick = some (h.scheduler.threads.get b).wake
  get_of_due : ∀ b ∈ h.dueAt now, h'.scheduler.threads.get b =
    { h.scheduler.threads.get b with
      owner := .ready, linked := true, wakeTick := none, status := .ready }
  get_of_not_due : ∀ b ∉ h.dueAt now, h'.scheduler.threads.get b = h.scheduler.threads.get b
  /-- Nothing else changes, neither on the processor nor in the scheduler. -/
  frame : h' = h.withScheduler { h.scheduler with
    ready := h'.scheduler.ready
    sleepers := h'.scheduler.sleepers
    threads := h'.scheduler.threads }
  /-- No further round of the loop would change anything. -/
  rounds : ∀ count, h.scheduler.sleepers.queue.members.length ≤ count →
    (wakeDue now count : HostM Unit) h = .ok () h'

theorem map_snd_asleep (s : Scheduler) :
    s.asleep.map (fun x => x.2) = s.sleepers.queue.members := by
  rw [asleep, List.map_map]
  exact List.map_id _

theorem map_snd_filter_asleep (s : Scheduler) (p : Nat → Bool) :
    (s.asleep.filter fun x => p x.1).map (fun x => x.2) =
      s.sleepers.queue.members.filter fun b => p (s.threads.get b).wake := by
  rw [asleep, List.filter_map, List.map_map]
  exact List.map_id _

theorem Orderly.wakeTick_eq (ho : h.Orderly r) (hb : b ∈ h.scheduler.sleepers.queue.members) :
    (h.scheduler.threads.get b).wakeTick = some (h.scheduler.threads.get b).wake := by
  have howner := (ho.settled.linked.sleep.mem_iff b).mp hb
  obtain ⟨w, hw⟩ := Option.ne_none_iff_exists'.mp (ho.settled.asleep_of_owner howner).2.1
  rw [Thread.wake, hw, Option.getD_some]

/-- The sleepers stand in the order in which they are due. -/
theorem InSleepOrder.pairwise_members (hi : h.InSleepOrder es) (ho : h.Orderly r) :
    h.scheduler.sleepers.queue.members.Pairwise (DueBefore es h) := by
  have hascending := ho.settled.linked.ascending
  have horder := List.pairwise_map.mp hi.order
  refine (hascending.and horder).imp fun {b c} hbc => ?_
  rcases Nat.lt_or_eq_of_le hbc.1 with hlt | heq
  · exact Or.inl hlt
  · exact Or.inr ⟨heq, hbc.2 heq⟩

theorem Orderly.releases (ho : h.Orderly r) (hi : h.InSleepOrder es) {s : Scheduler}
    (hwoken : Woken now h.scheduler s) : Releases es now h (h.withScheduler s) := by
  have hlists := hwoken.roster_eq ho.settled
  have hlinked := (hwoken.settled ho.settled).linked
  have howner : ∀ {b}, b ∈ h.scheduler.sleepers.queue.members ↔
      (h.scheduler.threads.get b).owner = .sleep := ho.settled.linked.sleep.mem_iff _
  refine {
    ready_eq := ?_
    order := (hi.pairwise_members ho).filter _
    sleepers_eq := ?_
    wakeTick_eq := fun b => ho.wakeTick_eq
    get_of_due := ?_
    get_of_not_due := ?_
    frame := congrArg h.withScheduler hwoken.frame
    rounds := fun count => wakeDue_of_woken ho.settled hwoken }
  · have hready : s.ready.members = h.scheduler.ready.members ++
        (h.scheduler.asleep.filter fun x => x.1 ≤ now).map fun x => x.2 :=
      congrArg Roster.ready hlists
    rw [scheduler_withScheduler, hlinked.ready.eq_holding, hready, dueAt,
      ← map_snd_filter_asleep h.scheduler fun wake => wake ≤ now]
  · have hasleep : s.asleep = h.scheduler.asleep.filter fun x => now < x.1 :=
      congrArg Roster.asleep hlists
    rw [scheduler_withScheduler, hlinked.sleep.eq_holding, ← map_snd_asleep, hasleep,
      ← map_snd_filter_asleep h.scheduler fun wake => now < wake]
  · intro b hb
    obtain ⟨hmem, hdue⟩ := List.mem_filter.mp hb
    exact hwoken.get_of_due ho.settled (howner.mp hmem) (ho.wakeTick_eq hmem) (by simpa using hdue)
  · intro b hb
    by_cases hmem : b ∈ h.scheduler.sleepers.queue.members
    · refine hwoken.get_of_later (ho.wakeTick_eq hmem) ?_
      simpa [dueAt, hmem] using hb
    · exact hwoken.get_of_not_asleep ho.settled fun hsleep => hmem (howner.mpr hsleep)

/-- In every state that a kernel reaches, waking the sleepers at a tick returns and releases exactly
those that are due, and to do so at two ticks is to do so at the later one. -/
theorem Run.releases_due (hbooted : h₀.Booted) (hrun : Run Kernel h₀ es h) :
    (∀ now, ∃ h', (wake now : HostM Unit) h = .ok () h' ∧ Releases es now h h') ∧
      ∀ a b, (do wake a; wake b : HostM Unit) h = (wake (max a b) : HostM Unit) h := by
  obtain ⟨main, idle, hafter⟩ := hbooted.after
  obtain ⟨r, ho⟩ := hrun.orderly ⟨main, hafter.orderly⟩
  refine ⟨fun now => ?_, wake_wake ho.settled⟩
  obtain ⟨s, hwoken⟩ := exists_woken ho.settled now
  exact ⟨_, wake_of_woken ho.settled hwoken,
    ho.releases (hrun.inSleepOrder hbooted hafter) hwoken⟩

/-- The boot thread and one of two others sleep to the same tick, and the last one longer. -/
def napSample : List Event × Host :=
  play Kernel sample
    [.create "a" 3 threadBody 7, .create "b" 5 threadBody 9, .sleep 2, .sleep 2, .sleep 5]

theorem releases_due_sample :
    sample.Booted ∧ Run Kernel sample napSample.1 napSample.2 ∧
      napSample.2.roster =
        ⟨0x40000000, [], [(2, 0x100000000), (2, 0x40001000), (5, 0x40002000)], []⟩ ∧
      sleepOrder napSample.1 = [1, 3, 4] ∧
      napSample.2.dueAt 3 = [0x100000000, 0x40001000] ∧
      ∃ h', (wake 3 : HostM Unit) napSample.2 = .ok () h' ∧
        Releases napSample.1 3 napSample.2 h' := by
  have hrun : Run Kernel sample napSample.1 napSample.2 := Run.play _ _
  exact ⟨booted_sample, hrun, by decide +kernel, by decide +kernel, by decide +kernel,
    (Run.releases_due booted_sample hrun).1 3⟩

end Host

end RoundRobin
