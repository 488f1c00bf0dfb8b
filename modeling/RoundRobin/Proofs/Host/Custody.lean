import RoundRobin.Proofs.Host.Ledger
import RoundRobin.Proofs.Scheduler.Custody

/-!
# An idle thread that exits

The boot thread is exempt from the destruction queue, the idle thread is not. If its body returns
it is put there like any other thread, and the scheduler goes on to fall back on it. This is
harmless until a yield or an exit takes its block back.
-/

namespace RoundRobin.Host

open Scheduler

variable {h h' h₀ : Host} {es : List Event} {call : Call} {created : Option Nat} {r : Nat}

/-- What programs may do: they unblock live threads only. Every thread may exit. -/
def Lawful (h : Host) : Call → Prop
  | .unblock b => h.scheduler.Live b
  | _ => True

instance decidableLawful (h : Host) : (call : Call) → Decidable (Lawful h call)
  | .unblock b => inferInstanceAs (Decidable (h.scheduler.Live b))
  | .create .. | .yieldNow | .block | .retire | .idlePass | .sleep _ | .sleepUntil _ | .msleep _
  | .usleep _ | .nsleep _ | .tick | .wake _ | .timerInterrupt | .takeYield | .setPriority _
  | .setLevel _ | .setInInterrupt _ => isTrue trivial

/-- The call does not take the idle thread back: it is not of the kind that takes exited threads
back, or the idle thread is not one of them. -/
def Call.SparesIdle (h : Host) (call : Call) : Prop :=
  call = .yieldNow ∨ call = .retire → h.scheduler.IdleSpared

instance (h : Host) (call : Call) : Decidable (call.SparesIdle h) :=
  inferInstanceAs (Decidable (_ → _))

/-- What programs may do without taking the idle thread back. -/
def Sparing (h : Host) (call : Call) : Prop :=
  Lawful h call ∧ call.SparesIdle h

instance (h : Host) (call : Call) : Decidable (Sparing h call) :=
  inferInstanceAs (Decidable (_ ∧ _))

/-- Every thread that the scheduler can reach has the boot block or a block in use, and the thread
recorded as the idle thread is the one that was created at boot. -/
structure Sheltered (h : Host) : Prop where
  running : h.scheduler.Live (Block.base h.sp)
  ready : ∀ b ∈ h.scheduler.ready.members, h.scheduler.Live b
  asleep : ∀ b ∈ h.scheduler.sleepers.queue.members, h.scheduler.Live b
  dead : ∀ b ∈ h.scheduler.destruction.members, h.scheduler.Live b
  idle : ∃ b, h.scheduler.idle = some b ∧ h.scheduler.Live b ∧
    (h.scheduler.threads.get b).tid = idleTid

/-- The thread in `r` runs on its own stack, and the blocks are in custody. -/
structure Guarded (h : Host) (r : Nat) : Prop where
  custody : h.scheduler.Custody r
  runs : h.scheduler.Runs r
  here : Block.containing h.sp = .ok r

theorem Orderly.guarded (ho : h.Orderly r) : h.Guarded r :=
  ⟨ho.settled.custody, ho.settled.runs, ho.here⟩

theorem Guarded.sheltered (hg : h.Guarded r) {idle : Nat} (hidle : h.scheduler.idle = some idle)
    (htid : (h.scheduler.threads.get idle).tid = idleTid) : h.Sheltered := by
  have hqueued : ∀ b, (h.scheduler.threads.get b).owner ≠ .detached → h.scheduler.Live b :=
    hg.custody.housed.owned
  constructor
  · rw [base_of_containing hg.here]
    exact hg.custody.live
  · intro b hb
    exact hqueued b (((hg.custody.linked.ready.mem_iff b).mp hb).trans_ne (by decide))
  · intro b hb
    exact hqueued b (((hg.custody.linked.sleep.mem_iff b).mp hb).trans_ne (by decide))
  · intro b hb
    exact hqueued b (((hg.custody.linked.destruction.mem_iff b).mp hb).trans_ne (by decide))
  · exact ⟨idle, hidle, Or.inr (hg.custody.housed.idle idle hidle), htid⟩

/-- A call that does not take the idle thread back keeps the blocks in custody and the handles as
they are. -/
theorem Guarded.perform (hg : h.Guarded r) (hlawful : Lawful h call) (hspares : call.SparesIdle h)
    (hrun : call.perform h = .ok created h') :
    (∃ n, h'.Guarded n) ∧ SameHandles h.scheduler r (call = .retire) h'.scheduler := by
  obtain ⟨hcustody, hruns, hhere⟩ := hg
  by_cases hexit : call = .retire ∧ h.scheduler.idle = some r
  · obtain ⟨rfl, hidle⟩ := hexit
    obtain ⟨-, u, hact⟩ := Call.silently_eq_ok_iff.mp hrun
    obtain ⟨s, hback, n, hd⟩ := dispatched_of_retire hcustody.reclaimable hhere hact
    obtain ⟨hleft, hburiable⟩ := hback.exit_custody hcustody hruns (hspares (Or.inr rfl))
    obtain ⟨hs', hruns', hhere'⟩ := hd.custody hleft hburiable hhere
    exact ⟨⟨n, hs', hruns', hhere'⟩, hback.sameHandles (.refl h.scheduler) (fun _ => rfl) hd⟩
  · have hadmissible : call.Admissible h := by
      cases call with
      | unblock b => exact hlawful
      | retire =>
          intro r' hr' hidle
          obtain rfl := here_unique hhere hr'
          exact hexit ⟨rfl, hidle⟩
      | _ => trivial
    obtain ⟨a, n, hamounts, ht, -⟩ :=
      Call.takes_of_reclaimable hcustody.reclaimable hhere hadmissible hrun
    have hspared : a = .yield ∨ a = .exit → h.scheduler.IdleSpared := by
      rw [hamounts.yield_iff, hamounts.exit_iff]
      exact hspares
    obtain ⟨hs', hruns', hhere'⟩ := Step.custody ht hcustody hruns hhere hspared
    have hhandles := Step.sameHandles ht hcustody
    rw [hamounts.exit_iff] at hhandles
    exact ⟨⟨n, hs', hruns', hhere'⟩, hhandles⟩

/-- A yield or an exit while the idle thread waits to be taken back takes its block away, and it
is the idle thread as before. -/
theorem Guarded.breach (hg : h.Guarded r) (htakes : ¬ call.SparesIdle h)
    (hrun : call.perform h = .ok created h') :
    ∃ b, h'.scheduler.idle = some b ∧ ¬ h'.scheduler.Live b := by
  obtain ⟨hcustody, hruns, hhere⟩ := hg
  obtain ⟨hcall, hdead⟩ := Classical.not_imp.mp htakes
  unfold IdleSpared at hdead
  push Not at hdead
  obtain ⟨b, hidle, hb⟩ := hdead
  have hmain := hcustody.housed.idle_ne_initial hidle
  -- Both kinds of call drain the destruction queue and dispatch, and a dispatch frees nothing.
  have hgone : ∀ {s₁ s₂ : Scheduler} {status : Status} {n : Nat}, SameBooks h.scheduler s₁ →
      s₁.destruction = h.scheduler.destruction → Reclaimed s₁ s₂ →
        Dispatched (s₂.mark r status) h.sp r h'.scheduler h'.sp n →
          ∃ b, h'.scheduler.idle = some b ∧ ¬ h'.scheduler.Live b := by
    intro s₁ s₂ status n hsame hdestruction hback hd
    have hbooks := (SameBooks.mark s₂ r status).trans hd.sameBooks
    refine ⟨b, ?_, ?_⟩
    · rw [hbooks.idle, hback.idle_eq, hsame.idle, hidle]
    · rw [live_congr hbooks.pool hbooks.initial]
      apply hback.not_live
      · rw [hsame.initial]
        exact hmain
      · rw [hdestruction]
        exact hb
  rcases hcall with rfl | rfl
  · obtain ⟨-, u, hact⟩ := Call.silently_eq_ok_iff.mp hrun
    obtain ⟨n, ht⟩ := takes_yieldNow hcustody.reclaimable hhere hact
    cases ht with
    | departed hdeparts hd =>
        cases hdeparts with
        | idles _ hback => exact hgone (.refl _) rfl hback hd
        | yields _ hback => exact hgone (.enqueue _ r) rfl hback hd
  · obtain ⟨-, u, hact⟩ := Call.silently_eq_ok_iff.mp hrun
    obtain ⟨s, hback, n, hd⟩ := dispatched_of_retire hcustody.reclaimable hhere hact
    exact hgone (.refl _) rfl hback hd

/-- What is known after the events `es` of a run in which the idle thread was not taken back. -/
structure Watched (h₀ : Host) (es : List Event) (h : Host) : Prop where
  sheltered : h.Sheltered
  /-- The thread that was recorded as the idle thread at boot still is. -/
  handle : h.scheduler.idle = h₀.scheduler.idle
  /-- If the idle thread waits to be taken back, it has exited. -/
  cause : ¬ h.scheduler.IdleSpared → idleTid ∈ exitedTids es
  /-- The next call leaves a thread without a block exactly if it takes the idle thread back. -/
  next : ∀ call created h', Lawful h call → call.perform h = .ok created h' →
    (h'.Sheltered ↔ call.SparesIdle h)

/-- The invariant behind `Watched`: `idle` is the block of the idle thread. -/
structure Keeping (idle : Nat) (es : List Event) (h : Host) : Prop where
  guarded : ∃ r, h.Guarded r
  idle_eq : h.scheduler.idle = some idle
  tid_eq : (h.scheduler.threads.get idle).tid = idleTid
  cause : idle ∈ h.scheduler.destruction.members → idleTid ∈ exitedTids es

theorem Keeping.snoc {idle : Nat} (hk : Keeping idle es h) (hallowed : Sparing h call)
    (hrun : call.perform h = .ok created h') :
    Keeping idle (es ++ [.between h call created h']) h' := by
  obtain ⟨r, hg⟩ := hk.guarded
  obtain ⟨hg', hsame⟩ := hg.perform hallowed.1 hallowed.2 hrun
  have hlive : h.scheduler.Live idle := Or.inr (hg.custody.housed.idle idle hk.idle_eq)
  constructor
  · exact hg'
  · exact hsame.idle.trans hk.idle_eq
  · exact (hsame.tid idle hlive).trans hk.tid_eq
  · intro hdead
    rw [exitedTids_snoc, List.mem_append]
    rcases hsame.dead idle hdead with hold | ⟨rfl, hcall⟩
    · exact Or.inl (hk.cause hold)
    · have hcaller : (Event.between h call created h').caller = idleTid :=
        (callerTid_of_containing hg.here).trans hk.tid_eq
      have hretires : (Event.between h call created h').call = .retire := hcall
      rw [if_pos hretires, hcaller]
      exact Or.inr (List.mem_singleton_self _)

theorem Run.keeping (hbooted : h₀.Booted) (hrun : Run Sparing h₀ es h) :
    ∃ idle, h₀.scheduler.idle = some idle ∧ Keeping idle es h := by
  obtain ⟨main, idle, hafter⟩ := hbooted.after
  refine ⟨idle, hafter.idle_eq, ?_⟩
  induction hrun with
  | nil =>
      refine ⟨⟨main, hafter.orderly.guarded⟩, hafter.idle_eq, hafter.tid_idle, fun hdead => ?_⟩
      rw [hafter.none_dead] at hdead
      cases hdead
  | snoc _ hallowed hperforms ih => exact ih.snoc hallowed hperforms

/-- As long as nobody takes the idle thread back, no thread is without a block, and this is all that
it takes: the first call that takes the idle thread back leaves it without one. -/
theorem Run.watched (hbooted : h₀.Booted) (hrun : Run Sparing h₀ es h) : Watched h₀ es h := by
  obtain ⟨idle, hhandle, hk⟩ := hrun.keeping hbooted
  obtain ⟨r, hg⟩ := hk.guarded
  constructor
  · exact hg.sheltered hk.idle_eq hk.tid_eq
  · rw [hk.idle_eq, hhandle]
  · intro hdead
    unfold IdleSpared at hdead
    push Not at hdead
    obtain ⟨b, hb, hmem⟩ := hdead
    obtain rfl : idle = b := Option.some.inj (hk.idle_eq.symm.trans hb)
    exact hk.cause hmem
  · intro call created h' hlawful hperforms
    constructor
    · intro hsheltered
      by_contra htakes
      obtain ⟨b, hidle, hgone⟩ := hg.breach htakes hperforms
      obtain ⟨c, hc, hlive, -⟩ := hsheltered.idle
      obtain rfl : b = c := Option.some.inj (hidle.symm.trans hc)
      exact hgone hlive
    · intro hspares
      have hk' := hk.snoc ⟨hlawful, hspares⟩ hperforms
      obtain ⟨n, hg'⟩ := hk'.guarded
      exact hg'.sheltered hk'.idle_eq hk'.tid_eq

/-- The boot thread sleeps, and the idle thread creates a thread and exits. -/
def idleExitSample : List Event × Host :=
  play Sparing sample [.sleep 5, .create "a" 3 threadBody 7, .retire]

/-- Nothing is amiss then, but the next yield would take the idle thread back. -/
theorem watched_sample :
    sample.Booted ∧ Run Sparing sample idleExitSample.1 idleExitSample.2 ∧
      exitedTids idleExitSample.1 = [idleTid] ∧ ¬ Call.SparesIdle idleExitSample.2 .yieldNow ∧
      Watched sample idleExitSample.1 idleExitSample.2 :=
  ⟨booted_sample, Run.play _ _, by decide +kernel, by decide +kernel,
    Run.watched booted_sample (Run.play _ _)⟩

/-- The new thread yields, which takes the idle thread back. -/
def idleFreedSample : List Event × Host :=
  play Lawful idleExitSample.2 [.yieldNow]

/-- It blocks, and the scheduler falls back on the idle thread. -/
def freedDispatchedSample : List Event × Host :=
  play Lawful idleFreedSample.2 [.block]

/-- It creates another thread, which gets the block of the idle thread. -/
def reusedSample : List Event × Host :=
  play Lawful idleFreedSample.2 [.create "b" 3 threadBody 9]

theorem freed_idle_dispatched :
    sample.Booted ∧
      Run Lawful sample (idleExitSample.1 ++ idleFreedSample.1 ++ freedDispatchedSample.1)
        freedDispatchedSample.2 ∧
      Run Lawful sample (idleExitSample.1 ++ idleFreedSample.1 ++ reusedSample.1)
        reusedSample.2 ∧
      (idleExitSample.1 ++ idleFreedSample.1).map (fun e => (e.caller, e.call)) =
        [(1, .sleep 5), (2, .create "a" 3 threadBody 7), (2, .retire), (3, .yieldNow)] ∧
      freedDispatchedSample.1.map (fun e => (e.caller, e.call)) = [(3, .block)] ∧
      ¬ freedDispatchedSample.2.scheduler.Live (Block.base freedDispatchedSample.2.sp) ∧
      reusedSample.1.map (fun e => (e.caller, e.call)) = [(3, .create "b" 3 threadBody 9)] ∧
      (reusedSample.2.scheduler.idle.map fun b => (reusedSample.2.scheduler.threads.get b).tid) =
        some 4 := by
  have hexit : Run Lawful sample idleExitSample.1 idleExitSample.2 :=
    (Run.play sample _).mono fun _ _ hallowed => hallowed.1
  exact ⟨booted_sample, (hexit.append (Run.play _ _)).append (Run.play _ _),
    (hexit.append (Run.play _ _)).append (Run.play _ _), by decide +kernel, by decide +kernel,
    by decide +kernel, by decide +kernel, by decide +kernel⟩

end RoundRobin.Host
