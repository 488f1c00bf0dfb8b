import RoundRobin.Proofs.Scheduler.Settled

/-!
# Dispatch

The state in which a thread is left, and what a dispatch makes of it: the next thread runs on its
own stack, and the one that was left is parked.
-/

namespace RoundRobin.Scheduler

variable {s s' : Scheduler} {b n r sp sp' : Nat}

/-- The control block in `r` of a thread about to be left: it waits already, or it exits, and then
the destruction queue is empty. -/
def Leaving (s : Scheduler) (r : Nat) (t : Thread) : Prop :=
  (Waits s.idle s.initial r t ∧ t.status ≠ .dying) ∨
    (t.owner = .detached ∧ t.status = .dying ∧ t.wakeTick = none ∧ s.idle ≠ some r ∧
      s.destruction.members = [])

/-- `n` is the thread to dispatch: the head of the ready queue, or else the idle thread. -/
def Next (s : Scheduler) (n : Nat) : Prop :=
  s.ready.members.head?.or s.idle = some n

/-- A dispatch of `n` from the state `s`, in which `r` ran with the stack pointer `sp`. -/
inductive Dispatched (s : Scheduler) (sp r : Nat) : Scheduler → Nat → Nat → Prop
  /-- The thread that was left is the next one itself. -/
  | stay (next : s.Next r) : Dispatched s sp r (s.elect r) sp r
  /-- Another thread takes over. -/
  | switch {n : Nat} (next : s.Next n) (ne : r ≠ n) :
      Dispatched s sp r (((s.elect n).park r).saveStack r sp)
        (((s.elect n).park r).threads.get n).context.sp n

theorem pool_elect (s : Scheduler) (n : Nat) : (s.elect n).pool = s.pool := by
  rw [elect_def, dequeue_frame]
  rfl

theorem idle_elect (s : Scheduler) (n : Nat) : (s.elect n).idle = s.idle := by
  rw [elect_def, dequeue_frame]
  rfl

theorem destruction_elect (s : Scheduler) (n : Nat) : (s.elect n).destruction = s.destruction := by
  rw [elect_def, dequeue_frame]
  rfl

theorem park_of_not (h : ¬ ((s.threads.get r).status = .dying ∧ s.initial ≠ some r)) :
    s.park r = s :=
  if_neg h

theorem park_of (hdying : (s.threads.get r).status = .dying) (hmain : s.initial ≠ some r) :
    s.park r = s.bury r :=
  if_pos ⟨hdying, hmain⟩

theorem pool_park (s : Scheduler) (r : Nat) : (s.park r).pool = s.pool := by
  unfold park
  split <;> rfl

theorem idle_park (s : Scheduler) (r : Nat) : (s.park r).idle = s.idle := by
  unfold park
  split <;> rfl

theorem initial_park (s : Scheduler) (r : Nat) : (s.park r).initial = s.initial := by
  unfold park
  split <;> rfl

theorem get_park_of_ne (hne : b ≠ r) : (s.park r).threads.get b = s.threads.get b := by
  unfold park
  split
  · rw [get_bury, if_neg (Ne.symm hne)]
  · rfl

theorem get_saveStack (s : Scheduler) (r sp c : Nat) :
    (s.saveStack r sp).threads.get c =
      if r = c then { s.threads.get r with context.sp := sp } else s.threads.get c :=
  get_alter s r c _

theorem Next.cases (h : s.Next n) (hlinked : s.Linked) :
    (s.threads.get n).owner = .ready ∨ (s.ready.members = [] ∧ s.idle = some n) := by
  cases hmembers : s.ready.members with
  | nil =>
      refine Or.inr ⟨rfl, ?_⟩
      simpa [Next, hmembers] using h
  | cons b rest =>
      obtain rfl : b = n := by simpa [Next, hmembers] using h
      refine Or.inl ((hlinked.ready.mem_iff b).mp ?_)
      rw [hmembers]
      exact List.mem_cons_self

/-- The next thread is off all other queues and has no wake tick. -/
theorem Next.fit (h : s.Next n) (hlinked : s.Linked) {t : Thread} (ht : s.threads.get n = t)
    (hwaits : Waits s.idle s.initial n t) :
    t.wakeTick = none ∧ (s.ready.members = [] → t.owner = .detached) := by
  subst ht
  rcases h.cases hlinked with howner | ⟨hnil, hidle⟩
  · refine ⟨(hwaits.ready_of_owner howner).2, fun hnil => ?_⟩
    have hmem := (hlinked.ready.mem_iff n).mpr howner
    rw [hnil] at hmem
    cases hmem
  · have hready : (s.threads.get n).owner ≠ .ready := by
      intro howner
      have hmem := (hlinked.ready.mem_iff n).mpr howner
      rw [hnil] at hmem
      cases hmem
    obtain ⟨howner, htick⟩ := hwaits.detached_of_idle hidle hready
    exact ⟨htick, fun _ => howner⟩

namespace Settled

theorem live_of_next (h : s.Settled (s.Leaving r) r) (hnext : s.Next n) : s.Live n := by
  rcases hnext.cases h.linked with howner | ⟨-, hidle⟩
  · exact h.housed.owned n (by rw [howner]; decide)
  · exact Or.inr (h.housed.idle n hidle)

theorem waits_of_next (h : s.Settled (s.Leaving r) r) (hnext : s.Next n) :
    Waits s.idle s.initial n (s.threads.get n) := by
  by_cases hnr : n = r
  · subst hnr
    rcases h.here with ⟨hwaits, -⟩ | ⟨howner, -, -, hidle, -⟩
    · exact hwaits
    · rcases hnext.cases h.linked with hready | ⟨-, hidle'⟩
      · rw [howner] at hready
        cases hready
      · exact absurd hidle' hidle
  · exact (h.others n (h.live_of_next hnext) hnr).waits

/-- The next thread as it is dispatched. -/
theorem get_elect (h : s.Settled (s.Leaving r) r) (hnext : s.Next n) (c : Nat) :
    (s.elect n).threads.get c =
      if n = c then { (s.threads.get n).released with status := .running }
      else s.threads.get c :=
  h.linked.get_elect hnext (hnext.fit h.linked rfl (h.waits_of_next hnext)).2 c

theorem active_elect (h : s.Settled (s.Leaving r) r) (hnext : s.Next n) :
    Active ((s.elect n).threads.get n) := by
  rw [h.get_elect hnext, if_pos rfl]
  exact ⟨rfl, rfl, (hnext.fit h.linked rfl (h.waits_of_next hnext)).1⟩

theorem intact_next (h : s.Settled (s.Leaving r) r) (hnext : s.Next n) :
    (s.threads.get n).IsValid := by
  by_cases hnr : n = r
  · rw [hnr]
    exact h.intact
  · exact (h.others n (h.live_of_next hnext) hnr).intact

/-- The thread that was left is the next one itself and goes on. -/
theorem stay (h : s.Settled (s.Leaving r) r) (hnext : s.Next r) :
    (s.elect r).Settled Active r := by
  refine h.revise (h.linked.elect r) (pool_elect s r) (idle_elect s r) (initial_elect s r)
    (destruction_elect s r) ?_ ?_ (h.active_elect hnext)
  · intro b hne
    rw [h.get_elect hnext, if_neg (Ne.symm hne)]
  · rw [h.get_elect hnext, if_pos rfl]
    exact h.intact

/-- The thread that was left waits, once it is on the destruction queue if it has to be. -/
theorem leave (h : s.Settled (s.Leaving r) r) (hnext : s.Next n) (hne : r ≠ n) :
    ((s.elect n).park r).Linked ∧ ((s.elect n).park r).destruction.members.length ≤ 1 ∧
      (((s.elect n).park r).threads.get r).IsValid ∧
      Waits s.idle s.initial r (((s.elect n).park r).threads.get r) := by
  have hget : (s.elect n).threads.get r = s.threads.get r := by
    rw [h.get_elect hnext, if_neg (Ne.symm hne)]
  have hlinked := h.linked.elect n
  by_cases hpark : ((s.elect n).threads.get r).status = .dying ∧ (s.elect n).initial ≠ some r
  · obtain ⟨hdying, hmain⟩ := hpark
    rw [park_of hdying hmain]
    rw [initial_elect] at hmain
    rw [hget] at hdying
    obtain ⟨howner, -, htick, hidle, hempty⟩ : (s.threads.get r).owner = .detached ∧
        (s.threads.get r).status = .dying ∧ (s.threads.get r).wakeTick = none ∧
        s.idle ≠ some r ∧ s.destruction.members = [] :=
      h.here.resolve_left fun hwaits => hwaits.2 hdying
    have hbury : ((s.elect n).bury r).threads.get r =
        (s.threads.get r).claimedBy .destruction := by
      rw [get_bury, if_pos rfl, hget, hlinked.destruction.kind_eq]
    refine ⟨hlinked.bury (by rw [hget]; exact howner), ?_, ?_, ?_⟩
    · change ((s.elect n).destruction.members ++ [r]).length ≤ 1
      rw [destruction_elect, hempty]
      exact Nat.le_refl 1
    · rw [hbury]
      exact h.intact
    · rw [hbury]
      exact .dead rfl hdying htick hidle hmain
  · rw [park_of_not hpark, hget, destruction_elect]
    refine ⟨hlinked, h.dead, h.intact, ?_⟩
    rw [hget, initial_elect] at hpark
    rcases h.here with ⟨hwaits, -⟩ | ⟨howner, hdying, htick, -⟩
    · exact hwaits
    · have hmain : s.initial = some r := by
        by_contra hmain
        exact hpark ⟨hdying, hmain⟩
      exact .exited howner hdying htick hmain

theorem books_switch (s : Scheduler) (n r sp : Nat) :
    (((s.elect n).park r).saveStack r sp).pool = s.pool ∧
      (((s.elect n).park r).saveStack r sp).idle = s.idle ∧
      (((s.elect n).park r).saveStack r sp).initial = s.initial :=
  ⟨(pool_park _ r).trans (pool_elect s n), (idle_park _ r).trans (idle_elect s n),
    (initial_park _ r).trans (initial_elect s n)⟩

/-- Of the threads that stay, a switch is about the next one only. -/
theorem get_switch (s : Scheduler) (n sp : Nat) {c : Nat} (hcr : c ≠ r) :
    (((s.elect n).park r).saveStack r sp).threads.get c = (s.elect n).threads.get c := by
  rw [get_saveStack, if_neg (Ne.symm hcr), get_park_of_ne hcr]

theorem housed_switch (h : s.Settled (s.Leaving r) r) (hnext : s.Next n) :
    (((s.elect n).park r).saveStack r sp).Housed := by
  obtain ⟨hpool, hidle, hinitial⟩ := books_switch s n r sp
  refine h.housed.congr hpool hidle hinitial ?_
  intro c hc
  by_cases hcr : c = r
  · rw [hcr]
    exact h.live
  · rw [get_switch s n sp hcr, h.get_elect hnext] at hc
    split at hc
    · next hn =>
        rw [← hn]
        exact h.live_of_next hnext
    · exact h.housed.owned c hc

/-- Another thread takes over on its own stack. -/
theorem switch (h : s.Settled (s.Leaving r) r) (hnext : s.Next n) (hne : r ≠ n)
    (hsp : Block.containing sp = .ok r) :
    (((s.elect n).park r).saveStack r sp).Settled Active n ∧
      Block.containing (((s.elect n).park r).threads.get n).context.sp = .ok n := by
  obtain ⟨hlinked, hdead, hintact, hwaits⟩ := h.leave hnext hne
  obtain ⟨hpool, hidle, hinitial⟩ := books_switch s n r sp
  have hlive := h.live_of_next hnext
  have hn := get_switch s n sp (Ne.symm hne)
  refine ⟨?_, ?_⟩
  · exact {
      linked := hlinked.alter rfl rfl fun _ => rfl
      housed := h.housed_switch hnext
      dead := hdead
      live := (live_congr hpool hinitial).mpr hlive
      intact := by
        rw [hn, h.get_elect hnext, if_pos rfl]
        exact h.intact_next hnext
      here := by
        rw [hn]
        exact h.active_elect hnext
      others := by
        intro c hc hcn
        by_cases hcr : c = r
        · subst hcr
          refine ⟨?_, ?_, ?_⟩
          · rw [get_saveStack, if_pos rfl]
            exact hintact
          · rw [get_saveStack, if_pos rfl]
            exact hsp
          · rw [get_saveStack, if_pos rfl, hidle, hinitial]
            exact hwaits.congr rfl rfl rfl
        · have hsame := get_switch s n sp hcr
          rw [h.get_elect hnext, if_neg (Ne.symm hcn)] at hsame
          exact (h.others c ((live_congr hpool hinitial).mp hc) hcr).congr hsame hidle hinitial }
  · rw [get_park_of_ne (Ne.symm hne), h.get_elect hnext, if_pos rfl]
    exact (h.others n hlive (Ne.symm hne)).stack

end Settled

/-- After a dispatch the thread that was chosen runs, and all others are parked. -/
theorem Dispatched.settled (hd : Dispatched s sp r s' sp' n) (h : s.Settled (s.Leaving r) r)
    (hsp : Block.containing sp = .ok r) :
    s'.Settled Active n ∧ Block.containing sp' = .ok n := by
  cases hd with
  | stay hnext => exact ⟨h.stay hnext, hsp⟩
  | switch hnext hne => exact h.switch hnext hne hsp

end RoundRobin.Scheduler
