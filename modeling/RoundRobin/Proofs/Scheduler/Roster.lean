import RoundRobin.Proofs.Scheduler.Books
import RoundRobin.Proofs.Scheduler.Frame

/-!
# The scheduler as plain lists

A machine of four lists, `Roster`, that knows of threads nothing but their order, and what each
action does to it. The main statement, `Step.roster_eq`, says that every step of the scheduling
state is the step of this machine.
-/

namespace RoundRobin

open Scheduler

/-- Who runs and who waits where. Threads are named by their blocks. -/
structure Roster where
  /-- The thread that runs. -/
  running : Nat
  /-- The threads that are ready, in the order in which they will run. -/
  ready : List Nat
  /-- The sleeping threads behind their wake ticks, in the order in which they will be woken. -/
  asleep : List (Nat × Nat)
  /-- The exited threads that are still to be taken back. -/
  dead : List Nat
  deriving DecidableEq

namespace Roster

/-- Nobody waits. -/
def solo (running : Nat) : Roster :=
  { running, ready := [], asleep := [], dead := [] }

/-- The head of the ready list runs, or the idle thread if the list is empty. -/
def dispatch (idle : Nat) (m : Roster) : Roster :=
  match m.ready with
  | [] => { m with running := idle }
  | t :: rest => { m with running := t, ready := rest }

/-- The exited threads are taken back. -/
def drain (m : Roster) : Roster :=
  { m with dead := [] }

/-- `t` comes last among the threads that are ready. -/
def append (t : Nat) (m : Roster) : Roster :=
  { m with ready := m.ready ++ [t] }

/-- The running thread comes last among those that are ready, unless it is the idle thread, and
the next one runs. -/
def yield (idle : Nat) (m : Roster) : Roster :=
  if m.running = idle then m.drain.dispatch idle
  else (m.drain.append m.running).dispatch idle

/-- The running thread comes behind all sleepers that wake at `wake` or before, and the next one
runs. -/
def sleep (idle wake : Nat) (m : Roster) : Roster :=
  let sooner := m.asleep.filter fun entry => entry.1 ≤ wake
  let later := m.asleep.filter fun entry => wake < entry.1
  dispatch idle { m with asleep := sooner ++ (wake, m.running) :: later }

/-- The next thread runs, and the one that ran before is dead unless it is the boot thread. -/
def exit (idle main : Nat) (m : Roster) : Roster :=
  let next := m.drain.dispatch idle
  if m.running = main then next else { next with dead := next.dead ++ [m.running] }

/-- The sleepers that are due at the tick `now` come last among the threads that are ready. -/
def release (now : Nat) (m : Roster) : Roster :=
  { m with
    ready := m.ready ++ (m.asleep.filter fun entry => entry.1 ≤ now).map fun entry => entry.2
    asleep := m.asleep.filter fun entry => now < entry.1 }

/-- What an action at the tick `now` does to the lists. -/
def obey (idle main now : Nat) (m : Roster) : Action → Roster
  | .count => m
  | .unblock t => m.append t
  | .create t => m.append t
  | .yield => m.yield idle
  | .block => m.dispatch idle
  | .sleep wake => m.sleep idle wake
  | .exit => m.exit idle main
  | .wake due => m.release due
  | .interrupt => m.release (now + 1)

theorem filter_le_eq_takeWhile {α : Type} {f : α → Nat} {l : List α} (wake : Nat)
    (h : l.Pairwise fun a b => f a ≤ f b) :
    l.filter (f · ≤ wake) = l.takeWhile (f · ≤ wake) ∧
      l.filter (wake < f ·) = l.dropWhile (f · ≤ wake) := by
  induction l with
  | nil => exact ⟨rfl, rfl⟩
  | cons a rest ih =>
      obtain ⟨hfirst, hrest⟩ := List.pairwise_cons.mp h
      obtain ⟨htake, hdrop⟩ := ih hrest
      by_cases ha : f a ≤ wake
      · simp [ha, Nat.not_lt.mpr ha, htake, hdrop]
      · have hlater : ∀ b ∈ rest, wake < f b := fun b hb => by
          have := hfirst b hb
          omega
        have hnone : rest.filter (f · ≤ wake) = [] := by
          rw [List.filter_eq_nil_iff]
          intro b hb
          simpa using hlater b hb
        have hall : rest.filter (wake < f ·) = rest := by
          rw [List.filter_eq_self]
          intro b hb
          simpa using hlater b hb
        simp [ha, Nat.not_le.mp ha, hnone, hall]

end Roster

namespace Scheduler

variable {s s' s₁ : Scheduler} {P : Thread → Prop} {b r n sp sp' now idle main : Nat}

/-- The sleepers behind their wake ticks. -/
def asleep (s : Scheduler) : List (Nat × Nat) :=
  s.sleepers.queue.members.map fun b => ((s.threads.get b).wake, b)

/-- The lists of the scheduler while the thread in `r` runs. -/
def roster (s : Scheduler) (r : Nat) : Roster where
  running := r
  ready := s.ready.members
  asleep := s.asleep
  dead := s.destruction.members

/-- The sleep queue and all wake ticks are the same. -/
structure SameSleepers (s s' : Scheduler) : Prop where
  sleepers : s'.sleepers = s.sleepers
  wake : ∀ b, (s'.threads.get b).wake = (s.threads.get b).wake

namespace SameSleepers

theorem refl (s : Scheduler) : SameSleepers s s :=
  ⟨rfl, fun _ => rfl⟩

theorem trans (h : SameSleepers s s₁) (h' : SameSleepers s₁ s') : SameSleepers s s' :=
  ⟨h'.sleepers.trans h.sleepers, fun b => (h'.wake b).trans (h.wake b)⟩

/-- One control block changes and keeps its wake tick. -/
theorem modify {f : Thread → Thread} (hsleepers : s'.sleepers = s.sleepers)
    (hthreads : s'.threads = s.threads.modify b f) (hf : ∀ t, (f t).wake = t.wake) :
    SameSleepers s s' := by
  refine ⟨hsleepers, ?_⟩
  intro c
  rw [hthreads]
  exact Memory.apply_get_modify Thread.wake (hf _) c

theorem asleep_eq (h : SameSleepers s s') : s'.asleep = s.asleep := by
  rw [asleep, asleep, h.sleepers]
  exact List.map_congr_left fun b _ => by rw [h.wake]

theorem alter (s : Scheduler) (b : Nat) {f : Thread → Thread} (hf : ∀ t, (f t).wake = t.wake) :
    SameSleepers s (s.alter b f) :=
  modify rfl rfl hf

theorem mark (s : Scheduler) (b : Nat) (status : Status) : SameSleepers s (s.mark b status) :=
  alter s b fun _ => rfl

theorem enqueue (s : Scheduler) (b : Nat) : SameSleepers s (s.enqueue b) :=
  modify rfl rfl fun _ => rfl

theorem exhume (s : Scheduler) (b : Nat) : SameSleepers s (s.exhume b) :=
  modify rfl rfl fun _ => rfl

theorem elect (s : Scheduler) (n : Nat) : SameSleepers s (s.elect n) := by
  refine ⟨?_, ?_⟩
  · rw [elect_def, dequeue_frame]
    rfl
  · intro c
    have hmark : ((s.elect n).threads.get c).wake = (s.dequeue.threads.get c).wake :=
      (mark s.dequeue n .running).wake c
    rw [hmark]
    rcases s.get_dequeue c with h | h <;> rw [h]
    rfl

theorem park (s : Scheduler) (r : Nat) : SameSleepers s (s.park r) := by
  unfold Scheduler.park
  split
  · exact modify rfl rfl fun _ => rfl
  · exact refl s

theorem saveStack (s : Scheduler) (r sp : Nat) : SameSleepers s (s.saveStack r sp) :=
  alter s r fun _ => rfl

end SameSleepers

theorem roster_mark (s : Scheduler) (b : Nat) (status : Status) (r : Nat) :
    (s.mark b status).roster r = s.roster r := by
  rw [roster, (SameSleepers.mark s b status).asleep_eq]
  rfl

theorem roster_enqueue (s : Scheduler) (b r : Nat) :
    (s.enqueue b).roster r = (s.roster r).append b := by
  rw [roster, (SameSleepers.enqueue s b).asleep_eq]
  rfl

theorem roster_makeReady (s : Scheduler) (b r : Nat) :
    (s.makeReady b).roster r = (s.roster r).append b := by
  rw [makeReady, roster_mark, roster_enqueue]

theorem Reclaimed.roster_eq (h : Reclaimed s s') (r : Nat) :
    s'.roster r = (s.roster r).drain := by
  cases h with
  | none hempty => simp only [roster, Roster.drain, hempty]
  | @one b k honly =>
      have hempty : (s.reap b (s.pool.vacated k)).destruction.members = [] := by
        simp [reap, exhume, Queue.behead, honly]
      have hasleep : (s.reap b (s.pool.vacated k)).asleep = s.asleep :=
        (SameSleepers.exhume s b).asleep_eq
      rw [roster, hempty, hasleep]
      rfl

theorem ready_elect (s : Scheduler) (n : Nat) :
    (s.elect n).ready.members = s.ready.members.tail := by
  change s.dequeue.ready.members = _
  unfold dequeue
  split
  · next hnil => rw [hnil]; rfl
  · rfl

theorem Dispatched.sameSleepers (hd : Dispatched s sp r s' sp' n) : SameSleepers s s' := by
  cases hd with
  | stay => exact .elect s r
  | switch => exact ((SameSleepers.elect s n).trans (.park _ r)).trans (.saveStack _ r sp)

theorem ready_park (s : Scheduler) (r : Nat) : (s.park r).ready = s.ready := by
  unfold park
  split <;> rfl

theorem Dispatched.ready_eq (hd : Dispatched s sp r s' sp' n) :
    s'.ready.members = s.ready.members.tail := by
  cases hd with
  | stay => exact ready_elect s r
  | switch =>
      change ((s.elect n).park r).ready.members = _
      rw [ready_park, ready_elect]

theorem Dispatched.next (hd : Dispatched s sp r s' sp' n) : s.Next n := by
  cases hd with
  | stay hnext => exact hnext
  | switch hnext => exact hnext

/-- A dispatch is one of the list machine, but for a thread that exits with a block of the pool:
that one is dead after it. -/
theorem Dispatched.roster_eq (hd : Dispatched s sp r s' sp' n) (h : s.Settled (s.Leaving r) r)
    (hidle : s.idle = some idle) :
    s'.roster n =
      if (s.threads.get r).status = .dying ∧ s.initial ≠ some r then
        { (s.roster r).dispatch idle with dead := s.destruction.members ++ [r] }
      else (s.roster r).dispatch idle := by
  have hnext := hd.next
  have hready := hd.ready_eq
  rw [roster, hready, hd.sameSleepers.asleep_eq, hd.destruction_eq h]
  rw [Next, hidle] at hnext
  cases hmembers : s.ready.members with
  | nil =>
      obtain rfl : idle = n := by simpa [hmembers] using hnext
      simp only [Roster.dispatch, roster, hmembers]
      split <;> rfl
  | cons t rest =>
      obtain rfl : t = n := by simpa [hmembers] using hnext
      simp only [Roster.dispatch, roster, hmembers]
      split <;> rfl

/-- A thread that runs is not on the sleep queue. -/
theorem Settled.ne_of_mem_sleepers (h : s.Settled Active r)
    (hb : b ∈ s.sleepers.queue.members) : r ≠ b := by
  rintro rfl
  have howner := (h.linked.sleep.mem_iff r).mp hb
  rw [h.here.owner] at howner
  cases howner

theorem wake_putToSleep (s : Scheduler) (r wake b : Nat) :
    ((s.putToSleep r wake).threads.get b).wake =
      if r = b then wake else (s.threads.get b).wake := by
  rw [get_putToSleep]
  split <;> rfl

/-- The sleep queue after `r` has gone to sleep. -/
theorem Settled.sleepers_putToSleep (h : s.Settled Active r) (wake : Nat) :
    (s.putToSleep r wake).sleepers.queue.members =
      (s.sleepers.queue.members.filter fun b => (s.threads.get b).wake ≤ wake) ++
        r :: s.sleepers.queue.members.filter fun b => wake < (s.threads.get b).wake := by
  let set : Scheduler := s.alter r fun c => { c with wakeTick := some wake }
  have hset : ∀ b ∈ s.sleepers.queue.members,
      (set.threads.get b).wake = (s.threads.get b).wake := by
    intro b hb
    rw [get_alter, if_neg (h.ne_of_mem_sleepers hb)]
  obtain ⟨htake, hdrop⟩ := Roster.filter_le_eq_takeWhile wake (h.linked.ascending.congr hset)
  calc (s.putToSleep r wake).sleepers.queue.members
      = (s.sleepers.queue.members.takeWhile fun b => (set.threads.get b).wake ≤ wake) ++
          r :: s.sleepers.queue.members.dropWhile fun b => (set.threads.get b).wake ≤ wake := rfl
    _ = (s.sleepers.queue.members.filter fun b => (set.threads.get b).wake ≤ wake) ++
          r :: s.sleepers.queue.members.filter fun b => wake < (set.threads.get b).wake := by
        rw [htake, hdrop]
    _ = _ := by
        congr 1
        · exact List.filter_congr fun b hb => by rw [hset b hb]
        · congr 1
          exact List.filter_congr fun b hb => by rw [hset b hb]

/-- A thread that goes to sleep comes behind all sleepers that wake at the same tick or before. -/
theorem Settled.asleep_putToSleep (h : s.Settled Active r) (wake : Nat) :
    (s.putToSleep r wake).asleep =
      (s.asleep.filter fun entry => entry.1 ≤ wake) ++
        (wake, r) :: s.asleep.filter fun entry => wake < entry.1 := by
  have hother : ∀ p : Nat → Bool, ∀ b ∈ s.sleepers.queue.members.filter p,
      (((s.putToSleep r wake).threads.get b).wake, b) = ((s.threads.get b).wake, b) := by
    intro p b hb
    rw [wake_putToSleep, if_neg (h.ne_of_mem_sleepers (List.mem_of_mem_filter hb))]
  rw [asleep, h.sleepers_putToSleep, List.map_append, List.map_cons, wake_putToSleep, if_pos rfl,
    asleep, List.filter_map, List.filter_map, List.map_congr_left (hother _),
    List.map_congr_left (hother _)]
  rfl

theorem asleep_of_cons {rest : List Nat} (hmembers : s.sleepers.queue.members = b :: rest) :
    s.asleep = ((s.threads.get b).wake, b) ::
      rest.map fun c => ((s.threads.get c).wake, c) := by
  rw [asleep, hmembers, List.map_cons]

/-- The sleepers are woken in the order of their wake ticks, and no other ones. -/
theorem Woken.roster_eq (hw : Woken now s s') (h : s.Settled Active r) :
    s'.roster r = (s.roster r).release now := by
  induction hw with
  | @done s hnot =>
      have hlater : ∀ x ∈ s.asleep, now < x.1 := by
        intro x hx
        obtain ⟨b, hb, rfl⟩ := List.mem_map.mp hx
        have howner := (h.linked.sleep.mem_iff b).mp hb
        obtain ⟨wake, hwake⟩ := Option.ne_none_iff_exists'.mp (h.asleep_of_owner howner).2.1
        by_contra hdue
        refine hnot (h.due_of_asleep howner hwake ?_)
        simp only [Thread.wake, hwake, Option.getD_some] at hdue
        omega
      have hnone : s.asleep.filter (·.1 ≤ now) = [] := by
        rw [List.filter_eq_nil_iff]
        intro x hx
        simpa using hlater x hx
      have hall : s.asleep.filter (now < ·.1) = s.asleep := by
        rw [List.filter_eq_self]
        intro x hx
        simpa using hlater x hx
      simp [roster, Roster.release, hnone, hall]
  | @next s s' b wake rest hfirst htick hdue hrest ih =>
      have hnodup := h.linked.sleep.nodup
      rw [hfirst, List.nodup_cons] at hnodup
      have hasleep : (s.rouse b).asleep = rest.map fun c => ((s.threads.get c).wake, c) := by
        have hmembers : (s.rouse b).sleepers.queue.members = rest := by
          change s.sleepers.queue.members.tail = rest
          rw [hfirst]
          rfl
        rw [asleep, hmembers]
        apply List.map_congr_left
        intro c hc
        have hne : c ≠ b := by
          rintro rfl
          exact hnodup.1 hc
        rw [get_rouse_of_ne hne]
      have hready : (s.rouse b).ready.members = s.ready.members ++ [b] := rfl
      have hdead : (s.rouse b).destruction.members = s.destruction.members := rfl
      have hhead : (s.threads.get b).wake = wake := by
        rw [Thread.wake, htick]
        rfl
      rw [ih (h.rouse_active hfirst)]
      simp [roster, Roster.release, hasleep, hready, hdead, asleep_of_cons hfirst, hhead, hdue,
        Nat.not_lt.mpr hdue]

theorem roster_advance (s : Scheduler) (stats : TickStats) (sliceTicks r : Nat) :
    ((s.advance.withStats stats).withSlice sliceTicks).roster r = s.roster r := rfl

/-- A new thread comes last among those that are ready. -/
theorem Settled.roster_created (h : s.Settled P r) {k : Nat}
    (hk : s.pool.busy[k]? = some false) (t : Thread) (context : Context) :
    ((s.spawned k t context).makeReady (s.pool.slotAddress k)).roster r =
      (s.roster r).append (s.pool.slotAddress k) := by
  have hframe := h.spawned_frame hk t context
  have hasleep : (s.spawned k t context).asleep = s.asleep := by
    have hmembers : (s.spawned k t context).sleepers.queue.members =
        s.sleepers.queue.members := by
      rw [hframe]
    rw [asleep, asleep, hmembers]
    apply List.map_congr_left
    intro b hb
    have howner := (h.linked.sleep.mem_iff b).mp hb
    have hlive := h.housed.owned b (howner.trans_ne (by decide))
    have hne : s.pool.slotAddress k ≠ b := fun heq => h.not_live_of_free hk (heq ▸ hlive)
    rw [get_spawned, if_neg hne]
  rw [roster_makeReady, roster, hasleep]
  have hready : (s.spawned k t context).ready = s.ready := by rw [hframe]
  have hdead : (s.spawned k t context).destruction = s.destruction := by rw [hframe]
  rw [hready, hdead]
  rfl

/-- A thread that does not exit is left, and the next one runs. -/
theorem Dispatched.roster_eq_of_stays (hd : Dispatched s sp r s' sp' n)
    (h : s.Settled (s.Leaving r) r) (hidle : s.idle = some idle)
    (hstays : (s.threads.get r).status ≠ .dying) : s'.roster n = (s.roster r).dispatch idle := by
  rw [hd.roster_eq h hidle, if_neg fun hdies => hstays hdies.1]

theorem status_mark (s : Scheduler) (b : Nat) (status : Status) :
    ((s.mark b status).threads.get b).status = status := by
  rw [get_mark, if_pos rfl]

/-- Giving up the processor is what the list machine says it is. -/
theorem Departs.roster_eq {a : Action} (hdeparts : Departs s r a s₁)
    (hdispatched : Dispatched s₁ sp r s' sp' n) (h : s.Settled Active r)
    (hidle : s.idle = some idle) (hmain : s.initial = some main) :
    s'.roster n = (s.roster r).obey idle main now a := by
  have hleft := hdeparts.settled h
  have hself : s₁.idle = some idle := hdeparts.idle_eq.trans hidle
  cases hdeparts with
  | @idles s₁ hidles hback =>
      have hr : r = idle := Option.some.inj (hidles.symm.trans hidle)
      rw [hdispatched.roster_eq_of_stays hleft hself (by simp [status_mark]), roster_mark,
        hback.roster_eq]
      exact (if_pos hr).symm
  | @yields s₁ hother hback =>
      have hr : r ≠ idle := fun heq => hother (heq ▸ hidle)
      rw [hdispatched.roster_eq_of_stays hleft hself (by simp [status_mark]), roster_mark,
        hback.roster_eq, roster_enqueue]
      exact (if_neg hr).symm
  | blocks =>
      rw [hdispatched.roster_eq_of_stays hleft hself (by simp [status_mark]), roster_mark]
      rfl
  | @sleeps wake hother =>
      rw [hdispatched.roster_eq_of_stays hleft hself (by simp [status_mark]), roster_mark, roster,
        h.asleep_putToSleep]
      rfl
  | @exits s₁ hother hback =>
      have hinitial : (s₁.mark r .dying).initial = some main := hback.initial_eq.trans hmain
      rw [hdispatched.roster_eq hleft hself, status_mark, hinitial, roster_mark, hback.roster_eq]
      by_cases hr : r = main
      · rw [if_neg fun hdies => hdies.2 (by rw [hr])]
        exact (if_pos hr).symm
      · have hne : some main ≠ some r := fun heq => hr (Option.some.inj heq).symm
        have hempty : (s₁.mark r .dying).destruction.members = [] := hback.destruction_eq
        rw [if_pos ⟨rfl, hne⟩, hempty]
        refine Eq.trans ?_ (if_neg hr).symm
        simp only [Roster.dispatch, Roster.drain, roster]
        split <;> rfl

/-- Every step of the scheduling state is a step of the list machine. -/
theorem Step.roster_eq {a : Action} (hstep : Step s sp r a s' sp' n) (h : s.Settled Active r)
    (hidle : s.idle = some idle) (hmain : s.initial = some main) :
    s'.roster n = (s.roster r).obey idle main s.ticks a := by
  cases hstep with
  | counted => rfl
  | prioritised priority =>
      have hsame : SameSleepers s (s.alter r fun t => { t with priority }) :=
        .alter s r fun _ => rfl
      rw [roster, hsame.asleep_eq]
      rfl
  | @unblocked b => exact roster_makeReady s b r
  | @created k t context hslot =>
      exact h.roster_created (Pool.busy_of_freeSlot? hslot) t context
  | departed hdeparts hdispatched => exact hdeparts.roster_eq hdispatched h hidle hmain
  | woke hwoken => exact hwoken.roster_eq h
  | interrupted stats sliceTicks hwoken =>
      rw [hwoken.roster_eq (h.advance.counted stats sliceTicks), roster_advance]
      rfl

end Scheduler

end RoundRobin
