import RoundRobin.Proofs.Scheduler.Change

/-!
# Queues and tags

Every queue has exactly the threads that carry its tag, and the sleepers stand in wake order. Each
change of the scheduling state keeps this.
-/

namespace RoundRobin.Scheduler

variable {s s' : Scheduler} {b : Nat}

/-- The queues agree with the tags in the control blocks, and the sleep queue is in order. -/
structure Linked (s : Scheduler) : Prop where
  ready : s.ready.Tracks .ready s.threads
  sleep : s.sleepers.queue.Tracks .sleep s.threads
  destruction : s.destruction.Tracks .destruction s.threads
  tidy : ∀ b, (s.threads.get b).Tidy
  ascending : s.sleepers.Ascending s.threads

namespace Linked

theorem tidy_modify (h : ∀ b, (s.threads.get b).Tidy) {f : Thread → Thread}
    (hf : (f (s.threads.get b)).Tidy) (c : Nat) : ((s.threads.modify b f).get c).Tidy := by
  rw [Memory.get_modify]
  split
  · exact hf
  · exact h c

/-- Queues and control blocks read the same as before. -/
theorem congr (h : s.Linked) (hready : s'.ready = s.ready) (hsleep : s'.sleepers = s.sleepers)
    (hdestruction : s'.destruction = s.destruction)
    (hget : ∀ b, s'.threads.get b = s.threads.get b) : s'.Linked where
  ready := by
    rw [hready]
    exact h.ready.congr fun b => by rw [hget]
  sleep := by
    rw [hsleep]
    exact h.sleep.congr fun b => by rw [hget]
  destruction := by
    rw [hdestruction]
    exact h.destruction.congr fun b => by rw [hget]
  tidy b := by
    rw [hget]
    exact h.tidy b
  ascending := by
    rw [hsleep]
    exact h.ascending.congr fun b _ => by rw [hget]

/-- A change that keeps the owner and the link of a thread, and its wake tick if it sleeps. -/
theorem alter (h : s.Linked) {f : Thread → Thread}
    (howner : (f (s.threads.get b)).owner = (s.threads.get b).owner)
    (hlinked : (f (s.threads.get b)).linked = (s.threads.get b).linked)
    (hwake : (s.threads.get b).owner = .sleep →
      (f (s.threads.get b)).wake = (s.threads.get b).wake) :
    (s.alter b f).Linked where
  ready := h.ready.modify (by rw [howner])
  sleep := h.sleep.modify (by rw [howner])
  destruction := h.destruction.modify (by rw [howner])
  tidy := by
    apply tidy_modify h.tidy
    rw [Thread.Tidy, howner, hlinked]
    exact h.tidy b
  ascending := by
    apply h.ascending.congr
    intro c hc
    change ((s.threads.modify b f).get c).wake = _
    rw [Memory.get_modify]
    split
    · next heq =>
        subst heq
        exact hwake ((h.sleep.mem_iff b).mp hc)
    · rfl

theorem mark (h : s.Linked) (b : Nat) (status : Status) : (s.mark b status).Linked :=
  h.alter rfl rfl fun _ => rfl

theorem enqueue (h : s.Linked) (hfree : (s.threads.get b).owner = .detached) :
    (s.enqueue b).Linked := by
  unfold Scheduler.enqueue
  rw [h.ready.kind_eq]
  exact {
    ready := h.ready.append (by decide) hfree
    sleep := h.sleep.claimedBy (by decide) (by decide) hfree
    destruction := h.destruction.claimedBy (by decide) (by decide) hfree
    tidy := tidy_modify h.tidy (Thread.tidy_claimedBy (by decide) _)
    ascending := h.ascending.modify rfl }

theorem bury (h : s.Linked) (hfree : (s.threads.get b).owner = .detached) :
    (s.bury b).Linked := by
  unfold Scheduler.bury
  rw [h.destruction.kind_eq]
  exact {
    ready := h.ready.claimedBy (by decide) (by decide) hfree
    sleep := h.sleep.claimedBy (by decide) (by decide) hfree
    destruction := h.destruction.append (by decide) hfree
    tidy := tidy_modify h.tidy (Thread.tidy_claimedBy (by decide) _)
    ascending := h.ascending.modify rfl }

theorem shelve (h : s.Linked) (hfree : (s.threads.get b).owner = .detached) {wake : Nat}
    (hwake : (s.threads.get b).wakeTick = some wake) : (s.shelve b wake).Linked := by
  have hw : wake = (s.threads.get b).wake := by rw [Thread.wake, hwake]; rfl
  unfold Scheduler.shelve
  rw [h.sleep.kind_eq]
  exact {
    ready := h.ready.claimedBy (by decide) (by decide) hfree
    sleep := h.sleep.insertBehind (by decide) hfree _
    destruction := h.destruction.claimedBy (by decide) (by decide) hfree
    tidy := tidy_modify h.tidy (Thread.tidy_claimedBy (by decide) _)
    ascending := by
      subst hw
      exact h.ascending.insertBehind.modify rfl }

theorem putToSleep (h : s.Linked) (hfree : (s.threads.get b).owner = .detached) (wake : Nat) :
    (s.putToSleep b wake).Linked := by
  refine Linked.shelve (h.alter rfl rfl fun hsleep => ?_) ?_ ?_
  · rw [hfree] at hsleep
    cases hsleep
  · rw [get_alter, if_pos rfl]
    exact hfree
  · rw [get_alter, if_pos rfl]

theorem dequeue (h : s.Linked) : s.dequeue.Linked := by
  cases hmembers : s.ready.members with
  | nil => rwa [dequeue_of_nil hmembers]
  | cons b rest =>
      have howner : (s.threads.get b).owner = .ready :=
        (h.ready.mem_iff b).mp (by rw [hmembers]; exact List.mem_cons_self)
      simp only [Scheduler.dequeue, hmembers]
      exact {
        ready := h.ready.behead (by decide) hmembers
        sleep := h.sleep.released (by decide) (by rw [howner]; decide)
        destruction := h.destruction.released (by decide) (by rw [howner]; decide)
        tidy := tidy_modify h.tidy (Thread.tidy_released _)
        ascending := h.ascending.modify rfl }

theorem exhume (h : s.Linked) {rest : List Nat} (hmembers : s.destruction.members = b :: rest) :
    (s.exhume b).Linked := by
  have howner : (s.threads.get b).owner = .destruction :=
    (h.destruction.mem_iff b).mp (by rw [hmembers]; exact List.mem_cons_self)
  exact {
    ready := h.ready.released (by decide) (by rw [howner]; decide)
    sleep := h.sleep.released (by decide) (by rw [howner]; decide)
    destruction := h.destruction.behead (by decide) hmembers
    tidy := tidy_modify h.tidy (Thread.tidy_released _)
    ascending := h.ascending.modify rfl }

theorem unshelve (h : s.Linked) {rest : List Nat}
    (hmembers : s.sleepers.queue.members = b :: rest) : (s.unshelve b).Linked := by
  have howner : (s.threads.get b).owner = .sleep :=
    (h.sleep.mem_iff b).mp (by rw [hmembers]; exact List.mem_cons_self)
  exact {
    ready := h.ready.released (by decide) (by rw [howner]; decide)
    sleep := h.sleep.behead (by decide) hmembers
    destruction := h.destruction.released (by decide) (by rw [howner]; decide)
    tidy := tidy_modify h.tidy (Thread.tidy_released _)
    ascending := h.ascending.behead.modify rfl }

theorem rouse (h : s.Linked) {rest : List Nat}
    (hmembers : s.sleepers.queue.members = b :: rest) : (s.rouse b).Linked := by
  have howner : ((s.unshelve b).threads.get b).owner = .detached := by
    rw [get_unshelve, if_pos rfl]
    rfl
  have hsleep : ((s.unshelve b).threads.get b).owner ≠ .sleep := by
    rw [howner]
    decide
  refine Linked.mark (Linked.enqueue ((h.unshelve hmembers).alter rfl rfl ?_) ?_) b .ready
  · exact fun heq => absurd heq hsleep
  · rw [get_alter, if_pos rfl]
    exact howner

theorem elect (h : s.Linked) (n : Nat) : (s.elect n).Linked :=
  (h.dequeue.mark n .running).congr rfl rfl rfl fun _ => rfl

/-- A dispatch touches only the thread that is dispatched. -/
theorem get_elect (h : s.Linked) {n : Nat}
    (hnext : s.ready.members.head?.or s.idle = some n)
    (hfree : s.ready.members = [] → (s.threads.get n).owner = .detached) (c : Nat) :
    (s.elect n).threads.get c =
      if n = c then { (s.threads.get n).released with status := .running }
      else s.threads.get c := by
  change ((s.dequeue.mark n .running).threads.get c) = _
  rw [get_mark]
  cases hmembers : s.ready.members with
  | nil =>
      obtain ⟨howner, hlinked⟩ := (h.tidy n).free (hfree hmembers)
      rw [dequeue_of_nil hmembers, Thread.released, ← howner, ← hlinked]
  | cons b rest =>
      obtain rfl : b = n := by simpa [hmembers] using hnext
      rw [get_dequeue_of_cons hmembers, get_dequeue_of_cons hmembers, if_pos rfl]
      split <;> rfl

end Linked

end RoundRobin.Scheduler
