import Mathlib.Data.List.Nodup
import RoundRobin.Queue.Sleep

/-!
# Members and tags of queues

What each queue operation does when it succeeds, and the relation `Queue.Tracks` between a queue
and the tags in the control blocks, which every operation keeps.
-/

namespace RoundRobin

namespace Thread

/-- The control block once the queue `kind` owns its link. -/
def claimedBy (kind : Owner) (c : Thread) : Thread :=
  { c with owner := kind, linked := true }

/-- The control block once its link is given up. -/
def released (c : Thread) : Thread :=
  { c with owner := .detached, linked := false }

/-- The link is on no list and nobody owns it. -/
def Free (c : Thread) : Prop :=
  c.owner = .detached ∧ c.linked = false

/-- The link is in use exactly if a queue owns it. -/
def Tidy (c : Thread) : Prop :=
  c.linked = true ↔ c.owner ≠ .detached

theorem Tidy.free {c : Thread} (h : c.Tidy) (howner : c.owner = .detached) : c.Free := by
  refine ⟨howner, ?_⟩
  cases hlinked : c.linked with
  | false => rfl
  | true => exact absurd howner (h.mp hlinked)

theorem tidy_claimedBy {kind : Owner} (hkind : kind ≠ .detached) (c : Thread) :
    (c.claimedBy kind).Tidy := by
  simp [Tidy, claimedBy, hkind]

theorem tidy_released (c : Thread) : c.released.Tidy := by
  simp [Tidy, released]

/-- The wake tick, as a number. -/
def wake (c : Thread) : Nat :=
  c.wakeTick.getD 0

end Thread

/-- A new control block is that of a blocked thread on no queue. -/
theorem Thread.new_eq_ok {name : String} {priority : Nat} {c : Thread}
    (h : Thread.new name priority = .ok c) :
    c.status = .blocked ∧ c.Free ∧ c.wakeTick = none ∧ c.IsValid := by
  simp only [new, Except.bind_eq_ok_iff, Except.pure_eq_ok_iff] at h
  obtain ⟨-, -, rfl⟩ := h
  exact ⟨rfl, ⟨rfl, rfl⟩, rfl, rfl⟩

namespace Queue

variable {q q' : Queue} {threads threads' : Memory Thread} {t : Nat}

/-- The queue with `t` at its tail. -/
def append (q : Queue) (t : Nat) : Queue :=
  { q with members := q.members ++ [t], size := q.size + 1 }

/-- The queue without its head. -/
def behead (q : Queue) : Queue :=
  { q with members := q.members.tail, size := q.size - 1 }

/-- The queue with `t` behind the longest run of members from the head that are `ahead`. -/
def insertBehind (q : Queue) (ahead : Nat → Bool) (t : Nat) : Queue :=
  { q with
    members := q.members.takeWhile ahead ++ t :: q.members.dropWhile ahead
    size := q.size + 1 }

theorem perm_append (q : Queue) (t : Nat) : (q.append t).members.Perm (t :: q.members) :=
  List.perm_append_singleton t q.members

theorem perm_insertBehind (q : Queue) (ahead : Nat → Bool) (t : Nat) :
    (q.insertBehind ahead t).members.Perm (t :: q.members) := by
  refine List.perm_middle.trans ?_
  rw [List.takeWhile_append_dropWhile]

theorem claim_eq_ok_iff :
    q.claim threads t = .ok threads' ↔
      (threads.get t).Free ∧ threads' = threads.modify t (Thread.claimedBy q.kind) := by
  simp only [claim, Except.bind_eq_ok_iff, require_eq_ok_iff, Except.pure_eq_ok_iff,
    exists_const, Thread.Free, and_assoc]
  rfl

theorem release_eq_ok_iff :
    q.release threads t = .ok threads' ↔
      (threads.get t).owner = q.kind ∧ threads' = threads.modify t Thread.released := by
  simp only [release, Except.bind_eq_ok_iff, require_eq_ok_iff, Except.pure_eq_ok_iff,
    exists_const]
  rfl

theorem push_eq_ok_iff :
    q.push threads t = .ok (q', threads') ↔
      (threads.get t).Free ∧ q' = q.append t ∧
        threads' = threads.modify t (Thread.claimedBy q.kind) := by
  simp only [push, Except.bind_eq_ok_iff, claim_eq_ok_iff, Except.pure_eq_ok_iff, Prod.mk.injEq]
  constructor
  · rintro ⟨_, ⟨hfree, rfl⟩, rfl, rfl⟩
    exact ⟨hfree, rfl, rfl⟩
  · rintro ⟨hfree, rfl, rfl⟩
    exact ⟨_, ⟨hfree, rfl⟩, rfl, rfl⟩

/-- A thread that is on a queue is not put to another one. -/
theorem push_of_owned (howner : (threads.get t).owner ≠ .detached) :
    q.push threads t =
      .error (.claimedWhileOwned (threads.get t).tid q.kind (threads.get t).owner) := by
  rw [push, claim, require, if_neg howner]
  rfl

theorem pop_eq_ok_iff {head : Option Nat} :
    q.pop threads = .ok (head, q', threads') ↔
      (q.members = [] ∧ head = none ∧ q' = q ∧ threads' = threads) ∨
      ∃ t rest, q.members = t :: rest ∧ head = some t ∧ (threads.get t).owner = q.kind ∧
        q' = q.behead ∧ threads' = threads.modify t Thread.released := by
  cases hmembers : q.members with
  | nil => simp [pop, hmembers, Except.pure_eq_ok_iff]
  | cons t rest =>
      simp only [pop, hmembers, Except.bind_eq_ok_iff, release_eq_ok_iff, Except.pure_eq_ok_iff,
        Prod.mk.injEq, behead, List.tail_cons]
      constructor
      · rintro ⟨_, ⟨howner, rfl⟩, rfl, rfl, rfl⟩
        exact Or.inr ⟨t, rest, rfl, rfl, howner, rfl, rfl⟩
      · rintro (⟨hnil, -⟩ | ⟨_, _, hcons, rfl, howner, rfl, rfl⟩)
        · cases hnil
        · cases hcons
          exact ⟨_, ⟨howner, rfl⟩, rfl, rfl, rfl⟩

/-- A queue of one kind whose members are the threads with that tag, each once. -/
structure Tracks (q : Queue) (kind : Owner) (threads : Memory Thread) : Prop where
  kind_eq : q.kind = kind
  nodup : q.members.Nodup
  size_eq : q.size = q.members.length
  mem_iff : ∀ t, t ∈ q.members ↔ (threads.get t).owner = kind

namespace Tracks

variable {kind : Owner}

/-- A queue keeps track of its members while nobody touches its tag. -/
theorem congr (h : q.Tracks kind threads)
    (hsame : ∀ t, (threads'.get t).owner = kind ↔ (threads.get t).owner = kind) :
    q.Tracks kind threads' :=
  ⟨h.kind_eq, h.nodup, h.size_eq, fun t => (h.mem_iff t).trans (hsame t).symm⟩

theorem modify (h : q.Tracks kind threads) {f : Thread → Thread}
    (hsame : (f (threads.get t)).owner = kind ↔ (threads.get t).owner = kind) :
    q.Tracks kind (threads.modify t f) := by
  apply h.congr
  intro b
  rw [Memory.apply_get_modify (fun c : Thread => c.owner = kind) (propext hsame)]

theorem notMem_of_detached (h : q.Tracks kind threads) (hkind : kind ≠ .detached)
    (ht : (threads.get t).owner = .detached) : t ∉ q.members := by
  intro hmem
  exact hkind (((h.mem_iff t).mp hmem).symm.trans ht)

/-- A queue does not notice that another one takes a free link. -/
theorem claimedBy (h : q.Tracks kind threads) (hkind : kind ≠ .detached) {other : Owner}
    (hother : other ≠ kind) (ht : (threads.get t).owner = .detached) :
    q.Tracks kind (threads.modify t (Thread.claimedBy other)) := by
  apply h.modify
  rw [ht]
  exact iff_of_false hother (Ne.symm hkind)

/-- A queue does not notice that another one gives up a link. -/
theorem released (h : q.Tracks kind threads) (hkind : kind ≠ .detached)
    (ht : (threads.get t).owner ≠ kind) : q.Tracks kind (threads.modify t Thread.released) := by
  apply h.modify
  exact iff_of_false (Ne.symm hkind) ht

theorem append (h : q.Tracks kind threads) (hkind : kind ≠ .detached)
    (ht : (threads.get t).owner = .detached) :
    (q.append t).Tracks kind (threads.modify t (Thread.claimedBy kind)) := by
  have hfresh := h.notMem_of_detached hkind ht
  refine ⟨h.kind_eq, ?_, by simp [Queue.append, h.size_eq], ?_⟩
  · exact List.nodup_append.mpr ⟨h.nodup, List.nodup_singleton t, fun b hb c hc heq =>
      hfresh (List.mem_singleton.mp hc ▸ heq ▸ hb)⟩
  · intro b
    simp only [Queue.append, List.mem_append, List.mem_singleton, h.mem_iff, Memory.get_modify]
    by_cases hb : t = b
    · simp [hb, Thread.claimedBy]
    · simp [hb, Ne.symm hb]

theorem insertBehind (h : q.Tracks kind threads) (hkind : kind ≠ .detached)
    (ht : (threads.get t).owner = .detached) (ahead : Nat → Bool) :
    (q.insertBehind ahead t).Tracks kind (threads.modify t (Thread.claimedBy kind)) := by
  have happend := h.append hkind ht
  have hperm : (q.insertBehind ahead t).members.Perm (q.append t).members :=
    (q.perm_insertBehind ahead t).trans (q.perm_append t).symm
  refine ⟨h.kind_eq, hperm.nodup_iff.mpr happend.nodup, ?_, ?_⟩
  · rw [hperm.length_eq, ← happend.size_eq]
    rfl
  · intro b
    rw [hperm.mem_iff, happend.mem_iff]

theorem behead (h : q.Tracks kind threads) (hkind : kind ≠ .detached) {rest : List Nat}
    (hmembers : q.members = t :: rest) :
    q.behead.Tracks kind (threads.modify t Thread.released) := by
  have hnodup := h.nodup
  rw [hmembers, List.nodup_cons] at hnodup
  refine ⟨h.kind_eq, ?_, by simp [Queue.behead, h.size_eq], ?_⟩
  · simpa [Queue.behead, hmembers] using hnodup.2
  · intro b
    have hmem := h.mem_iff b
    simp only [hmembers, List.mem_cons] at hmem
    simp only [Queue.behead, hmembers, List.tail_cons, Memory.get_modify]
    by_cases hb : t = b
    · subst hb
      simp [hnodup.1, Thread.released, Ne.symm hkind]
    · simpa [hb, Ne.symm hb] using hmem

end Tracks

end Queue

end RoundRobin
