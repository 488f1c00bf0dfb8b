import RoundRobin.Memory

/-!
# Thread queues

Threads in arrival order. A thread has one link, so it is on one queue at most, and its control
block names the queue that owns the link. The name is checked on the way in and on the way out: a
thread that ends up on two queues stops the system instead of damaging a list.
-/

namespace RoundRobin

/-- Threads in arrival order, by block address. -/
structure Queue where
  /-- What the queue writes into the control blocks of its members. -/
  kind : Owner
  /-- Members from head to tail. -/
  members : List Nat := []
  /-- Number of members. -/
  size : Nat := 0
  deriving DecidableEq

namespace Queue

/-- A queue without members. -/
def new (kind : Owner) : Queue :=
  { kind }

/-- Whether the queue has no member. -/
def isEmpty (q : Queue) : Bool :=
  q.members.isEmpty

/-- The head, left in place. -/
def front (q : Queue) : Option Nat :=
  q.members.head?

/-- Take ownership of the link of `t`, which must be free, and put the link in use. -/
def claim (q : Queue) (threads : Memory Thread) (t : Nat) : Except Halt (Memory Thread) := do
  let c := threads.get t
  require (c.owner = .detached) (.claimedWhileOwned c.tid q.kind c.owner)
  require (c.linked = false) .alreadyLinked
  return threads.set t { c with owner := q.kind, linked := true }

/-- Give up the link of `t`, which this queue must own. -/
def release (q : Queue) (threads : Memory Thread) (t : Nat) :
    Except Halt (Memory Thread) := do
  let c := threads.get t
  require (c.owner = q.kind) (.releasedUnowned c.tid q.kind c.owner)
  return threads.set t { c with owner := .detached, linked := false }

/-- Insert `t` behind the longest run of members from the head that satisfy `staysAhead`. -/
def insertAfter (q : Queue) (threads : Memory Thread) (t : Nat) (staysAhead : Thread → Bool) :
    Except Halt (Queue × Memory Thread) := do
  let claimed ← q.claim threads t
  let ahead := fun member => staysAhead (claimed.get member)
  let members := q.members.takeWhile ahead ++ t :: q.members.dropWhile ahead
  return ({ q with members, size := q.size + 1 }, claimed)

/-- Append `t` at the tail. -/
def push (q : Queue) (threads : Memory Thread) (t : Nat) :
    Except Halt (Queue × Memory Thread) := do
  let claimed ← q.claim threads t
  return ({ q with members := q.members ++ [t], size := q.size + 1 }, claimed)

/-- Remove the head. -/
def pop (q : Queue) (threads : Memory Thread) :
    Except Halt (Option Nat × Queue × Memory Thread) :=
  match q.members with
  | [] => return (none, q, threads)
  | t :: rest => do
    let released ← q.release threads t
    return (some t, { q with members := rest, size := q.size - 1 }, released)

/-- The queue without `t` and the members behind it. A queue is threaded through the control blocks
of its members: if the block of a member is cleared, those behind it cannot be reached any more. -/
def cutBefore (q : Queue) (t : Nat) : Queue :=
  { q with members := q.members.takeWhile (· ≠ t) }

/-- The queue without the members behind `t`. -/
def cutAfter (q : Queue) (t : Nat) : Queue :=
  if t ∈ q.members then { q with members := q.members.takeWhile (· ≠ t) ++ [t] } else q

theorem takeWhile_of_notMem {t : Nat} {members : List Nat} (h : t ∉ members) :
    members.takeWhile (· ≠ t) = members := by
  induction members with
  | nil => rfl
  | cons head rest ih =>
    rw [List.mem_cons, not_or] at h
    rw [List.takeWhile_cons, if_pos (decide_eq_true (Ne.symm h.1)), ih h.2]

theorem cutBefore_of_notMem {q : Queue} {t : Nat} (h : t ∉ q.members) : q.cutBefore t = q := by
  simp only [cutBefore, takeWhile_of_notMem h]

theorem cutAfter_of_notMem {q : Queue} {t : Nat} (h : t ∉ q.members) : q.cutAfter t = q :=
  if_neg h

end Queue

end RoundRobin
