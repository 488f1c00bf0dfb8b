import RoundRobin.Queue

/-!
# The sleep queue

Threads that wait for a tick, earliest first. Threads with the same wake tick keep the order in
which they went to sleep.
-/

namespace RoundRobin

/-- Sleeping threads by ascending wake tick. -/
structure SleepQueue where
  /-- The sleepers, in the order in which they are due. -/
  queue : Queue := .new .sleep
  deriving DecidableEq

namespace SleepQueue

/-- Whether a queued thread stays ahead of one that wakes at `wake`. -/
def staysAhead (wake : Nat) (queued : Thread) : Bool :=
  queued.wakeTick.all (· ≤ wake)

/-- Queue `t` by its wake tick, which must be set. -/
def insert (q : SleepQueue) (threads : Memory Thread) (t : Nat) :
    Except Halt (SleepQueue × Memory Thread) := do
  match (threads.get t).wakeTick with
  | none => .error (.noWakeTick (threads.get t).tid)
  | some wake =>
    let (queue, threads) ← q.queue.insertAfter threads t (staysAhead wake)
    return (⟨queue⟩, threads)

/-- The wake tick at the head. -/
def nextWakeup (q : SleepQueue) (threads : Memory Thread) : Option Nat :=
  q.queue.front.bind fun t => (threads.get t).wakeTick

/-- Remove the head if it is due at the tick `now`. -/
def popDue (q : SleepQueue) (threads : Memory Thread) (now : Nat) :
    Except Halt (Option Nat × SleepQueue × Memory Thread) :=
  if (q.nextWakeup threads).any (· ≤ now) then do
    let (t, queue, threads) ← q.queue.pop threads
    return (t, ⟨queue⟩, threads)
  else
    return (none, q, threads)

end SleepQueue

end RoundRobin
