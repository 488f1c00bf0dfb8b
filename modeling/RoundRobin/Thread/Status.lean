/-!
# Thread states and queue owners
-/

namespace RoundRobin

/-- What a thread is doing. -/
inductive Status where
  /-- Executing on the processor. -/
  | running
  /-- Waiting on the ready queue. -/
  | ready
  /-- Waiting to be unblocked. -/
  | blocked
  /-- Exited; its block is taken back later. -/
  | dying
  deriving DecidableEq, Repr, Inhabited

/-- The printed name of a status. -/
def Status.name : Status → String
  | running => "Running"
  | ready => "Ready"
  | blocked => "Blocked"
  | dying => "Dying"

/-- Which queue owns a thread's link. -/
inductive Owner where
  | detached
  | ready
  | sleep
  | destruction
  deriving DecidableEq, Repr, Inhabited

/-- The printed name of an owner. -/
def Owner.name : Owner → String
  | detached => "Detached"
  | ready => "Ready"
  | sleep => "Sleep"
  | destruction => "Destruction"

end RoundRobin
