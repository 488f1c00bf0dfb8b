import RoundRobin.Host

/-!
# Nested critical sections

Scripts of interrupt-mask operations with critical sections among them, run on the host, with the
level noted along the way.
-/

namespace RoundRobin.Host.Section

/-- An operation on the interrupt mask. -/
inductive Act where
  /-- Only note the level. -/
  | look
  | disable
  | enable
  | wait
  | setLevel (level : Level)

/-- A script. -/
inductive Script where
  | done
  | act (first : Act) (rest : Script)
  /-- A critical section around `body`, then `rest`. -/
  | guarded (body rest : Script)

/-- What is noted. -/
inductive Mark where
  /-- After an operation: the level it gave, if it gives one, and the level now in force. -/
  | did (given : Option Level) (now : Level)
  /-- At the start of a critical section. -/
  | entered (now : Level)
  /-- After a critical section. -/
  | left (now : Level)

/-- Carry out an operation; the level it gives, if it gives one. -/
def Act.perform : Act → HostM (Option Level)
  | look => return none
  | disable => return some (← Port.disable)
  | enable => do
    Port.enable
    return none
  | wait => do
    Port.waitForInterrupt
    return none
  | setLevel level => return some (← Port.setLevel level)

/-- Run a script and give what was noted. -/
def Script.run : Script → HostM (List Mark)
  | done => return []
  | act first rest => do
    let given ← first.perform
    let now ← Port.level
    return .did given now :: (← rest.run)
  | guarded body rest => do
    let inner ← Port.criticalSection do
      let now ← Port.level
      return Mark.entered now :: (← body.run)
    let now ← Port.level
    return inner ++ .left now :: (← rest.run)

/-- Run a script from `level`. Gives what was noted and the number of waits. -/
def trace (level : Level) (script : Script) : Except Halt (List Mark × Nat) :=
  match script.run { Host.new 0 0 with level } with
  | .ok marks h => .ok (marks, h.waits)
  | .error cause _ => .error cause

end RoundRobin.Host.Section
