import RoundRobin.Tick.Calibration

/-!
# Trials of the calibration

Calibration and its probe against answers and tick counts fixed in advance.
-/

namespace RoundRobin.Tick

/-- Calibrate with a probe that answers `answer n loops` to its `n`-th question. Gives the outcome
and the counts asked, in order. -/
def trial (answer : Nat → Nat → Bool) : Except Halt Nat × List Nat :=
  let probe (loops : Nat) : EStateM Halt (Array Nat) Bool := do
    let asked ← get
    set (asked.push loops)
    return answer asked.size loops
  match calibrate probe #[] with
  | .ok loops asked => (.ok loops, asked.toList)
  | .error cause asked => (.error cause, asked.toList)

/-- A probe that finds a count too large if it is above `perTick`. -/
def constantSpeed (perTick : Nat) : Nat → Nat → Bool :=
  fun _ loops => perTick < loops

/-- A probe with a list of answers, and the same answer ever after. -/
def scripted (answers : List Bool) (rest : Bool) : Nat → Nat → Bool :=
  fun n _ => answers.getD n rest

/-- A tick counter that shows listed values. -/
structure Readings where
  /-- Values still to be shown. -/
  left : List Nat
  /-- Number of values shown. -/
  taken : Nat := 0

namespace Readings

/-- Read the counter. -/
def read : EStateM Halt Readings Nat := fun r =>
  match r.left with
  | [] => .error .tickScriptExhausted r
  | t :: left => .ok t { left, taken := r.taken + 1 }

/-- Read the counter until it differs from `first`, at most `count` times. -/
def readPast (first : Nat) : Nat → EStateM Halt Readings Unit
  | 0 => return
  | count + 1 => do
    if (← read) = first then
      readPast first count

end Readings

/-- Whether the probe finds a tick crossed when the counter shows `readings`, and how often it
reads the counter. -/
def crossing (readings : List Nat) : Except Halt (Bool × Nat) :=
  match crossesTick Readings.read (Readings.readPast · (readings.length + 1))
      { left := readings } with
  | .ok crossed r => .ok (crossed, r.taken)
  | .error cause _ => .error cause

end RoundRobin.Tick
