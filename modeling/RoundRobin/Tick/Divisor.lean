import RoundRobin.Word

/-!
# Timer divisor

The count that makes a timer fed by a clock interrupt at a wanted rate.
-/

namespace RoundRobin.Tick

/-- Clock cycles per interrupt for `hz` interrupts a second, rounded to nearest with ties upward,
as a word of 32 bits. -/
def divisor (clock hz : Nat) : Except Halt Nat := do
  let half ← Word.add Word.limit64 clock (hz / 2)
  let cycles ← Word.div half hz
  return cycles % Word.limit32

end RoundRobin.Tick
