import RoundRobin.Config
import RoundRobin.Word

/-!
# Thread blocks and stack addresses

A thread block is `Config.blockSize` bytes, aligned to its size: the control block at the low end
and the stack above it. So the block of a running thread is found by rounding the stack pointer
down. Block zero is not used: an address in it belongs to no thread.
-/

namespace RoundRobin.Block

open Config

/-- The address rounded down to a block boundary. -/
def base (a : Nat) : Nat :=
  a / blockSize * blockSize

/-- The block that holds the stack address `sp`. -/
def containing (sp : Nat) : Except Halt Nat :=
  if base sp = 0 then .error (.outsideBlocks sp) else .ok (base sp)

theorem base_le (a : Nat) : base a ≤ a := by
  simp only [base, blockSize]
  omega

theorem lt_base_add (a : Nat) : a < base a + blockSize := by
  simp only [base, blockSize]
  omega

theorem base_mod (a : Nat) : base a % blockSize = 0 := by
  simp only [base, blockSize]
  omega

/-- First stack pointer of a thread in `block`: just under the top and a multiple of eight. -/
def initialStackPointer (block : Nat) : Except Halt Nat := do
  let top ← Word.add Word.limit64 block blockSize
  return (top - 8) / 8 * 8

end RoundRobin.Block
