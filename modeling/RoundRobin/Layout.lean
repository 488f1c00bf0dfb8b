import RoundRobin.Pool

/-!
# Memory layout and names of blocks

Where the pool, the boot block and a pool of somebody else lie, and how blocks are shown: the boot
block, the pool's blocks by slot, the foreign block, and any other address by its distance from
the first block of the pool.
-/

namespace RoundRobin.Layout

/-- Address of the pool's first block. -/
abbrev poolBase : Nat := 0x40000000

/-- Address of the block the boot code runs on. -/
abbrev bootBlock : Nat := 0x100000000

/-- Address of a block in a pool of its own. -/
abbrev foreignBlock : Nat := 0x10000000000

/-- A pool of `n` blocks in its place. -/
def pool (n : Nat) : Pool :=
  .new poolBase n

/-- The number of slots up to the last busy one. -/
def slotsReached (busy : List Bool) : Nat :=
  busy.length - (busy.reverse.takeWhile (! ·)).length

/-- The name of `a` when the first `handedOut` slots of the pool have been handed out at some
time. A slot that was not has no name of its own. -/
def label (handedOut a : Nat) : String :=
  if a = bootBlock then
    "<boot>"
  else if a = foreignBlock then
    "<foreign>"
  else if a < poolBase then
    s!"<b0-{poolBase - a}>"
  else
    let distance := a - poolBase
    let slot := distance / Config.blockSize
    if distance % Config.blockSize = 0 ∧ slot < handedOut then
      s!"<b{slot}>"
    else
      s!"<b0+{distance}>"

end RoundRobin.Layout
