import RoundRobin.Block
import RoundRobin.Memory

/-!
# The block pool

A row of equal blocks with a busy flag each. `Pool.alloc` hands out the lowest free block, zeroed;
`Pool.free` takes back a block that is in use and refuses every other address. Freeing a block
leaves its contents alone. Both count what they do, in words of 64 bits.
-/

namespace RoundRobin

open Config

/-- A fixed row of blocks. -/
structure Pool where
  /-- Address of the first block. -/
  base : Nat
  /-- For each slot, whether its block is handed out. -/
  busy : List Bool
  /-- Blocks handed out so far. -/
  allocs : Nat := 0
  /-- Blocks taken back so far. -/
  frees : Nat := 0
  deriving DecidableEq

namespace Pool

/-- A pool of `n` free blocks from `base` on. -/
def new (base n : Nat) : Pool :=
  { base, busy := List.replicate n false }

/-- Number of slots. -/
def capacity (p : Pool) : Nat :=
  p.busy.length

/-- Blocks handed out at present. -/
def inUse (p : Pool) : Nat :=
  p.busy.count true

/-- Blocks in use, handed out so far and taken back so far. -/
def counters (p : Pool) : Nat × Nat × Nat :=
  (p.inUse, p.allocs, p.frees)

/-- Address of the block in slot `k`. -/
def slotAddress (p : Pool) (k : Nat) : Nat :=
  p.base + k * blockSize

/-- The lowest slot that is free. -/
def freeSlot? (p : Pool) : Option Nat :=
  p.busy.findIdx? (! ·)

/-- Hand out the lowest free block with its contents zeroed; nothing if all are in use. The slot is
marked, then the block is counted, then it is zeroed. -/
def alloc {β : Type} [Zeroed β] (p : Pool) (mem : Memory β) :
    Except Halt (Option (Nat × Pool × Memory β)) :=
  match p.freeSlot? with
  | none => return none
  | some k => do
    let busy := p.busy.set k true
    let allocs ← Word.add Word.limit64 p.allocs 1
    let block := p.slotAddress k
    return some (block, { p with busy, allocs }, mem.set block Zeroed.zeroed)

/-- Distance of `a` above the first block, around the end of the address space if `a` is below. -/
def offset (p : Pool) (a : Nat) : Nat :=
  (a + Word.limit64 - p.base) % Word.limit64

/-- The slot whose block starts at `a`. -/
def slotOf (p : Pool) (a : Nat) : Except Halt Nat := do
  require (p.offset a < p.capacity * blockSize ∧ p.offset a % blockSize = 0) (.notFromPool a)
  return p.offset a / blockSize

/-- Take the block at `a` back. -/
def free (p : Pool) (a : Nat) : Except Halt Pool := do
  let k ← p.slotOf a
  require (p.busy[k]? = some true) (.doubleFree a)
  let busy := p.busy.set k false
  let frees ← Word.add Word.limit64 p.frees 1
  return { p with busy, frees }

/-- Addresses of the blocks handed out at present, lowest first. -/
def blocksInUse (p : Pool) : List Nat :=
  (p.busy.zipIdx.filter (·.1)).map fun slot => p.slotAddress slot.2

end Pool

end RoundRobin
