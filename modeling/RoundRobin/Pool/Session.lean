import RoundRobin.Layout

/-!
# Pool sessions

A pool of blocks of plain bytes, used through a list of requests. Blocks are named by slot; only
slots that have been handed out at some time can be named. A halt ends the session.
-/

namespace RoundRobin

open Config

/-- The contents of a block as bytes. -/
structure Page where
  bytes : Vector UInt8 blockSize

namespace Page

instance : Zeroed Page where
  zeroed := ⟨Vector.replicate blockSize 0⟩

/-- Write one byte. -/
def poke (p : Page) (offset : Fin blockSize) (byte : UInt8) : Page :=
  ⟨p.bytes.set offset byte⟩

/-- Read one byte. -/
def peek (p : Page) (offset : Fin blockSize) : UInt8 :=
  p.bytes[offset]

/-- A block filled with one byte. -/
def filled (byte : UInt8) : Page :=
  ⟨Vector.replicate blockSize byte⟩

/-- Number of bytes that are not zero. -/
def nonzero (p : Page) : Nat :=
  p.bytes.toList.countP (· ≠ 0)

end Page

namespace Pool

/-- A use of the pool or of its memory. -/
inductive Request where
  | alloc
  /-- Free the address `delta` bytes above the block in `slot`. -/
  | free (slot : Nat) (delta : Int)
  /-- Free a block of another pool. -/
  | freeForeign
  | poke (slot : Nat) (offset : Fin blockSize) (byte : UInt8)
  | fill (slot : Nat) (byte : UInt8)
  | peek (slot : Nat) (offset : Fin blockSize)
  /-- A request that could not be read. -/
  | unreadable

/-- The answer to a request. -/
inductive Reply where
  | nothing
  /-- A block was handed out: its name, whether its address is a multiple of its size, and how
  many of its bytes are not zero. -/
  | block (name : String) (aligned : Bool) (nonzero : Nat)
  | byte (b : UInt8)
  | unreadable
  | halted (cause : Halt) (message : String)

/-- A pool in use. -/
structure Session where
  pool : Pool
  memory : Memory Page := {}
  /-- The slots handed out at some time are the first ones, as many as this. -/
  handedOut : Nat := 0

namespace Session

/-- Do `act` with the address of the block in `slot`, if that has been handed out. -/
def withSlot (s : Session) (slot : Nat)
    (act : Nat → Except Halt (Reply × Session)) : Except Halt (Reply × Session) :=
  if slot < s.handedOut then act (s.pool.slotAddress slot) else .ok (.unreadable, s)

/-- Free the block at `a`. -/
def release (s : Session) (a : Nat) : Except Halt (Reply × Session) := do
  let pool ← s.pool.free a
  return (.nothing, { s with pool })

/-- Carry out a request. -/
def perform (s : Session) : Request → Except Halt (Reply × Session)
  | .alloc => do
    match ← s.pool.alloc s.memory with
    | none => return (.nothing, s)
    | some (block, pool, memory) =>
      let handedOut := max s.handedOut (Layout.slotsReached pool.busy)
      return (.block (Layout.label handedOut block) (block % blockSize == 0)
        (memory.get block).nonzero, { pool, memory, handedOut })
  | .free slot delta => s.withSlot slot fun block => s.release (block + delta).toNat
  | .freeForeign => s.release Layout.foreignBlock
  | .poke slot offset byte => s.withSlot slot fun block =>
    .ok (.nothing, { s with memory := s.memory.modify block (·.poke offset byte) })
  | .fill slot byte => s.withSlot slot fun block =>
    .ok (.nothing, { s with memory := s.memory.set block (.filled byte) })
  | .peek slot offset => s.withSlot slot fun block =>
    .ok (.byte ((s.memory.get block).peek offset), s)
  | .unreadable => .ok (.unreadable, s)

/-- Carry out requests up to the first halt. Each answer comes with the pool it left. -/
def run (s : Session) : List Request → List (Reply × Option Pool)
  | [] => []
  | request :: rest =>
    match s.perform request with
    | .ok (reply, s) => (reply, some s.pool) :: s.run rest
    | .error cause => [(.halted cause (cause.message (Layout.label s.handedOut)), none)]

end Session

end Pool

end RoundRobin
