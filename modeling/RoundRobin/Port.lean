import RoundRobin.Context
import RoundRobin.Log

/-!
# Processor services

What the scheduler needs from the processor it runs on. On one processor the only concurrency is
reentry by interrupts, so masking them is the one lock: `criticalSection`.
-/

namespace RoundRobin

/-- Whether interrupts are delivered. -/
inductive Level where
  /-- Interrupts are delivered. -/
  | on
  /-- Interrupts are masked. -/
  | off
  deriving DecidableEq, Repr, Inhabited

/-- The printed name of a level. -/
def Level.name : Level → String
  | on => "On"
  | off => "Off"

/-- The services of a processor, as actions of the computation that runs on it. -/
class Port (m : Type → Type) where
  /-- The interrupt level. -/
  level : m Level
  /-- Mask interrupts and give the level found. -/
  disable : m Level
  /-- Unmask interrupts. -/
  enable : m Unit
  /-- Whether an interrupt handler is running. -/
  inInterrupt : m Bool
  /-- Ask for the interrupted thread to yield once the handler returns. -/
  requestYield : m Unit
  /-- Stack pointer of the running thread. -/
  stackPointer : m Nat
  /-- Unmask interrupts and wait for the next one, without a gap between the two. -/
  waitForInterrupt : m Unit
  /-- The context with which a new thread starts at `entry` with two arguments on the stack
  under `top`. -/
  freshContext (entry arg0 arg1 top : Nat) : m Context
  /-- Save the registers of the thread in the block `source` and go on as the thread in the
  block `target`. -/
  switchContext (source target : Nat) : m Unit
  /-- Pass a record to the log. -/
  log (record : Record) : m Unit

namespace Port

variable {m : Type → Type} [Monad m] [Port m]

/-- Put `level` in force and give the level found. -/
def setLevel : Level → m Level
  | .on => do
    let old ← level
    enable
    return old
  | .off => disable

/-- Run `body` with interrupts masked, then restore the level found. An inner section finds
interrupts masked and leaves them so. -/
def criticalSection {α : Type} (body : m α) : m α := do
  let old ← disable
  let result ← body
  let _ ← setLevel old
  return result

end Port

end RoundRobin
