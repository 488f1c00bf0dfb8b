import RoundRobin.Context
import RoundRobin.Halt
import RoundRobin.Thread.Name

/-!
# Control blocks

The record kept for each thread at the low end of its block. The integrity tag sits right under
the stack, so a stack that overflows destroys it first.
-/

namespace RoundRobin

/-- A control block. -/
structure Thread where
  /-- Identifier. Counted from one, never used again. -/
  tid : Nat
  /-- What the thread is doing. -/
  status : Status
  /-- The name, cut to fit. -/
  nameBuffer : NameBuffer
  /-- Stored only: dispatch is in arrival order. -/
  priority : Nat
  /-- The tick that ends the thread's sleep, present while it sleeps. -/
  wakeTick : Option Nat
  /-- Whether the thread's link is on a list. -/
  linked : Bool
  /-- Which queue owns the link. -/
  owner : Owner
  /-- Saved registers, meaningful while the thread does not run. -/
  context : Context
  /-- Integrity tag. -/
  magic : Nat
  deriving DecidableEq

/-- What a block of zero bytes holds. -/
class Zeroed (β : Type) where
  /-- The contents of zeroed memory. -/
  zeroed : β

namespace Thread

/-- Zeroed memory read as a control block: no thread, and its integrity tag is wrong. -/
instance : Zeroed Thread where
  zeroed :=
    { tid := 0, status := .running, nameBuffer := .blank, priority := 0, wakeTick := none
      linked := false, owner := .detached, context := {}, magic := 0 }

/-- Go on only if `priority` is in the range of priorities. -/
def requirePriority (priority : Nat) : Except Halt Unit :=
  require (Config.priorityMin ≤ priority ∧ priority ≤ Config.priorityMax)
    (.priorityOutOfRange priority)

/-- A blocked thread on no queue and without an identifier. -/
def new (name : String) (priority : Nat) : Except Halt Thread := do
  requirePriority priority
  return {
    tid := 0, status := .blocked, nameBuffer := .encode name, priority, wakeTick := none
    linked := false, owner := .detached, context := {}, magic := Config.threadMagic }

/-- The name as it was given, cut to fit. -/
def name (t : Thread) : String :=
  t.nameBuffer.decode

/-- The integrity tag is intact. -/
def IsValid (t : Thread) : Prop :=
  t.magic = Config.threadMagic

instance (t : Thread) : Decidable t.IsValid :=
  inferInstanceAs (Decidable (_ = _))

/-- Whether the thread runs unprivileged. -/
def isUser (t : Thread) : Bool :=
  t.context.isUser

/-- The control block with its integrity tag destroyed. -/
def corrupt (t : Thread) : Thread :=
  { t with magic := Config.threadMagic ^^^ 0xffffffff }

/-- Identifier, name and status in one line. -/
def describe (t : Thread) : String :=
  s!"Thread({t.tid} \"{t.name}\" {t.status.name})"

end Thread

end RoundRobin
