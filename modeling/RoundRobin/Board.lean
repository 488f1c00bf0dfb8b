import RoundRobin.Layout
import RoundRobin.Scheduler

/-!
# The board

The state of the processor and its devices as far as the scheduler can tell: interrupt mask, stack
pointer and privilege, the active and pending exceptions, the tick timer, the trace port, and the
agenda that says when ticks come.
-/

namespace RoundRobin

/-- The answer to an operation of a script. -/
inductive Answer where
  | nothing
  | number (n : Nat)
  | text (s : String)
  | level (l : Level)
  | refused (e : SpawnError)
  | noThread
  | unreadable

/-- What is seen of a run, in order of time. -/
inductive Event where
  /-- A record written to the trace port. -/
  | record (text : String)
  /-- The thread `tid` got `answer` for the operation `label` of its script. -/
  | call (tid : Nat) (label : String) (answer : Answer)

/-- Registers of the tick timer. -/
structure TickTimer where
  reload : Nat := 0
  /-- The current count was cleared. -/
  cleared : Bool := false
  /-- The timer counts core clock cycles. -/
  coreClock : Bool := false
  /-- The counter is on. -/
  counting : Bool := false
  /-- The timer interrupts. -/
  interrupting : Bool := false
  deriving DecidableEq, Repr

/-- Whether ticks come. -/
def TickTimer.isLive (t : TickTimer) : Bool :=
  t.counting && t.interrupting

/-- When ticks come, what they interrupt, and when the run ends. -/
structure Agenda where
  /-- Windows between ticks, for the first ticks. -/
  gaps : List Nat := []
  /-- Windows between ticks after that; with zero no tick comes. -/
  period : Nat := 2
  /-- Status words of the code interrupted by yield requests, for the first requests. -/
  statuses : List Nat := []
  /-- The run ends with this tick. -/
  tickLimit : Nat := 200
  deriving DecidableEq, Repr

/-- The board and the kernel in its memory. -/
structure Board where
  /-- Interrupts are masked. -/
  masked : Bool := false
  /-- Process stack pointer. -/
  psp : Nat := 0
  /-- Privilege and stack selection. -/
  control : Nat := 0
  /-- Number of the active exception, zero outside handlers. -/
  exception : Nat := 0
  /-- A yield request is pending. -/
  yieldPending : Bool := false
  /-- A tick is pending. -/
  tickPending : Bool := false
  timer : TickTimer := {}
  /-- Priority of yield requests. -/
  yieldPriority : Nat := 0
  /-- Priority of ticks. -/
  tickPriority : Nat := 0
  /-- Control word of the trace unit. -/
  traceControl : Nat := 1
  /-- Enable bits of the trace ports. -/
  tracePorts : Nat := 1
  /-- Waits for an interrupt so far. -/
  waits : Nat := 0
  /-- Windows so far. -/
  windows : Nat := 0
  /-- Windows since the last tick. -/
  sinceTick : Nat := 0
  /-- Completed tick handlers. -/
  ticks : Nat := 0
  agenda : Agenda := {}
  /-- The scheduler, once it is built. -/
  kernel : Option Scheduler := none
  /-- Threads in the middle of a script, with their blocks. -/
  scripted : List (Nat × Nat) := []
  /-- What was seen so far. -/
  events : Array Event := #[]

namespace Board

/-- Whether records reach the trace port. -/
def isTraced (b : Board) : Bool :=
  b.traceControl % 2 == 1 && b.tracePorts % 2 == 1

/-- Note an event. -/
def note (b : Board) (e : Event) : Board :=
  { b with events := b.events.push e }

/-- The interrupt level. -/
def level (b : Board) : Level :=
  if b.masked then .off else .on

/-- The thread whose stack is in use, if there is a kernel. -/
def runningThread? (b : Board) : Option Thread :=
  b.kernel.bind fun s => s.threadAt? b.psp

/-- A record as the trace port shows it: the name of the severity in five columns. -/
def recordText (r : Record) : String :=
  let severity := r.severity.name
  let padding := String.ofList (List.replicate (5 - severity.length) ' ')
  "[" ++ severity ++ padding ++ " " ++ r.source.target ++ "] " ++ r.text ++ "\n"

end Board

end RoundRobin
