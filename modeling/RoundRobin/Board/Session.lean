import RoundRobin.Board.Frame
import RoundRobin.Board.Kernel

/-!
# Board sessions

The processor services of the board, used one at a time from reset on while no exception is taken.
-/

namespace RoundRobin.Board

/-- A use of the processor. -/
inductive Request where
  | level
  | disable
  | setLevel (level : Level)
  | enable
  /-- Mask interrupts, then wait for one. -/
  | wait
  | requestYield
  | configureTimer
  | setPriorities
  /-- Whether a handler runs, while the given exception is active. -/
  | inInterrupt (exception : Nat)
  /-- The stack pointer, when the process stack pointer is the given one. -/
  | stackPointer (psp : Nat)
  | freshContext (entry arg0 arg1 top : Nat)
  /-- A yield request that interrupts code with the given status word. -/
  | preempt (xpsr : Nat)
  /-- A request that could not be read. -/
  | unreadable

/-- The answer to a request. -/
inductive Reply where
  | nothing
  | level (l : Level)
  | flag (b : Bool)
  | number (n : Nat)
  | context (c : Context)
  /-- The interrupted code is left alone. -/
  | declined
  /-- A frame was planted, so many bytes below the interrupted one. -/
  | planted (below : Nat) (frame : Frame)
  | unreadable
  | halted (cause : Halt)

/-- An address of an interrupted frame, a multiple of eight. -/
abbrev interruptedFrame : Nat := 0x20000000

/-- Do `act` and answer nothing. -/
def quietly (act : Code Unit) : Code Reply := do
  act
  return .nothing

/-- Carry out a request. -/
def perform : Request → Code Reply
  | .level => return .level (← Port.level)
  | .disable => return .level (← Port.disable)
  | .setLevel level => return .level (← Port.setLevel level)
  | .enable => quietly Port.enable
  | .wait => quietly do
    let _ ← Port.disable (m := Code)
    Port.waitForInterrupt
  | .requestYield => quietly Port.requestYield
  | .configureTimer => quietly Kernel.configureTimer
  | .setPriorities => quietly Kernel.setPriorities
  | .inInterrupt exception => do
    Code.update fun b => { b with exception }
    let inside ← Port.inInterrupt
    Code.update fun b => { b with exception := 0 }
    return .flag inside
  | .stackPointer psp => do
    Code.update fun b => { b with psp }
    return .number (← Port.stackPointer)
  | .freshContext entry arg0 arg1 top =>
    return .context (← Port.freshContext entry arg0 arg1 top)
  | .preempt xpsr => do
    let stack := Frame.store {} interruptedFrame { pc := 0, xpsr }
    let (psp, stack) ← liftM (Frame.inject Frame.landing interruptedFrame stack)
    if psp = interruptedFrame then
      return .declined
    else
      return .planted (interruptedFrame - psp) (Frame.load stack psp)
  | .unreadable => return .unreadable

/-- Carry out requests. Each answer comes with the board it left. -/
def requests (b : Board) : List Request → List (Reply × Board)
  | [] => []
  | request :: rest =>
    match (perform request).direct b with
    | .ok reply b => (reply, b) :: b.requests rest
    | .error cause b => [(.halted cause, b)]

end RoundRobin.Board
