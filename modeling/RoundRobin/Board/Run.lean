import RoundRobin.Board.Firmware

/-!
# Runs of the board

A program runs on the board until it ends, halts, or meets a limit. Time moves only at windows: a
window counts towards the next tick, a pending tick is handled there, and so is a pending yield
request, which makes the interrupted thread yield before it goes on. Of a thread that does not run
the board keeps the code it goes on with.
-/

namespace RoundRobin

/-- A program: what its main code does, and what a thread does that is entered at an address with
an argument. -/
structure Program where
  main : Code Unit
  body (entry arg : Nat) : Code Unit
  /-- No more pauses than this lie between two windows. -/
  burst : Nat

/-- How a run ended. -/
inductive Ending where
  /-- The main code came to its end. -/
  | done
  /-- The limit of ticks was reached. -/
  | ticks
  /-- The limit of windows was reached. -/
  | windows
  /-- A wait that no interrupt can end. -/
  | stuck
  | halted (cause : Halt)

namespace Board

/-- A run ends with more windows than this. -/
abbrev windowLimit : Nat := 20000

/-- Exception number of yield requests. -/
abbrev yieldException : Nat := 14

/-- Exception number of ticks. -/
abbrev tickException : Nat := 15

/-- Count a window towards the next tick. -/
def countWindow (b : Board) : Board :=
  if b.timer.isLive then
    let gap := b.agenda.gaps.headD b.agenda.period
    if gap ≠ 0 ∧ gap ≤ b.sinceTick + 1 then
      { b with
        sinceTick := 0
        agenda.gaps := b.agenda.gaps.tail
        tickPending := true }
    else
      { b with sinceTick := b.sinceTick + 1 }
  else b

/-- Handle a pending tick. The run ends with the last tick of the agenda, in its handler. -/
def handleTick (b : Board) : Except Ending Unit × Board :=
  if b.tickPending then
    match Kernel.tickHandler.direct { b with tickPending := false, exception := tickException } with
    | .error cause b => (.error (.halted cause), b)
    | .ok () b =>
      let b := { b with ticks := b.ticks + 1 }
      if b.agenda.tickLimit ≤ b.ticks then (.error .ticks, b)
      else (.ok (), { b with exception := 0 })
  else (.ok (), b)

/-- Handle a pending yield request: whether the interrupted code must yield first. Code that
cannot be resumed by a plain branch is left alone. -/
def handleYield (b : Board) : Bool × Board :=
  if b.yieldPending then
    let status := b.agenda.statuses.headD Context.thumb
    (Context.resumable status,
      { b with yieldPending := false, agenda.statuses := b.agenda.statuses.tail })
  else (false, b)

/-- What happens at a window: whether the interrupted code must yield first. -/
def passWindow (b : Board) : Except Ending Bool × Board :=
  let b := { b with windows := b.windows + 1 }
  if windowLimit < b.windows then (.error .windows, b)
  else
    match b.countWindow.handleTick with
    | (.error e, b) => (.error e, b)
    | (.ok (), b) =>
      let (preempt, b) := b.handleYield
      (.ok preempt, b)

/-- Where a thread resumes that was switched away from. -/
abbrev resumePoint : Nat := 0x08000301

/-- Save the registers of the thread in `source` and load those of the thread in `target`. -/
def exchange (b : Board) (source target : Nat) : Board :=
  match b.kernel with
  | none => b
  | some s =>
    let threads := s.threads.modify source fun t =>
      { t with context := { t.context with sp := b.psp, control := b.control, pc := resumePoint } }
    let entered := (threads.get target).context
    { b with
      kernel := some { s with threads }
      psp := entered.sp
      control := entered.control }

/-- The code of a thread that is dispatched for the first time, by its context. -/
def entered? (p : Program) (b : Board) (target : Nat) : Option (Code Unit) :=
  b.kernel.bind fun s =>
    let c := (s.threads.get target).context
    if c.pc = Kernel.trampoline ||| 1 then
      some (Kernel.thread (p.body c.arg0 c.arg1))
    else none

end Board

/-- The code that waiting threads go on with, by block. -/
abbrev Parked := List (Nat × Code Unit)

namespace Program

/-- Run `code` on the board, from pause to pause. -/
def go (p : Program) : Nat → Parked → Code Unit → Board → Ending × Board
  | 0, _, _, b => (.windows, b)
  | fuel + 1, parked, code, b =>
    match code.advance b with
    | (.done (), b) => (.done, b)
    | (.stop cause, b) => (.halted cause, b)
    | (.window next, b) =>
      match b.passWindow with
      | (.error e, b) => (e, b)
      | (.ok true, b) => p.go fuel parked (do Kernel.yieldNow; next) b
      | (.ok false, b) => p.go fuel parked next b
    | (.wait next, b) =>
      let b := { b with waits := b.waits + 1 }
      if b.timer.isLive then p.go fuel parked next { b with tickPending := true }
      else (.stuck, b)
    | (.switch source target next, b) =>
      let entered := b.entered? p target
      let parked := (source, next) :: parked.filter (·.1 ≠ source)
      let resumed := (parked.lookup target).getD (.done ())
      p.go fuel parked (entered.getD resumed) (b.exchange source target)
    | (.loop l next, b) =>
      p.go fuel parked (do if ← l.round then .loop l next else next) b
    | (code, b) => p.go fuel parked code b

/-- Run a program on the board. -/
def run (p : Program) (b : Board) : Ending × Board :=
  p.go ((Board.windowLimit + 2) * p.burst) [] p.main b

/-- The sample firmware from reset on. -/
def firmware : Program :=
  { main := Kernel.boot Firmware.app
    body := Firmware.body
    burst := 64 }

end Program

end RoundRobin
