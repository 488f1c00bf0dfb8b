import RoundRobin.Host.Session

/-!
# Drills

A booted host taken through the situations of daily use, with a short report after each.
-/

namespace RoundRobin.Host

/-- A situation. -/
inductive Drill where
  | create (name : String) (priority : Nat)
  | yieldNow
  | sleep (n : Nat)
  /-- Mask interrupts and block. -/
  | block
  /-- Run a thread that does nothing. -/
  | runThread
  | idlePass
  | interrupt
  /-- A timer interrupt, with a yield if it asks for one. -/
  | preempt
  /-- A request that could not be read. -/
  | unreadable

/-- Go through a situation. -/
def Drill.perform : Drill → HostM Reply
  | create name priority =>
    return .ofSpawn .number (← Scheduler.create name priority threadBody 0)
  | yieldNow => quietly Scheduler.yieldNow
  | sleep n => quietly (Scheduler.sleep n)
  | block => quietly do
    let _ ← Port.disable
    Scheduler.block
  | runThread => quietly (Scheduler.runThread (pure ()))
  | idlePass => quietly Scheduler.idlePass
  | interrupt => quietly Host.interrupt
  | preempt => quietly interruptAndPreempt
  | unreadable => return .unreadable

/-- The report on a drill: the answer and, unless the system halted, the state it left with the
running thread in one line. -/
structure DrillReport where
  reply : Reply
  state : Option (String × Snapshot)

/-- The running thread in one line. -/
def runningText (h : Host) : String :=
  ((h.scheduler.threadAt? h.sp).map Thread.describe).getD ""

/-- Go through drills up to the first halt. -/
def drills (s : Session) : List Drill → List DrillReport
  | [] => []
  | drill :: rest =>
    let (outcome, s) := s.act drill.perform
    let report :=
      { reply := outcome.reply
        state := outcome.state.map fun state => (runningText s.host, state) }
    if s.halted then [report] else report :: drills s rest

/-- A session after boot, with the board's number of blocks. -/
def bootedSession : Session :=
  ({ host := .new Config.maxThreads (bootStack (Config.blockSize - 8)) : Session }.act
    (return .ofSpawn (fun _ => .nothing) (← boot))).2

end RoundRobin.Host
