import RoundRobin.Board.Code
import RoundRobin.Scheduler.Clock
import RoundRobin.Tick.Calibration
import RoundRobin.Tick.Divisor

/-!
# The kernel

The scheduler as the one kernel of the board: what threads may call, and the way from reset to the
first thread. Every call finds out first whether the kernel has been built.
-/

namespace RoundRobin.Kernel

/-- Go on only if the kernel has been built. -/
def booted : Code Unit := do
  let _ ← getThe Scheduler

/-- Start a thread that runs `entry arg`. -/
def create (name : String) (priority entry arg : Nat) :
    Code (Except SpawnError Nat) :=
  Port.criticalSection do
    booted
    Scheduler.create name priority entry arg

/-- Give up the processor and stay runnable. -/
def yieldNow : Code Unit := do
  booted
  Scheduler.yieldNow

/-- Stop running until unblocked. Interrupts must be masked. -/
def block : Code Unit := do
  booted
  Scheduler.block

/-- Make the thread in `block` ready. -/
def unblock (block : Nat) : Code Unit := do
  booted
  Scheduler.unblock block

/-- Terminate the calling thread. -/
def exit {α : Type} : Code α := do
  booted
  Scheduler.exit

/-- The calling thread. -/
def currentThread : Code Thread := do
  booted
  Scheduler.currentThread

/-- Change the priority of the calling thread. -/
def setPriority (priority : Nat) : Code Unit := do
  booted
  Scheduler.setPriority priority

/-- Sleep for `n` ticks. -/
def sleep (n : Nat) : Code Unit := do
  booted
  Scheduler.sleep n

/-- Sleep for `n` milliseconds. -/
def msleep (n : Nat) : Code Unit := do
  booted
  Scheduler.msleep n

/-- Sleep for `n` microseconds. -/
def usleep (n : Nat) : Code Unit := do
  booted
  Scheduler.usleep n

/-- Sleep for `n` nanoseconds. -/
def nsleep (n : Nat) : Code Unit := do
  booted
  Scheduler.nsleep n

/-- Timer interrupts since boot. -/
def ticks : Code Nat := do
  booted
  Scheduler.readTicks

/-- Ticks since the tick `start`. -/
def elapsed (start : Nat) : Code Nat := do
  booted
  Scheduler.elapsed start

/-- Log timer and thread statistics. -/
def printStats : Code Unit := do
  booted
  Scheduler.printStats

/-- Where every created thread begins. -/
abbrev trampoline : Nat := 0x08000100

/-- Where the idle thread is entered. -/
abbrev idleEntry : Nat := 0x08000200

/-- The first code of every created thread, around its `body`. -/
def thread (body : Code Unit) : Code Unit := do
  booted
  Scheduler.runThread body
  halt .dyingResumed

/-- The idle thread: block and wait, for ever. -/
def idle : Code Unit :=
  .loop .idle (.done ())

/-- The tick handler. -/
def tickHandler : Code Unit := do
  booted
  Scheduler.timerInterrupt

/-- Make the timer tick at the configured rate. -/
def configureTimer : Code Unit := do
  let cycles ← Tick.divisor Config.clockHz Config.tickHz
  Code.update fun b =>
    { b with timer :=
      { reload := cycles - 1, cleared := true, coreClock := true
        counting := true, interrupting := true } }

/-- Ticks take precedence over yield requests, which have the lowest priority. -/
def setPriorities : Code Unit :=
  Code.update fun b => { b with yieldPriority := 0xff, tickPriority := 0x80 }

/-- Leave the reset context for the process stack at `sp`. -/
def enterThreadMode (sp : Nat) : Code Unit :=
  Code.update fun b => { b with psp := sp, control := Context.processStack }

/-- Whether a busy wait crosses a tick of the live timer. The wait itself takes no time that the
board shows, whatever its count. -/
def crossesTick (_ : Nat) : Code Bool :=
  Tick.crossesTick ticks fun first => .loop (.awaitTick first) (.done ())

/-- Measure the busy wait against the live timer. -/
def calibrate : Code Unit := do
  require ((← Port.level) = .on) .calibrationMasked
  let loops ← Tick.calibrate crossesTick
  booted
  Scheduler.setLoopsPerTick loops

/-- Bring up the kernel and run `app` as the thread `main`. -/
def boot (app : Code Unit) : Code Unit := do
  let _ ← Port.disable
  configureTimer
  setPriorities
  set ({ pool := Layout.pool Config.maxThreads, trampoline } : Scheduler)
  enterThreadMode (← Block.initialStackPointer Layout.bootBlock)
  Scheduler.init
  match ← Scheduler.start idleEntry with
  | .error .outOfMemory => halt .idleNotCreated
  | .ok () =>
    calibrate
    app

end RoundRobin.Kernel
