import RoundRobin.Scheduler.Lifecycle

/-!
# Ticks and sleep

Tick accounting, time slices, and sleep. A sleeper is off the processor until the tick handler
finds its wake tick reached. Durations are converted to whole ticks, rounded down; a duration
below one tick is spent in a busy wait.
-/

namespace RoundRobin.Scheduler

variable {m : Type → Type} [Monad m] [MonadLiftT (Except Halt) m] [Port m]
  [MonadStateOf Scheduler m]

/-- Timer interrupts since boot. -/
def readTicks : m Nat :=
  Port.criticalSection (do return (← get).ticks)

/-- Ticks since the tick `start`; none if that is in the future. -/
def elapsed (start : Nat) : m Nat :=
  return (← readTicks) - start

/-- Where the ticks went. -/
def readStats : m TickStats :=
  Port.criticalSection (do return (← get).stats)

/-- Record the result of calibration. -/
def setLoopsPerTick (loops : Nat) : m Unit := do
  modify fun s => { s with loopsPerTick := loops }
  let perSecond ← Word.mul Word.limit64 loops Config.tickHz
  Port.log { severity := .info, source := .timer, text := s!"{perSecond} loops/s" }

/-- Log the number of ticks. -/
def printTimerStats : m Unit := do
  let ticks ← readTicks
  Port.log { severity := .info, source := .timer, text := s!"Timer: {ticks} ticks" }

/-- Log where the ticks went. -/
def printThreadStats : m Unit := do
  let stats ← readStats
  report .info
    s!"Thread: {stats.idle} idle ticks, {stats.kernel} kernel ticks, {stats.user} user ticks"

/-- Log timer and thread statistics. -/
def printStats : m Unit := do
  printTimerStats
  printThreadStats

/-- Block the running thread until the tick counter reaches `wakeTick`. Interrupts must be masked,
and the idle thread cannot sleep. -/
def sleepUntil (wakeTick : Nat) : m Unit := do
  require ((← Port.inInterrupt) = false) .sleepInInterrupt
  require ((← Port.level) = .off) .sleepUntilUnmasked
  let caller ← current
  require ((← isIdle caller) = false) .idleSleep
  modifyThread caller fun t => { t with wakeTick := some wakeTick }
  pushSleeper caller
  block

/-- Block the running thread for `n` ticks. -/
def sleep (n : Nat) : m Unit := do
  require ((← Port.level) = .on) .sleepMasked
  if n ≠ 0 then
    let start ← readTicks
    let old ← Port.disable
    sleepUntil (← Word.add Word.limit64 start n)
    let _ ← Port.setLevel old

/-- Iterations of the busy wait that stands for `num / denom` seconds of less than a tick. -/
def spinCount (loopsPerTick num denom : Nat) : Except Halt Nat := do
  let loops ← Word.mul Word.limit64 loopsPerTick num
  let scaled ← Word.mul Word.limit64 (loops / 1000) Config.tickHz
  Word.div scaled (denom / 1000)

/-- Sleep for `num / denom` seconds: blocked if that is a tick or more, else in a busy wait, which
takes no time that the tick counter shows. -/
def sleepFor (num denom : Nat) : m Unit := do
  let scaled ← Word.mul Word.limit64 num Config.tickHz
  let ticks ← Word.div scaled denom
  require ((← Port.level) = .on) .sleepMasked
  if ticks > 0 then
    sleep ticks
  else
    let _ ← spinCount (← get).loopsPerTick num denom

/-- Sleep for `ms` milliseconds. -/
def msleep (ms : Nat) : m Unit :=
  sleepFor ms 1000

/-- Sleep for `us` microseconds. -/
def usleep (us : Nat) : m Unit :=
  sleepFor us 1000000

/-- Sleep for `ns` nanoseconds. -/
def nsleep (ns : Nat) : m Unit :=
  sleepFor ns 1000000000

/-- Unblock the sleepers due at the tick `now`, in wake order, at most `count` of them. -/
def wakeDue (now : Nat) : Nat → m Unit
  | 0 => return
  | count + 1 => do
    match ← popSleeper now with
    | none => return
    | some sleeper =>
      modifyThread sleeper fun t => { t with wakeTick := none }
      unblock sleeper
      wakeDue now count

/-- Unblock every sleeper due at the tick `now`, in wake order. -/
def wake (now : Nat) : m Unit := do
  wakeDue now (← get).sleepers.queue.members.length

/-- The earliest pending wake tick. -/
def nextWakeup : m (Option Nat) := do
  let s ← get
  return s.sleepers.nextWakeup s.threads

/-- Charge a tick to the running thread, and ask for a yield once its slice is used up. -/
def tick : m Unit := do
  let running ← current
  let s ← get
  if ← isIdle running then
    let idle ← Word.add Word.limit64 s.stats.idle 1
    set { s with stats.idle := idle }
  else if (← thread running).isUser then
    let user ← Word.add Word.limit64 s.stats.user 1
    set { s with stats.user := user }
  else
    let kernel ← Word.add Word.limit64 s.stats.kernel 1
    set { s with stats.kernel := kernel }
  let sliceTicks ← Word.add Word.limit32 s.sliceTicks 1
  modify fun s => { s with sliceTicks }
  if sliceTicks ≥ Config.timeSlice then
    Port.requestYield

/-- The tick handler: count the tick, charge it, then release the sleepers that are due. -/
def timerInterrupt : m Unit := do
  let ticks ← Word.add Word.limit64 (← get).ticks 1
  modify fun s => { s with ticks }
  tick
  wake ticks

end RoundRobin.Scheduler
