import RoundRobin.Board.Kernel

/-!
# The sample firmware

Three sleepers that report each wake-up, a thread that burns time and exits, and a main thread
that prints statistics once a second. Also the rounds of all loops that code can enter.
-/

namespace RoundRobin

namespace Firmware

/-- Where a sleeper is entered, with its period. -/
abbrev sleeperEntry : Nat := 0x08000400

/-- Where the spinner is entered, with its number of rounds. -/
abbrev spinnerEntry : Nat := 0x08000500

/-- Log a record of the firmware. -/
def report (severity : Severity) (text : String) : Code Unit :=
  Port.log { severity, source := .firmware, text }

/-- One round of a sleeper. -/
def sleepAndReport (period : Nat) : Code Unit := do
  Kernel.sleep period
  let name := (← Kernel.currentThread).name
  let tick ← Kernel.ticks
  report .info s!"{name} woke at tick {tick}"

/-- A busy wait, then a report. The wait itself takes no time. -/
def spinner : Code Unit := do
  let start ← Kernel.ticks
  let ticks ← Kernel.elapsed start
  report .info s!"spinner done after {ticks} ticks"

/-- Create a thread; if that fails, say so and go on. -/
def launch (name : String) (priority entry arg : Nat) : Code Unit := do
  match ← Kernel.create name priority entry arg with
  | .ok _ => return
  | .error e => report .warn (name ++ ": " ++ e.message)

/-- The main thread. -/
def app : Code Unit := do
  launch "sleep-5" Config.priorityDefault sleeperEntry 5
  launch "sleep-3" Config.priorityDefault sleeperEntry 3
  launch "sleep-7" Config.priorityDefault sleeperEntry 7
  launch "spinner" Config.priorityMin spinnerEntry 200
  Code.loop .statistics (.done ())

/-- What a thread of the firmware does. -/
def body (entry arg : Nat) : Code Unit :=
  if entry = sleeperEntry then Code.loop (.sleeper arg) (.done ())
  else if entry = spinnerEntry then spinner
  else Kernel.idle

end Firmware

/-- One round of a loop; whether it asks for another. -/
def Loop.round : Loop → Code Bool
  | idle => do
    Kernel.booted
    Scheduler.idlePass
    return true
  | awaitTick first => return (← Kernel.ticks) == first
  | sleeper period => do
    Firmware.sleepAndReport period
    return true
  | statistics => do
    Kernel.msleep 1000
    Kernel.printStats
    return true

end RoundRobin
