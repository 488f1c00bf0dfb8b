/-!
# Configuration

Rates and limits fixed when the system is built. Nothing is sized while it runs.
-/

namespace RoundRobin.Config

/-- Timer interrupts per second. One interrupt is one tick, the unit of time accounting. -/
abbrev tickHz : Nat := 100

/-- Frequency of the clock that feeds the tick timer, in hertz. -/
abbrev clockHz : Nat := 16000000

/-- Ticks a thread may run before the tick handler asks for preemption. -/
abbrev timeSlice : Nat := 4

/-- Bytes of a thread block: control block at the low end, stack above it. -/
abbrev blockSize : Nat := 4096

/-- Blocks in the board's pool. The boot thread has a block of its own. -/
abbrev maxThreads : Nat := 8

/-- The lowest priority. -/
abbrev priorityMin : Nat := 0

/-- The priority of the boot thread. -/
abbrev priorityDefault : Nat := 31

/-- The highest priority. -/
abbrev priorityMax : Nat := 63

/-- Bytes of a stored name, its terminating zero byte included. -/
abbrev nameLength : Nat := 16

/-- The integrity tag of every control block. -/
abbrev threadMagic : Nat := 0xcd6abf4b

end RoundRobin.Config
