import RoundRobin.Host
import RoundRobin.Tick.Calibration

/-!
# Requests to a scheduler on the host

The operations of the scheduler and of the host as data, and `perform`, which carries one out.
Threads are named by identifier: a request for a thread that has no block is answered so and
changes nothing.
-/

namespace RoundRobin.Host

/-- One operation. -/
inductive Request where
  | init
  | start
  | create (name : String) (priority arg : Nat)
  | yieldNow
  | block
  | unblock (tid : Nat)
  | retire
  | exit
  | idlePass
  | doSchedule (status : Status)
  | schedule
  | tick
  | timerInterrupt
  | wake (now : Nat)
  | sleep (n : Nat)
  | sleepUntil (tick : Nat)
  | msleep (n : Nat)
  | usleep (n : Nat)
  | nsleep (n : Nat)
  | ticks
  | elapsed (start : Nat)
  | stats
  | printStats
  | printTimerStats
  | printThreadStats
  | nextWakeup
  | current
  | runningThread
  | tid
  | name
  | priority
  | setPriority (priority : Nat)
  | isIdle (tid : Nat)
  | loopsPerTick
  | setLoopsPerTick (loops : Nat)
  /-- Calibrate against a loop of constant speed and record the result. -/
  | calibrate (perTick : Nat)
  /-- Deliver `n` timer interrupts, at most `repeatLimit`, with a yield after each that asks for
  one if `preempt`. -/
  | interrupt (n : Nat) (preempt : Bool)
  /-- Yield `n` times, at most `repeatLimit`. -/
  | yields (n : Nat)
  | info (tid : Nat)
  | setLevel (level : Level)
  | setInInterrupt (on : Bool)
  | takeYield
  | setTicks (ticks : Nat)
  | setSlice (slice : Nat)
  /-- Set the tick counts one after another, up to the first that could not be read. -/
  | setStats (idle kernel user : Option Nat)
  /-- Write a status into a control block; no queue is touched. -/
  | setStatus (tid : Nat) (status : Status)
  /-- Set whether the saved context of a thread is unprivileged. -/
  | setUser (tid : Nat) (on : Bool)
  /-- Move the saved stack pointer of a thread within its block. -/
  | setSp (tid offset : Nat)
  /-- Destroy the integrity tag of a thread. -/
  | corrupt (tid : Nat)
  /-- Give the block of a thread back to the pool. -/
  | freeBlock (tid : Nat)
  /-- A request about a thread of which only the thread could be read. -/
  | unreadableFor (tid : Nat)
  /-- A request that could not be read. -/
  | unreadable

/-- A thread as it is shown. -/
structure ThreadInfo where
  /-- The control block. -/
  thread : Thread
  /-- The name of its block. -/
  block : String
  /-- Whether the thread would resume in the trampoline. -/
  atTrampoline : Bool
  /-- Whether the first saved register holds the thread body. -/
  bodyInFirst : Bool
  /-- Whether all saved registers behind the two arguments are zero. -/
  othersZero : Bool
  /-- Block and offset of the saved stack pointer, unless that is zero. -/
  stack : Option (String × Nat)

/-- The answer to a request. -/
inductive Reply where
  | nothing
  | number (n : Nat)
  | tick (n : Option Nat)
  | text (s : String)
  | flag (b : Bool)
  | level (l : Level)
  | tids (ns : List Nat)
  | stats (s : TickStats)
  | info (i : ThreadInfo)
  | refused (e : SpawnError)
  | noThread
  | unreadable
  | halted (cause : Halt) (message : String)

/-- The answer for the outcome of a creation. -/
def Reply.ofSpawn {α : Type} (f : α → Reply) : Except SpawnError α → Reply
  | .ok a => f a
  | .error e => .refused e

/-- The blocks that hold a thread: the adopted boot block and the blocks in use. -/
def threadBlocks (s : Scheduler) : List Nat :=
  s.initial.toList ++ s.pool.blocksInUse

/-- The block of the thread `tid`. -/
def find? (s : Scheduler) (tid : Nat) : Option Nat :=
  (threadBlocks s).find? fun block => (s.threads.get block).tid == tid

/-- Answer with `act` for the block of the thread `tid`. -/
def withThread (tid : Nat) (act : Nat → HostM Reply) : HostM Reply := do
  match find? (← getThe Scheduler) tid with
  | none => return .noThread
  | some block => act block

/-- Identifier of the thread whose stack is in use. -/
def runningTid : HostM Nat := do
  return (← Scheduler.thread (← Scheduler.runningThread)).tid

/-- A request repeats an action no more often than this. -/
abbrev repeatLimit : Nat := 2000

/-- Do `act` `n` times and list the running thread after each. -/
def repeated (act : HostM Unit) : Nat → HostM (List Nat)
  | 0 => return []
  | n + 1 => do
    act
    let tid ← runningTid
    let rest ← repeated act n
    return tid :: rest

/-- How the thread in `block` is shown when `handedOut` slots have been handed out. -/
def describe (s : Scheduler) (handedOut block : Nat) : ThreadInfo :=
  let t := s.threads.get block
  { thread := t
    block := Layout.label handedOut block
    atTrampoline := t.context.pc == trampoline
    bodyInFirst := t.context.arg0 == threadBody
    othersZero := (t.context.general.toList.drop 2).all (· == 0)
    stack :=
      if t.context.sp = 0 then none
      else some (Layout.label handedOut (Block.base t.context.sp),
        t.context.sp % Config.blockSize) }

/-- Do `act` and answer nothing. -/
def quietly (act : HostM Unit) : HostM Reply := do
  act
  return .nothing

/-- Carry out a request. `handedOut` slots of the pool have been handed out so far. -/
def perform (handedOut : Nat) : Request → HostM Reply
  | .init => quietly Scheduler.init
  | .start => return .ofSpawn (fun _ => .nothing) (← Scheduler.start threadBody)
  | .create name priority arg =>
    return .ofSpawn .number (← Scheduler.create name priority threadBody arg)
  | .yieldNow => quietly Scheduler.yieldNow
  | .block => quietly Scheduler.block
  | .unblock tid => withThread tid fun b => quietly (Scheduler.unblock b)
  | .retire => quietly Scheduler.retire
  | .exit => Scheduler.exit
  | .idlePass => quietly Scheduler.idlePass
  | .doSchedule status => quietly (Scheduler.doSchedule status)
  | .schedule => quietly Scheduler.schedule
  | .tick => quietly Scheduler.tick
  | .timerInterrupt => quietly Scheduler.timerInterrupt
  | .wake now => quietly (Scheduler.wake now)
  | .sleep n => quietly (Scheduler.sleep n)
  | .sleepUntil tick => quietly (Scheduler.sleepUntil tick)
  | .msleep n => quietly (Scheduler.msleep n)
  | .usleep n => quietly (Scheduler.usleep n)
  | .nsleep n => quietly (Scheduler.nsleep n)
  | .ticks => return .number (← Scheduler.readTicks)
  | .elapsed start => return .number (← Scheduler.elapsed start)
  | .stats => return .stats (← Scheduler.readStats)
  | .printStats => quietly Scheduler.printStats
  | .printTimerStats => quietly Scheduler.printTimerStats
  | .printThreadStats => quietly Scheduler.printThreadStats
  | .nextWakeup => return .tick (← Scheduler.nextWakeup)
  | .current => return .text (← Scheduler.currentThread).describe
  | .runningThread => return .number (← runningTid)
  | .tid => return .number (← Scheduler.tid)
  | .name => return .text (← Scheduler.name)
  | .priority => return .number (← Scheduler.priority)
  | .setPriority priority => quietly (Scheduler.setPriority priority)
  | .isIdle tid => withThread tid fun b => return .flag (← Scheduler.isIdle b)
  | .loopsPerTick => return .number (← getThe Scheduler).loopsPerTick
  | .setLoopsPerTick loops => quietly (Scheduler.setLoopsPerTick loops)
  | .calibrate perTick => do
    let loops ← Tick.calibrate fun loops => return decide (perTick < loops)
    Scheduler.setLoopsPerTick loops
    return .number loops
  | .interrupt n preempt => do
    let act := if preempt then interruptAndPreempt else Host.interrupt
    return .tids (← repeated act (min n repeatLimit))
  | .yields n => return .tids (← repeated Scheduler.yieldNow (min n repeatLimit))
  | .info tid => withThread tid fun b => return .info (describe (← getThe Scheduler) handedOut b)
  | .setLevel level => return .level (← Port.setLevel level)
  | .setInInterrupt on =>
    quietly (modifyThe Host fun h => { h with inInterrupt := on })
  | .takeYield => return .flag (← Host.takeYield)
  | .setTicks ticks => quietly (modifyThe Scheduler fun s => { s with ticks })
  | .setSlice slice => quietly (modifyThe Scheduler fun s => { s with sliceTicks := slice })
  | .setStats idle kernel user => do
    let some idle := idle | return .unreadable
    modifyThe Scheduler fun s => { s with stats.idle := idle }
    let some kernel := kernel | return .unreadable
    modifyThe Scheduler fun s => { s with stats.kernel := kernel }
    let some user := user | return .unreadable
    modifyThe Scheduler fun s => { s with stats.user := user }
    return .nothing
  | .setStatus tid status => withThread tid fun b => quietly (Scheduler.setStatus b status)
  | .setUser tid on => withThread tid fun b => quietly <| Scheduler.modifyThread b fun t =>
    let cleared := t.context.control / 2 * 2
    { t with context.control := if on then cleared + Context.unprivileged else cleared }
  | .setSp tid offset => withThread tid fun b => quietly <| Scheduler.modifyThread b fun t =>
    { t with context.sp := b + offset }
  | .corrupt tid => withThread tid fun b => quietly (Scheduler.modifyThread b Thread.corrupt)
  | .freeBlock tid => withThread tid fun b => quietly do
    let s ← getThe Scheduler
    let pool ← s.pool.free b
    set { s with pool }
  | .unreadableFor tid => withThread tid fun _ => return .unreadable
  | .unreadable => return .unreadable

end RoundRobin.Host
