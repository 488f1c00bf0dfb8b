import RoundRobin.Scheduler.Dispatch

/-!
# Life of a thread

From the adoption of the boot context and the creation of threads to blocking, yielding and exit.
-/

namespace RoundRobin.Scheduler

variable {m : Type → Type} [Monad m] [MonadLiftT (Except Halt) m] [Port m]
  [MonadStateOf Scheduler m]

/-- Write a fresh control block into `block`. -/
def initThread (block : Nat) (name : String) (priority : Nat) : m Unit := do
  let t ← Thread.new name priority
  modifyThread block fun _ => t

/-- Make the code that runs now the thread `main`. Its stack must lie in a thread block and
interrupts must be masked. -/
def init : m Unit := do
  require ((← Port.level) = .off) .initUnmasked
  require ((← get).initial = none) .initialisedTwice
  let block ← runningThread
  initThread block "main" Config.priorityDefault
  let tid ← allocateTid
  modifyThread block fun t => { t with tid, status := .running }
  modify fun s => { s with initial := some block }
  report .debug s!"thread {tid} \"main\" adopted boot context"

/-- Make a blocked thread that will run `entry arg`, and queue it nowhere. -/
def spawn (name : String) (priority entry arg : Nat) :
    m (Except SpawnError Nat) := do
  Thread.requirePriority priority
  let s ← get
  match ← s.pool.alloc s.threads with
  | none => return .error .outOfMemory
  | some (block, pool, threads) =>
    set ({ s with pool, threads }.severLinks block)
    initThread block name priority
    let tid ← allocateTid
    let top ← Block.initialStackPointer block
    let context ← Port.freshContext s.trampoline entry arg top
    modifyThread block fun t => { t with tid, context }
    report .debug s!"created thread {tid} \"{name}\" priority {priority}"
    return .ok block

/-- Create the idle thread and turn interrupts on. -/
def start (entry : Nat) : m (Except SpawnError Unit) := do
  match ← spawn "idle" Config.priorityMin entry 0 with
  | .error e => return .error e
  | .ok block =>
    modify fun s => { s with idle := some block }
    Port.enable
    return .ok ()

/-- Make a blocked thread ready. The caller goes on running. -/
def unblock (block : Nat) : m Unit := do
  require (← thread block).IsValid (.unblockCorrupted block)
  let old ← Port.disable
  let t ← thread block
  require (t.status = .blocked) (.notBlocked t.tid)
  pushReady block
  setStatus block .ready
  let _ ← Port.setLevel old

/-- Create a thread that runs `entry arg`, make it ready, and give its identifier. -/
def create (name : String) (priority entry arg : Nat) :
    m (Except SpawnError Nat) := do
  match ← spawn name priority entry arg with
  | .error e => return .error e
  | .ok block =>
    unblock block
    return .ok (← thread block).tid

/-- Stop running until unblocked. Interrupts must be masked, so that the caller can check a
condition and block on it in one step. -/
def block : m Unit := do
  require ((← Port.inInterrupt) = false) .blockInInterrupt
  require ((← Port.level) = .off) .blockUnmasked
  setStatus (← current) .blocked
  schedule

/-- Give up the processor and stay runnable, behind all threads that are ready. -/
def yieldNow : m Unit := do
  require ((← Port.inInterrupt) = false) .yieldInInterrupt
  let caller ← current
  let old ← Port.disable
  unless ← isIdle caller do
    pushReady caller
  doSchedule .ready
  let _ ← Port.setLevel old

/-- All of an exit up to the switch. -/
def retire : m Unit := do
  require ((← Port.inInterrupt) = false) .exitInInterrupt
  let _ ← Port.disable
  let tid ← tid
  report .debug s!"thread {tid} exiting"
  doSchedule .dying

/-- Terminate the running thread. -/
def exit {α : Type} : m α := do
  retire
  halt .dyingResumed

/-- Life of a dispatched thread: run `body` with interrupts on, then exit. -/
def runThread (body : m Unit) : m Unit := do
  Port.enable
  body
  retire

/-- One round of the idle thread: block until nothing better can run, then wait for an
interrupt. -/
def idlePass : m Unit := do
  let _ ← Port.disable
  block
  Port.waitForInterrupt

end RoundRobin.Scheduler
