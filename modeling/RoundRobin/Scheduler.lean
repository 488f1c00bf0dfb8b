import RoundRobin.Pool
import RoundRobin.Port
import RoundRobin.Queue.Sleep

/-!
# Scheduling state

All state of the one scheduler, and the small steps on it that the operations are built from. The
operations are written once, for every computation `m` that has a processor (`Port m`), holds a
scheduler and can halt.
-/

namespace RoundRobin

/-- Where the ticks went. -/
structure TickStats where
  /-- Ticks in the idle thread. -/
  idle : Nat := 0
  /-- Ticks in privileged threads. -/
  kernel : Nat := 0
  /-- Ticks in unprivileged threads. -/
  user : Nat := 0
  deriving DecidableEq, Repr

/-- The scheduler of one processor. -/
structure Scheduler where
  /-- Blocks for all threads but the boot thread. -/
  pool : Pool
  /-- The control blocks. -/
  threads : Memory Thread := {}
  /-- Where every new thread is first dispatched. -/
  trampoline : Nat
  /-- Threads ready to run, dispatched from the head. -/
  ready : Queue := .new .ready
  /-- Threads that wait for a tick. -/
  sleepers : SleepQueue := {}
  /-- Exited threads whose blocks are still to be taken back. -/
  destruction : Queue := .new .destruction
  /-- Runs when no thread is ready. -/
  idle : Option Nat := none
  /-- The adopted boot thread, whose block is not the pool's. -/
  initial : Option Nat := none
  /-- The next thread identifier. -/
  nextTid : Nat := 1
  /-- Ticks the running thread has had since it was dispatched. -/
  sliceTicks : Nat := 0
  /-- Ticks charged so far. -/
  stats : TickStats := {}
  /-- Timer interrupts since boot. -/
  ticks : Nat := 0
  /-- Busy-wait iterations in a tick, as calibrated. -/
  loopsPerTick : Nat := 0

namespace Scheduler

/-- Identifiers of the members of a queue, from head to tail. -/
def tidsOf (s : Scheduler) (q : Queue) : List Nat :=
  q.members.map fun block => (s.threads.get block).tid

/-- The thread whose stack holds the address `sp`. -/
def threadAt? (s : Scheduler) (sp : Nat) : Option Thread :=
  (Block.containing sp).toOption.map s.threads.get

/-- What clearing `block` leaves of the queues. Only a block that was taken back while its thread
was queued is on one. A queue ends with it; the ready queue ends before it, because the next
thread in the block is put there. -/
def severLinks (s : Scheduler) (block : Nat) : Scheduler :=
  { s with
    ready := s.ready.cutBefore block
    sleepers := ⟨s.sleepers.queue.cutAfter block⟩
    destruction := s.destruction.cutAfter block }

theorem severLinks_of_notMem {s : Scheduler} {block : Nat} (ready : block ∉ s.ready.members)
    (sleep : block ∉ s.sleepers.queue.members) (destruction : block ∉ s.destruction.members) :
    s.severLinks block = s := by
  simp only [severLinks, Queue.cutBefore_of_notMem ready, Queue.cutAfter_of_notMem sleep,
    Queue.cutAfter_of_notMem destruction]

variable {m : Type → Type} [Monad m] [MonadLiftT (Except Halt) m] [Port m]
  [MonadStateOf Scheduler m]

/-- The control block in `block`. -/
def thread (block : Nat) : m Thread := do
  return (← get).threads.get block

/-- Change the control block in `block`. -/
def modifyThread (block : Nat) (f : Thread → Thread) : m Unit :=
  modify fun s => { s with threads := s.threads.modify block f }

/-- Give the thread in `block` a status. -/
def setStatus (block : Nat) (status : Status) : m Unit :=
  modifyThread block fun t => { t with status }

/-- Log a record of the scheduler itself. -/
def report (severity : Severity) (text : String) : m Unit :=
  Port.log { severity, source := .scheduler, text }

/-- Take the next thread identifier. -/
def allocateTid : m Nat := do
  let tid := (← get).nextTid
  let next ← Word.add Word.limit32 tid 1
  modify fun s => { s with nextTid := next }
  return tid

/-- Append a thread to the ready queue. -/
def pushReady (block : Nat) : m Unit := do
  let s ← get
  let (ready, threads) ← s.ready.push s.threads block
  set { s with ready, threads }

/-- Take the head of the ready queue. -/
def popReady : m (Option Nat) := do
  let s ← get
  let (head, ready, threads) ← s.ready.pop s.threads
  set { s with ready, threads }
  return head

/-- Append an exited thread to the destruction queue. -/
def pushDestruction (block : Nat) : m Unit := do
  let s ← get
  let (destruction, threads) ← s.destruction.push s.threads block
  set { s with destruction, threads }

/-- Take the head of the destruction queue. -/
def popDestruction : m (Option Nat) := do
  let s ← get
  let (head, destruction, threads) ← s.destruction.pop s.threads
  set { s with destruction, threads }
  return head

/-- Put a thread to the sleep queue by its wake tick. -/
def pushSleeper (block : Nat) : m Unit := do
  let s ← get
  let (sleepers, threads) ← s.sleepers.insert s.threads block
  set { s with sleepers, threads }

/-- Take the earliest sleeper if it is due at the tick `now`. -/
def popSleeper (now : Nat) : m (Option Nat) := do
  let s ← get
  let (head, sleepers, threads) ← s.sleepers.popDue s.threads now
  set { s with sleepers, threads }
  return head

/-- The block whose stack is in use. Unchecked. -/
def runningThread : m Nat := do
  Block.containing (← Port.stackPointer)

/-- The running thread, after a check of its control block. -/
def current : m Nat := do
  let block ← runningThread
  let t ← thread block
  require t.IsValid (.corrupted block)
  require (t.status = .running) (.notRunning t.tid)
  return block

/-- The control block of the running thread. -/
def currentThread : m Thread := do
  thread (← current)

/-- Identifier of the running thread. -/
def tid : m Nat :=
  return (← currentThread).tid

/-- Name of the running thread. -/
def name : m String :=
  return (← currentThread).name

/-- Priority of the running thread. -/
def priority : m Nat :=
  return (← currentThread).priority

/-- Change the priority of the running thread. It is stored only. -/
def setPriority (priority : Nat) : m Unit := do
  Thread.requirePriority priority
  let block ← current
  Port.criticalSection (modifyThread block fun t => { t with priority })

/-- Whether the thread in `block` is the idle thread. -/
def isIdle (block : Nat) : m Bool := do
  return (← get).idle == some block

end Scheduler

end RoundRobin
