import RoundRobin.Layout
import RoundRobin.Scheduler.Clock

/-!
# The host processor

A processor without threads of control, for running the scheduler on its own. It keeps the
interrupt mask, the handler flag, the pending yield request and a stack pointer. A switch stores
the stack pointer in the outgoing context and loads the incoming one, so the running thread is
found as on hardware; the caller of a blocking operation simply goes on as the thread that was
dispatched.
-/

namespace RoundRobin

/-- The host processor, the scheduler on it, and what both did. -/
structure Host where
  /-- The scheduler. -/
  scheduler : Scheduler
  /-- The interrupt level. -/
  level : Level := .off
  /-- Whether an interrupt handler is running. -/
  inInterrupt : Bool := false
  /-- Whether a yield was asked for and not yet taken. -/
  yieldPending : Bool := false
  /-- The stack pointer. -/
  sp : Nat
  /-- Waits for an interrupt so far. -/
  waits : Nat := 0
  /-- Block of the thread entered by each switch so far. -/
  switches : Array Nat := #[]
  /-- Log records so far. -/
  records : Array Record := #[]

/-- A computation on the host. A halt keeps the state it happened in. -/
abbrev HostM := EStateM Halt Host

namespace Host

instance : MonadStateOf Scheduler HostM where
  get := fun h => .ok h.scheduler h
  set scheduler := fun h => .ok () { h with scheduler }
  modifyGet f := fun h =>
    let (a, scheduler) := f h.scheduler
    .ok a { h with scheduler }

instance : Port HostM where
  level := fun h => .ok h.level h
  disable := fun h => .ok h.level { h with level := .off }
  enable := fun h => .ok () { h with level := .on }
  inInterrupt := fun h => .ok h.inInterrupt h
  requestYield := fun h => .ok () { h with yieldPending := true }
  stackPointer := fun h => .ok h.sp h
  waitForInterrupt := do
    let waits ← Word.add Word.limit64 (← getThe Host).waits 1
    modifyThe Host fun h => { h with waits, level := .on }
  freshContext entry arg0 arg1 top := return .entering entry arg0 arg1 top
  switchContext source target := fun h =>
    if h.level = .off then
      let threads := h.scheduler.threads.modify source fun t =>
        { t with context.sp := h.sp }
      let sp := (h.scheduler.threads.get target).context.sp
      .ok () { h with
        scheduler.threads := threads
        sp
        switches := h.switches.push (Block.base sp) }
    else
      .error .switchUnmasked h
  log record := fun h => .ok () { h with records := h.records.push record }

/-- Where every thread is first dispatched. -/
abbrev trampoline : Nat := 0x100000

/-- The body of every thread. -/
abbrev threadBody : Nat := 0x100040

/-- A masked processor with the stack pointer `sp` and a scheduler over a pool of `n` blocks. -/
def new (n sp : Nat) : Host :=
  { scheduler := { pool := Layout.pool n, trampoline }, sp }

/-- The stack pointer `offset` bytes into the boot block. -/
def bootStack (offset : Nat) : Nat :=
  Layout.bootBlock + offset

/-- Adopt the boot context and start the idle thread. -/
def boot : HostM (Except SpawnError Unit) := do
  Scheduler.init
  Scheduler.start threadBody

/-- Deliver one timer interrupt. -/
def interrupt : HostM Unit := do
  modifyThe Host fun h => { h with inInterrupt := true }
  Scheduler.timerInterrupt
  modifyThe Host fun h => { h with inInterrupt := false }

/-- Take the pending yield request, if there is one. -/
def takeYield : HostM Bool :=
  modifyGetThe Host fun h => (h.yieldPending, { h with yieldPending := false })

/-- Deliver one timer interrupt and yield if the handler asked for it. -/
def interruptAndPreempt : HostM Unit := do
  interrupt
  if ← takeYield then
    Scheduler.yieldNow

end Host

end RoundRobin
