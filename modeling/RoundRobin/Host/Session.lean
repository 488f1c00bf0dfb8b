import RoundRobin.Host.Request

/-!
# Sessions on the host

A session carries out requests one after another and reports on each: the answer, the log records
it wrote, and the state it left. A halt ends the session.
-/

namespace RoundRobin.Host

/-- One step of a session. -/
inductive Step where
  /-- A single request. -/
  | call (request : Request)
  /-- The life of a thread that is entered with `arg` and makes the requests `body`. -/
  | runThread (arg : Nat) (body : List Request)

/-- The state after a step. -/
structure Snapshot where
  /-- Identifier of the thread whose stack is in use, if the stack pointer is in a block. -/
  running : Option Nat
  level : Level
  yieldPending : Bool
  ready : List Nat
  /-- Sleepers with their wake ticks. -/
  sleepers : List (Nat × Option Nat)
  destruction : List Nat
  /-- All threads by identifier. -/
  threads : List (Nat × Status × Owner)
  ticks : Nat
  sliceTicks : Nat
  stats : TickStats
  nextWakeup : Option Nat
  switches : Nat
  waits : Nat
  /-- Blocks in use, handed out and taken back. -/
  pages : Nat × Nat × Nat

/-- What a request answered, logged and left. -/
structure Outcome where
  reply : Reply
  records : List Record
  /-- Absent after a halt. -/
  state : Option Snapshot

/-- The outcome of a step, with the outcomes of the requests made within it. -/
structure Report extends Outcome where
  body : List Outcome := []

/-- A host in use. -/
structure Session where
  host : Host
  /-- The slots of the pool that have been handed out at some time are the first ones, as many
  as this. -/
  handedOut : Nat := 0
  /-- The system has halted. -/
  halted : Bool := false

/-- Read off the state. -/
def snapshot (h : Host) : Snapshot :=
  let s := h.scheduler
  let threads := (threadBlocks s).map fun block =>
    let t := s.threads.get block
    (t.tid, t.status, t.owner)
  { running := (s.threadAt? h.sp).map (·.tid)
    level := h.level
    yieldPending := h.yieldPending
    ready := s.tidsOf s.ready
    sleepers := s.sleepers.queue.members.map fun block =>
      let t := s.threads.get block
      (t.tid, t.wakeTick)
    destruction := s.tidsOf s.destruction
    threads := threads.mergeSort fun a b => a.1 ≤ b.1
    ticks := s.ticks
    sliceTicks := s.sliceTicks
    stats := s.stats
    nextWakeup := s.sleepers.nextWakeup s.threads
    switches := h.switches.size
    waits := h.waits
    pages := s.pool.counters }

namespace Session

/-- The session with the host `h`. -/
def onHost (s : Session) (h : Host) : Session :=
  { s with host := h, handedOut := max s.handedOut (Layout.slotsReached h.scheduler.pool.busy) }

/-- Do `action` and report on it. -/
def act (s : Session) (action : HostM Reply) : Outcome × Session :=
  match action { s.host with records := #[] } with
  | .ok reply h =>
    ({ reply, records := h.records.toList, state := some (snapshot h) }, s.onHost h)
  | .error cause h =>
    let s := s.onHost h
    let reply := .halted cause (cause.message (Layout.label s.handedOut))
    ({ reply, records := h.records.toList, state := none }, { s with halted := true })

/-- Carry out requests up to the first halt. -/
def requests (s : Session) : List Request → List Outcome × Session
  | [] => ([], s)
  | request :: rest =>
    let (outcome, s) := s.act (perform s.handedOut request)
    if s.halted then
      ([outcome], s)
    else
      let (outcomes, s) := s.requests rest
      (outcome :: outcomes, s)

/-- The answer of the last of `outcomes`. -/
def lastReply (outcomes : List Outcome) : Reply :=
  (outcomes.getLast?.map (·.reply)).getD .nothing

/-- Carry out one step. A thread is entered with interrupts on, and exits after its requests. -/
def step (s : Session) : Step → Report × Session
  | .call request =>
    let (outcome, s) := s.act (perform s.handedOut request)
    ({ outcome with }, s)
  | .runThread arg body =>
    let (outcomes, s) := { s with host.level := .on }.requests body
    if s.halted then
      ({ reply := lastReply outcomes, records := [], state := none, body := outcomes }, s)
    else
      let (outcome, s) := s.act (do Scheduler.retire; return .number arg)
      ({ outcome with body := outcomes }, s)

/-- Carry out steps up to the first halt. -/
def run (s : Session) : List Step → List Report × Session
  | [] => ([], s)
  | first :: rest =>
    let (report, s) := s.step first
    if s.halted then
      ([report], s)
    else
      let (reports, s) := s.run rest
      (report :: reports, s)

end Session

/-- A session with a pool of `n` blocks and the stack pointer `sp`; one that is `booted` begins
with the two steps that adopt the boot context and start the idle thread. Gives the reports and
the block of each switch. -/
def session (n sp : Nat) (booted : Bool) (steps : List Step) :
    List Report × List String :=
  let steps := if booted then .call .init :: .call .start :: steps else steps
  let (reports, s) := Session.run { host := .new n sp } steps
  (reports, s.host.switches.toList.map (Layout.label s.handedOut))

end RoundRobin.Host
