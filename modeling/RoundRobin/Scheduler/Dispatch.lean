import RoundRobin.Scheduler

/-!
# The scheduling step

Every way to give up the processor ends in `schedule`: take the head of the ready queue or else
the idle thread, check both threads, dispatch, and switch if they differ. A thread cannot free the
stack it runs on, so an exiting thread is parked on the destruction queue and taken back by the
thread that next passes through `doSchedule`.
-/

namespace RoundRobin.Scheduler

variable {m : Type → Type} [Monad m] [MonadLiftT (Except Halt) m] [Port m]
  [MonadStateOf Scheduler m]

/-- The thread to dispatch: the head of the ready queue, or the idle thread if it is empty. -/
def nextThread : m Nat := do
  let head ← popReady
  match head.or (← get).idle with
  | some block => return block
  | none => halt .nothingToRun

/-- Dispatch the next thread. The caller must have left the running state, with interrupts
masked. -/
def schedule : m Unit := do
  let source ← runningThread
  let target ← nextThread
  require ((← Port.level) = .off) .scheduleUnmasked
  let old ← thread source
  require (old.status ≠ .running) (.stillRunning old.tid)
  require (← thread target).IsValid (.nextCorrupted target)
  setStatus target .running
  modify fun s => { s with sliceTicks := 0 }
  if source ≠ target then
    if (← thread source).status = .dying ∧ (← get).initial ≠ some source then
      pushDestruction source
    let sourceTid := (← thread source).tid
    let targetTid := (← thread target).tid
    report .trace s!"switch {sourceTid} -> {targetTid}"
    Port.switchContext source target

/-- Take back the blocks on the destruction queue, at most `count` of them. None may be the block
of the running thread. -/
def reclaim (running : Nat) : Nat → m Unit
  | 0 => return
  | count + 1 => do
    match ← popDestruction with
    | none => return
    | some victim =>
      require (victim ≠ running) (.reclaimingOwnBlock (← thread running).tid)
      let victimTid := (← thread victim).tid
      report .debug s!"reclaiming thread {victimTid}"
      let s ← get
      let pool ← s.pool.free victim
      set { s with pool }
      reclaim running count

/-- Take back the blocks of exited threads, give the running thread `status`, and dispatch. -/
def doSchedule (status : Status) : m Unit := do
  require ((← Port.level) = .off) .doScheduleUnmasked
  let block ← current
  reclaim block (← get).destruction.members.length
  setStatus block status
  schedule

end RoundRobin.Scheduler
