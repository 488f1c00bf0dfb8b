import RoundRobin.Proofs.Host.Boot
import RoundRobin.Proofs.Host.Watch

/-!
# Masking

Every operation treats the interrupt mask as it should: it leaves the level that it found, unless
it is one that leaves a level of its own, and it moves threads and stacks with interrupts masked
only. The second part is shown along the text of each operation, which goes under the watch as it
does without.
-/

namespace RoundRobin

namespace Scheduler

open Host

variable {l : Level}

theorem passes_thread (b : Nat) : Passes l (thread b : WatchM Thread) (thread b) :=
  Passes.state.bind .state fun _ => .value _

theorem passes_modifyThread (b : Nat) {f : Thread → Thread}
    (hf : ∀ t, (f t).status = t.status) :
    Passes l (modifyThread b f : WatchM Unit) (modifyThread b f) :=
  .change fun s => not_restless_of_get (s.get_alter b · f) fun _ _ => hf _

theorem passes_report (severity : Severity) (text : String) :
    Passes l (report severity text : WatchM Unit) (report severity text) :=
  .log _

theorem passes_runningThread : Passes l (runningThread : WatchM Nat) runningThread :=
  Passes.aside (fun _ _ _ hact => by rw [(stackPointer_eq_ok_iff.mp hact).2])
    |>.bind (fun _ _ _ hact => by rw [(stackPointer_eq_ok_iff.mp hact).2]) fun _ => .lift _

theorem passes_current : Passes l (current : WatchM Nat) current :=
  passes_runningThread.bind keepsLevel_runningThread fun b =>
    (passes_thread b).bind (keepsLevel_thread b) fun _ => .require (.require (.value b))

theorem passes_currentThread : Passes l (currentThread : WatchM Thread) currentThread :=
  passes_current.bind keepsLevel_current passes_thread

theorem passes_isIdle (b : Nat) : Passes l (isIdle b : WatchM Bool) (isIdle b) :=
  Passes.state.bind .state fun _ => .value _

theorem passes_requestYield : Passes l (Port.requestYield : WatchM Unit) Port.requestYield :=
  .aside fun _ _ _ hact => by
    obtain rfl := requestYield_eq_ok_iff.mp hact
    rfl

theorem passes_freshContext (entry arg0 arg1 top : Nat) :
    Passes l (Port.freshContext entry arg0 arg1 top : WatchM Context)
      (Port.freshContext entry arg0 arg1 top) :=
  .aside fun _ _ _ hact => by rw [(freshContext_eq_ok_iff.mp hact).2]

theorem passes_allocateTid : Passes l (allocateTid : WatchM Nat) allocateTid :=
  Passes.state.bind .state fun _ => .lifted _ fun next =>
    (Passes.change (f := fun s => { s with nextTid := next })
      fun _ => not_restless_of_threads rfl).bind (.change _) fun _ => .value _

theorem passes_initThread (b : Nat) (name : String) (priority : Nat) :
    Passes l (initThread b name priority : WatchM Unit) (initThread b name priority) := by
  intro h hl
  refine .lifted fun t hnew => .change ?_
  refine not_restless_of_get (h.scheduler.get_alter b · fun _ => t) fun htid hsame => ?_
  exact absurd (hsame.symm.trans (Thread.tid_of_new hnew)) htid

theorem passes_setStatus (b : Nat) (status : Status) :
    Passes .off (setStatus b status : WatchM Unit) (setStatus b status) :=
  .changeMasked _

section

variable {γ : Type} (take : Scheduler → Except Halt (Option Nat × γ × Memory Thread))
  (put : Scheduler → γ → Memory Thread → Scheduler)

/-- The head of a queue is taken off, and no status changes with it. -/
theorem passes_take
    (hcalm : ∀ s head q threads, take s = .ok (head, q, threads) → ¬ s.Restless (put s q threads)) :
    Passes l
      (do let s ← get
          let (head, q, threads) ← take s
          set (put s q threads)
          return head : WatchM (Option Nat))
      (do let s ← get
          let (head, q, threads) ← take s
          set (put s q threads)
          return head) := by
  intro h hl
  refine .state <| .lifted fun taken htake => ?_
  obtain ⟨head, q, threads⟩ := taken
  exact .put hl (hcalm _ _ _ _ htake) (.value head)

end

theorem not_restless_of_pop {s s' : Scheduler} {queue q : Queue} {head : Option Nat}
    (hpop : queue.pop s.threads = .ok (head, q, s'.threads)) : ¬ s.Restless s' := by
  obtain ⟨-, -, -, hthreads⟩ | ⟨b, rest, -, -, -, -, hthreads⟩ := Queue.pop_eq_ok_iff.mp hpop
  · exact not_restless_of_threads hthreads
  · refine not_restless_of_get (b := b) (t := (s.threads.get b).released) ?_ fun _ _ => rfl
    intro c
    rw [hthreads, Memory.get_modify]

theorem passes_popReady : Passes l (popReady : WatchM (Option Nat)) popReady :=
  passes_take (fun s => s.ready.pop s.threads) (fun s ready threads => { s with ready, threads })
    fun _ _ _ _ htake => not_restless_of_pop htake

theorem passes_popDestruction : Passes l (popDestruction : WatchM (Option Nat)) popDestruction :=
  passes_take (fun s => s.destruction.pop s.threads)
    (fun s destruction threads => { s with destruction, threads })
    fun _ _ _ _ htake => not_restless_of_pop htake

theorem passes_popSleeper (now : Nat) :
    Passes l (popSleeper now : WatchM (Option Nat)) (popSleeper now) := by
  refine passes_take (fun s => s.sleepers.popDue s.threads now)
    (fun s sleepers threads => { s with sleepers, threads }) fun s head q threads htake => ?_
  obtain ⟨-, -, -, rfl⟩ | ⟨b, rest, wake, -, -, -, -, -, -, rfl⟩ :=
    SleepQueue.popDue_eq_ok_iff.mp htake
  · exact not_restless_of_threads rfl
  · exact not_restless_of_get (s.threads.get_modify b · _) fun _ _ => rfl

theorem passes_pushReady (b : Nat) : Passes .off (pushReady b : WatchM Unit) (pushReady b) :=
  Passes.state.bind .state fun _ => (Passes.lift _).bind (.lift _) fun _ => .putMasked _

theorem passes_pushDestruction (b : Nat) :
    Passes .off (pushDestruction b : WatchM Unit) (pushDestruction b) :=
  Passes.state.bind .state fun _ => (Passes.lift _).bind (.lift _) fun _ => .putMasked _

theorem passes_pushSleeper (b : Nat) : Passes .off (pushSleeper b : WatchM Unit) (pushSleeper b) :=
  Passes.state.bind .state fun _ => (Passes.lift _).bind (.lift _) fun _ => .putMasked _

theorem passes_nextThread : Passes l (nextThread : WatchM Nat) nextThread := by
  refine passes_popReady.bind keepsLevel_popReady fun head => Passes.state.bind .state fun s => ?_
  cases head.or s.idle with
  | none => exact .lift _
  | some b => exact .value b

theorem passes_switchContext (source target : Nat) :
    Passes .off (Port.switchContext source target : WatchM Unit)
      (Port.switchContext source target) := by
  intro h hl
  have hunmasked : ¬ h.level = .on := by
    rw [hl]
    decide
  unfold Uncaught
  exact (if_neg hunmasked).trans (Passes.masked _ h hl)

theorem passes_schedule : Passes l (schedule : WatchM Unit) schedule := by
  refine passes_runningThread.bind keepsLevel_runningThread fun source => ?_
  refine passes_nextThread.bind keepsLevel_nextThread fun target => ?_
  refine .requireMasked ?_
  refine (passes_thread source).bind (keepsLevel_thread source) fun old => .require ?_
  refine (passes_thread target).bind (keepsLevel_thread target) fun next => .require ?_
  refine (passes_setStatus target .running).bind (.change _) fun _ => ?_
  refine (Passes.changeMasked _).bind (.change _) fun _ => ?_
  refine .ite ?_ (.value ())
  refine (passes_thread source).bind (keepsLevel_thread source) fun _ => ?_
  refine Passes.state.bind .state fun _ => ?_
  -- the outgoing thread is put to the destruction queue or not, and then the switch is the same
  have hswitch : Passes .off
      (do let sourceTid := (← thread source).tid
          let targetTid := (← thread target).tid
          report .trace s!"switch {sourceTid} -> {targetTid}"
          Port.switchContext source target : WatchM Unit)
      (do let sourceTid := (← thread source).tid
          let targetTid := (← thread target).tid
          report .trace s!"switch {sourceTid} -> {targetTid}"
          Port.switchContext source target) :=
    (passes_thread source).bind (keepsLevel_thread source) fun _ =>
      (passes_thread target).bind (keepsLevel_thread target) fun _ =>
        (passes_report _ _).bind (.log _) fun _ => passes_switchContext source target
  exact .ite ((passes_pushDestruction source).bind (keepsLevel_pushDestruction source) fun _ =>
    hswitch) hswitch

theorem passes_reclaim (running count : Nat) :
    Passes .off (reclaim running count : WatchM Unit) (reclaim running count) := by
  induction count with
  | zero => exact .value ()
  | succ count ih =>
      refine passes_popDestruction.bind keepsLevel_popDestruction fun head => ?_
      cases head with
      | none => exact .value ()
      | some victim =>
          refine (passes_thread running).bind (keepsLevel_thread running) fun _ => .require ?_
          refine (passes_thread victim).bind (keepsLevel_thread victim) fun _ => ?_
          refine (passes_report _ _).bind (.log _) fun _ => Passes.state.bind .state fun _ => ?_
          refine (Passes.lift _).bind (.lift _) fun _ => ?_
          exact (Passes.putMasked _).bind (.put _) fun _ => ih

theorem passes_doSchedule (status : Status) :
    Passes l (doSchedule status : WatchM Unit) (doSchedule status) :=
  .requireMasked <| passes_current.bind keepsLevel_current fun b =>
    Passes.state.bind .state fun _ => (passes_reclaim b _).bind (keepsLevel_reclaim b _) fun _ =>
      (passes_setStatus b status).bind (.change _) fun _ => passes_schedule

theorem passes_block : Passes l (block : WatchM Unit) block :=
  .outsideHandler <| .requireMasked <| passes_current.bind keepsLevel_current fun b =>
    (passes_setStatus b .blocked).bind (.change _) fun _ => passes_schedule

theorem passes_unblock (b : Nat) : Passes l (unblock b : WatchM Unit) (unblock b) := by
  refine (passes_thread b).bind (keepsLevel_thread b) fun _ => .require ?_
  refine .behindMask fun old => (passes_thread b).bind (keepsLevel_thread b) fun _ => .require ?_
  refine (passes_pushReady b).bind (keepsLevel_pushReady b) fun _ => ?_
  exact (passes_setStatus b .ready).bind (.change _) fun _ => .restore old

theorem passes_yieldNow : Passes l (yieldNow : WatchM Unit) yieldNow := by
  refine .outsideHandler <| passes_current.bind keepsLevel_current fun caller => ?_
  refine .behindMask fun old => (passes_isIdle caller).bind (keepsLevel_isIdle caller) fun _ => ?_
  have hgoes : Passes .off
      (do doSchedule .ready; let _ ← Port.setLevel old : WatchM Unit)
      (do doSchedule .ready; let _ ← Port.setLevel old) :=
    (passes_doSchedule .ready).bind (keepsLevel_doSchedule .ready) fun _ => .restore old
  exact .ite hgoes ((passes_pushReady caller).bind (keepsLevel_pushReady caller) fun _ => hgoes)

theorem passes_retire : Passes l (retire : WatchM Unit) retire :=
  .outsideHandler <| .behindMask fun _ =>
    (passes_currentThread.bind keepsLevel_currentThread fun _ => .value _).bind
      (keepsLevel_currentThread.andReturn _) fun _ =>
        (passes_report _ _).bind (.log _) fun _ => passes_doSchedule .dying

theorem passes_idlePass : Passes l (idlePass : WatchM Unit) idlePass :=
  .behindMask fun _ => passes_block.bind keepsLevel_block fun _ => .masked _

/-- A block that is handed out holds no thread, and the control block written into it has no
identifier yet. -/
theorem passes_spawn (name : String) (priority entry arg : Nat) :
    Passes l (spawn name priority entry arg : WatchM (Except SpawnError Nat))
      (spawn name priority entry arg) := by
  refine .lifted _ fun _ => ?_
  intro h hl
  refine .state ?_
  refine .lifted fun found halloc => ?_
  cases found with
  | none => exact Passes.value _ h hl
  | some allotted =>
      obtain ⟨b, pool, threads⟩ := allotted
      obtain ⟨k, -, -, -, -, rfl⟩ := Pool.alloc_eq_some_iff.mp halloc
      refine Uncaught.put hl ?_ ?_
      · refine not_restless_of_get (b := b) (t := Zeroed.zeroed) (fun c => ?_) fun htid hsame => ?_
        · exact Memory.get_set h.scheduler.threads b c Zeroed.zeroed
        · exact absurd hsame.symm htid
      refine (passes_initThread b name priority).bind (keepsLevel_initThread b name priority) ?_
      refine fun _ => passes_allocateTid.bind keepsLevel_allocateTid fun tid => ?_
      refine .lifted _ fun top => (passes_freshContext _ _ _ _).bind (.value _) ?_
      refine fun context => (passes_modifyThread b ?_).bind (.change _) fun _ => ?_
      · exact fun _ => rfl
      · exact (passes_report _ _).bind (.log _) fun _ => .value _

theorem passes_create (name : String) (priority entry arg : Nat) :
    Passes l (create name priority entry arg : WatchM (Except SpawnError Nat))
      (create name priority entry arg) := by
  refine (passes_spawn name priority entry arg).bind (keepsLevel_spawn name priority entry arg) ?_
  rintro (error | b)
  · exact .value _
  · exact (passes_unblock b).bind (keepsLevel_unblock b) fun _ =>
      (passes_thread b).bind (keepsLevel_thread b) fun _ => .value _

theorem passes_readTicks : Passes l (readTicks : WatchM Nat) readTicks :=
  .critical (Passes.state.bind .state fun _ => .value _) (KeepsLevel.state.andReturn _)

theorem passes_sleepUntil (wake : Nat) :
    Passes l (sleepUntil wake : WatchM Unit) (sleepUntil wake) := by
  refine .outsideHandler <| .requireMasked <| passes_current.bind keepsLevel_current fun caller => ?_
  refine (passes_isIdle caller).bind (keepsLevel_isIdle caller) fun _ => .require ?_
  refine (passes_modifyThread caller ?_).bind (.change _) fun _ => ?_
  · exact fun _ => rfl
  exact (passes_pushSleeper caller).bind (keepsLevel_pushSleeper caller) fun _ => passes_block

theorem passes_sleep (ticks : Nat) : Passes l (sleep ticks : WatchM Unit) (sleep ticks) := by
  refine .requireLevel <| .ite ?_ (.value ())
  refine passes_readTicks.bind keepsLevel_readTicks fun _ => .behindMask fun old => ?_
  refine .lifted _ fun wake => ?_
  exact (passes_sleepUntil wake).bind (keepsLevel_sleepUntil wake) fun _ => .restore old

theorem passes_sleepFor (num denom : Nat) :
    Passes l (sleepFor num denom : WatchM Unit) (sleepFor num denom) := by
  refine .lifted _ fun _ => .lifted _ fun ticks => .requireLevel ?_
  exact .ite (passes_sleep ticks) (Passes.state.bind .state fun _ => .lifted _ fun _ => .value ())

theorem passes_wakeDue (now count : Nat) :
    Passes l (wakeDue now count : WatchM Unit) (wakeDue now count) := by
  induction count with
  | zero => exact .value ()
  | succ count ih =>
      refine (passes_popSleeper now).bind (keepsLevel_popSleeper now) fun head => ?_
      cases head with
      | none => exact .value ()
      | some sleeper =>
          refine (passes_modifyThread sleeper ?_).bind (.change _) fun _ =>
            (passes_unblock sleeper).bind (keepsLevel_unblock sleeper) fun _ => ih
          exact fun _ => rfl

theorem passes_wake (now : Nat) : Passes l (wake now : WatchM Unit) (wake now) :=
  Passes.state.bind .state fun _ => passes_wakeDue now _

theorem passes_tick : Passes l (tick : WatchM Unit) tick := by
  have hslice : ∀ sliceTicks, Passes l
      (do modify fun s => { s with sliceTicks }
          if sliceTicks ≥ Config.timeSlice then Port.requestYield : WatchM Unit)
      (do modify fun s => { s with sliceTicks }
          if sliceTicks ≥ Config.timeSlice then Port.requestYield) := by
    intro sliceTicks
    refine (Passes.change ?_).bind (.change _) fun _ => .ite passes_requestYield (.value ())
    exact fun _ => not_restless_of_threads rfl
  have hrest := fun n => Passes.lifted (Word.add Word.limit32 n 1) hslice
  refine passes_current.bind keepsLevel_current fun r h hl => .state ?_
  refine (passes_isIdle r h hl).bind fun idle _ hidle => ?_
  obtain ⟨-, rfl⟩ := isIdle_eq_ok_iff.mp hidle
  -- one of the three counts goes up, and nothing else of the state that was read
  split
  · exact .lifted fun _ _ => .put hl (not_restless_of_threads rfl) (hrest _)
  · refine (passes_thread r _ hl).bind fun t _ hthread => ?_
    obtain ⟨-, rfl⟩ := thread_eq_ok_iff.mp hthread
    split
    · exact .lifted fun _ _ => .put hl (not_restless_of_threads rfl) (hrest _)
    · exact .lifted fun _ _ => .put hl (not_restless_of_threads rfl) (hrest _)

theorem passes_timerInterrupt : Passes l (timerInterrupt : WatchM Unit) timerInterrupt :=
  Passes.state.bind .state fun _ => .lifted _ fun ticks =>
    (Passes.change (f := fun s => { s with ticks }) fun _ => not_restless_of_threads rfl).bind
      (.change _) fun _ => passes_tick.bind keepsLevel_tick fun _ => passes_wake _

theorem passes_setPriority (priority : Nat) :
    Passes l (setPriority priority : WatchM Unit) (setPriority priority) :=
  .lifted _ fun _ => passes_current.bind keepsLevel_current fun b =>
    .critical (passes_modifyThread b (f := fun t => { t with priority }) fun _ => rfl) (.change _)

end Scheduler

namespace Host

open Scheduler

section

variable {m : Type → Type} [Monad m] [MonadLiftT (Except Halt) m] [Port m]
  [MonadStateOf Scheduler m] [MonadLiftT HostM m]

/-- Do `act`, which creates no thread. -/
def Call.unanswered {α : Type} (act : m α) : m (Option Nat) := do
  let _ ← act
  return none

/-- Carry out a call, with or without the watch. -/
def Call.carryOut : Call → m (Option Nat)
  | create name priority entry arg => do
    return (← Scheduler.create name priority entry arg).toOption
  | yieldNow => unanswered Scheduler.yieldNow
  | block => unanswered Scheduler.block
  | unblock b => unanswered (Scheduler.unblock b)
  | retire => unanswered Scheduler.retire
  | idlePass => unanswered Scheduler.idlePass
  | sleep ticks => unanswered (Scheduler.sleep ticks)
  | sleepUntil due => unanswered (Scheduler.sleepUntil due)
  | msleep ms => unanswered (Scheduler.msleep ms)
  | usleep us => unanswered (Scheduler.usleep us)
  | nsleep ns => unanswered (Scheduler.nsleep ns)
  | tick => unanswered Scheduler.tick
  | wake now => unanswered (Scheduler.wake now)
  | timerInterrupt => unanswered Scheduler.timerInterrupt
  | takeYield => unanswered (liftM Host.takeYield : m Bool)
  | setPriority priority => unanswered (Scheduler.setPriority priority)
  | setLevel level => unanswered (Port.setLevel level)
  | setInInterrupt on =>
    unanswered (liftM (modifyThe Host fun h => { h with inInterrupt := on } : HostM Unit) : m Unit)

end

theorem Call.carryOut_eq_perform (call : Call) :
    (call.carryOut : HostM (Option Nat)) = call.perform := by
  cases call <;> rfl

theorem Passes.unanswered {α : Type} {l : Level} {x : WatchM α} {y : HostM α}
    (hx : Passes l x y) : Passes l (Call.unanswered x) (Call.silently y) :=
  fun h hl => (hx h hl).bind fun _ h' _ => Passes.value none h' rfl

/-- No call is ever caught, wherever it is made. -/
theorem Call.uncaught (call : Call) (h : Host) : Uncaught call.carryOut call.perform h := by
  suffices hpasses : Passes h.level call.carryOut call.perform from hpasses h rfl
  cases call with
  | create name priority entry arg =>
      exact (passes_create name priority entry arg).bind (keepsLevel_create ..) fun _ => .value _
  | yieldNow => exact passes_yieldNow.unanswered
  | block => exact passes_block.unanswered
  | unblock b => exact (passes_unblock b).unanswered
  | retire => exact passes_retire.unanswered
  | idlePass => exact passes_idlePass.unanswered
  | sleep ticks => exact (passes_sleep ticks).unanswered
  | sleepUntil due => exact (passes_sleepUntil due).unanswered
  | msleep | usleep | nsleep => exact (passes_sleepFor _ _).unanswered
  | tick => exact passes_tick.unanswered
  | wake now => exact (passes_wake now).unanswered
  | timerInterrupt => exact passes_timerInterrupt.unanswered
  | setPriority priority => exact (passes_setPriority priority).unanswered
  | setLevel level => exact (Passes.setLevel level).unanswered
  | takeYield | setInInterrupt =>
      refine Passes.unanswered (.aside fun h a h' hact => ?_)
      cases hact
      rfl

/-- How the operations treat the interrupt mask when they are started on `h`. -/
structure Disciplined (h : Host) : Prop where
  /-- A call leaves the level that it found, but for an exit, a round of the idle thread and a
  change of the level. -/
  call : ∀ (call : Call) created h', call.perform h = .ok created h' →
    h'.level = call.levelAfter h.level
  /-- So does every other request. The start of the idle thread turns interrupts on if it
  succeeds. -/
  request : ∀ (request : Request) handedOut reply h',
    Host.perform handedOut request h = .ok reply h' → h'.level = request.levelAfter h.level reply
  /-- A thread whose body returns leaves interrupts masked. -/
  life : ∀ (body : HostM Unit) u h', (Scheduler.runThread body : HostM Unit) h = .ok u h' →
    h'.level = .off
  /-- The scheduling step changes the status of threads and the stack with interrupts masked
  only. -/
  scheduling : Uncaught (Scheduler.schedule : WatchM Unit) Scheduler.schedule h
  /-- So does every call. -/
  uncaught : ∀ call : Call, Uncaught call.carryOut call.carryOut h

/-- Every operation treats the interrupt mask as it should, wherever it is started. -/
theorem disciplined (h : Host) : h.Disciplined where
  call _ _ _ hrun := Call.level_eq hrun
  request _ _ _ _ hrun := Request.level_eq hrun
  life body _ _ hrun := endsAt_runThread body hrun
  scheduling := passes_schedule h rfl
  uncaught call := by
    rw [call.carryOut_eq_perform]
    exact call.uncaught h

/-- A sleep at which another thread is dispatched leaves interrupts on. -/
theorem disciplined_sample :
    (play Kernel sample [.sleep 2]).1.length = 1 ∧
      (play Kernel sample [.sleep 2]).2.switches.size = 1 ∧ sample.level = .on ∧
      (play Kernel sample [.sleep 2]).2.level = .on := by
  have hlength : (play Kernel sample [.sleep 2]).1.length = 1 := by decide +kernel
  have hon : sample.level = .on := by decide +kernel
  obtain ⟨created, hsleeps⟩ := Run.performs_of_play hlength
  exact ⟨hlength, by decide +kernel, hon, ((disciplined sample).call _ _ _ hsleeps).trans hon⟩

/-- A status that is written with interrupts on is noticed. -/
example : (match (setStatus 0x100000000 .blocked : WatchM Unit) sample with
    | .error none _ => true
    | _ => false) = true := by decide +kernel

end Host

end RoundRobin
