import RoundRobin.Host.Request
import RoundRobin.Proofs.Host.Run

/-!
# The interrupt level

Masking is nested: an operation that masks interrupts restores the level that it found. Three
operations leave a level of their own: an exit leaves interrupts masked, a round of the idle thread
and the start of the idle thread leave them on.
-/

namespace RoundRobin.Host

open Scheduler

variable {α β : Type} {l : Level}

/-- Whenever the computation returns, the interrupt level is the one that it was started at. -/
def KeepsLevel (x : HostM α) : Prop :=
  ∀ ⦃h a h'⦄, x h = .ok a h' → h'.level = h.level

/-- Whenever the computation returns, the interrupt level is `l`. -/
def EndsAt (l : Level) (x : HostM α) : Prop :=
  ∀ ⦃h a h'⦄, x h = .ok a h' → h'.level = l

namespace KeepsLevel

theorem value (a : α) : KeepsLevel (pure a) := by
  intro h b h' hrun
  obtain ⟨-, rfl⟩ := pure_eq_ok_iff.mp hrun
  rfl

theorem bind {x : HostM α} {f : α → HostM β} (hx : KeepsLevel x) (hf : ∀ a, KeepsLevel (f a)) :
    KeepsLevel (x >>= f) := by
  intro h b h' hrun
  obtain ⟨a, h₁, hfirst, hrest⟩ := bind_eq_ok_iff.mp hrun
  exact (hf a hrest).trans (hx hfirst)

/-- A computation whose result is only looked at. -/
theorem andReturn {x : HostM α} (hx : KeepsLevel x) (f : α → β) :
    KeepsLevel (do return f (← x)) :=
  hx.bind fun a => value (f a)

theorem lift (x : Except Halt α) : KeepsLevel (liftM x) := by
  intro h a h' hrun
  obtain ⟨-, rfl⟩ := liftM_eq_ok_iff.mp hrun
  rfl

theorem state : KeepsLevel (get : HostM Scheduler) := by
  intro h s h' hrun
  obtain ⟨-, rfl⟩ := get_eq_ok_iff.mp hrun
  rfl

theorem put (s : Scheduler) : KeepsLevel (set s : HostM PUnit) := by
  intro h u h' hrun
  obtain rfl := set_eq_ok_iff.mp hrun
  rfl

theorem change (f : Scheduler → Scheduler) : KeepsLevel (modify f : HostM PUnit) := by
  intro h u h' hrun
  obtain rfl := modify_eq_ok_iff.mp hrun
  rfl

theorem log (record : Record) : KeepsLevel (Port.log record : HostM Unit) := by
  intro h u h' hrun
  obtain rfl := log_eq_ok_iff.mp hrun
  rfl

theorem ite {p : Prop} [Decidable p] {x y : HostM α} (hx : KeepsLevel x) (hy : KeepsLevel y) :
    KeepsLevel (if p then x else y) := by
  split
  · exact hx
  · exact hy

/-- Whatever happens in a critical section, the level found is restored. -/
theorem critical (body : HostM α) : KeepsLevel (Port.criticalSection body) := by
  intro h a h' hrun
  obtain ⟨h₁, -, rfl⟩ := criticalSection_eq_ok_iff.mp hrun
  rfl

end KeepsLevel

namespace EndsAt

theorem andThen {x : HostM α} {f : α → HostM β} (hx : EndsAt l x) (hf : ∀ a, KeepsLevel (f a)) :
    EndsAt l (x >>= f) := by
  intro h b h' hrun
  obtain ⟨a, h₁, hfirst, hrest⟩ := bind_eq_ok_iff.mp hrun
  exact (hf a hrest).trans (hx hfirst)

theorem after {x : HostM α} {f : α → HostM β} (hf : ∀ a, EndsAt l (f a)) :
    EndsAt l (x >>= f) := by
  intro h b h' hrun
  obtain ⟨a, h₁, -, hrest⟩ := bind_eq_ok_iff.mp hrun
  exact hf a hrest

end EndsAt

theorem endsAt_setLevel (l : Level) : EndsAt l (Port.setLevel l : HostM Level) := by
  intro h old h' hrun
  obtain ⟨-, rfl⟩ := setLevel_eq_ok_iff.mp hrun
  rfl

theorem level_ticked (h : Host) (r : Nat) : (h.ticked r).level = h.level := by
  simp only [ticked]
  split <;> rfl

end RoundRobin.Host

namespace RoundRobin.Scheduler

open Host

variable {α : Type}

theorem keepsLevel_current : KeepsLevel (current : HostM Nat) := by
  intro h b h' hrun
  obtain ⟨-, rfl⟩ := current_eq_ok_iff.mp hrun
  rfl

theorem keepsLevel_runningThread : KeepsLevel (runningThread : HostM Nat) := by
  intro h b h' hrun
  obtain ⟨-, rfl⟩ := runningThread_eq_ok_iff.mp hrun
  rfl

theorem keepsLevel_thread (b : Nat) : KeepsLevel (thread b : HostM Thread) :=
  KeepsLevel.state.andReturn _

theorem keepsLevel_currentThread : KeepsLevel (currentThread : HostM Thread) :=
  keepsLevel_current.bind keepsLevel_thread

theorem keepsLevel_isIdle (b : Nat) : KeepsLevel (isIdle b : HostM Bool) :=
  KeepsLevel.state.andReturn _

theorem keepsLevel_pushReady (b : Nat) : KeepsLevel (pushReady b : HostM Unit) := by
  intro h u h' hrun
  obtain ⟨-, rfl⟩ := pushReady_eq_ok_iff.mp hrun
  rfl

theorem keepsLevel_pushDestruction (b : Nat) : KeepsLevel (pushDestruction b : HostM Unit) := by
  intro h u h' hrun
  obtain ⟨-, rfl⟩ := pushDestruction_eq_ok_iff.mp hrun
  rfl

theorem keepsLevel_popReady : KeepsLevel (popReady : HostM (Option Nat)) := by
  intro h head h' hrun
  obtain ⟨-, -, rfl⟩ := popReady_eq_ok_iff.mp hrun
  rfl

theorem keepsLevel_nextThread : KeepsLevel (nextThread : HostM Nat) := by
  intro h b h' hrun
  obtain ⟨-, -, rfl⟩ := nextThread_eq_ok_iff.mp hrun
  rfl

theorem keepsLevel_schedule : KeepsLevel (schedule : HostM Unit) := by
  intro h u h' hrun
  obtain ⟨source, target, -, rfl⟩ := schedule_eq_ok_iff.mp hrun
  unfold dispatched
  split <;> rfl

theorem keepsLevel_popDestruction : KeepsLevel (popDestruction : HostM (Option Nat)) := by
  intro h head h' hrun
  obtain ⟨-, -, rfl⟩ | ⟨b, rest, -, -, -, rfl⟩ := popDestruction_eq_ok_iff.mp hrun
  · rfl
  · rfl

theorem keepsLevel_reclaim (running count : Nat) :
    KeepsLevel (reclaim running count : HostM Unit) := by
  induction count with
  | zero => exact .value ()
  | succ count ih =>
      refine keepsLevel_popDestruction.bind fun head => ?_
      cases head with
      | none => exact .value ()
      | some victim =>
          exact (keepsLevel_thread running).bind fun _ => (KeepsLevel.lift _).bind fun _ =>
            (keepsLevel_thread victim).bind fun _ => (KeepsLevel.log _).bind fun _ =>
              KeepsLevel.state.bind fun _ => (KeepsLevel.lift _).bind fun _ =>
                (KeepsLevel.put _).bind fun _ => ih

theorem keepsLevel_doSchedule (status : Status) :
    KeepsLevel (doSchedule status : HostM Unit) := by
  intro h u h' hrun
  obtain ⟨-, r, -, h₁, hreclaim, hschedule⟩ := doSchedule_eq_ok_iff.mp hrun
  calc h'.level = h₁.level := (keepsLevel_schedule hschedule).trans (level_withScheduler h₁ _)
    _ = h.level := keepsLevel_reclaim _ _ hreclaim

theorem keepsLevel_block : KeepsLevel (block : HostM Unit) := by
  intro h u h' hrun
  obtain ⟨-, -, r, -, hschedule⟩ := block_eq_ok_iff.mp hrun
  exact (keepsLevel_schedule hschedule).trans (level_withScheduler h _)

theorem keepsLevel_unblock (b : Nat) : KeepsLevel (unblock b : HostM Unit) := by
  intro h u h' hrun
  obtain ⟨-, -, -, rfl⟩ := unblock_eq_ok_iff.mp hrun
  rfl

theorem keepsLevel_yieldNow : KeepsLevel (yieldNow : HostM Unit) := by
  intro h u h' hrun
  obtain ⟨-, r, -, h₁, -, rfl⟩ := yieldNow_eq_ok_iff.mp hrun
  rfl

theorem endsAt_retire : EndsAt .off (retire : HostM Unit) := by
  intro h u h' hrun
  obtain ⟨-, r, -, hdo⟩ := retire_eq_ok_iff.mp hrun
  exact keepsLevel_doSchedule _ hdo

theorem endsAt_exit : EndsAt .off (exit : HostM α) := by
  intro h a h' hrun
  obtain ⟨_, h₁, -, hhalt⟩ := bind_eq_ok_iff.mp hrun
  exact absurd hhalt halt_ne_ok

theorem endsAt_runThread (body : HostM Unit) : EndsAt .off (runThread body : HostM Unit) :=
  .after fun _ => .after fun _ => endsAt_retire

theorem endsAt_idlePass : EndsAt .on (idlePass : HostM Unit) := by
  intro h u h' hrun
  obtain ⟨h₁, -, -, rfl⟩ := idlePass_eq_ok_iff.mp hrun
  rfl

theorem keepsLevel_init : KeepsLevel (init : HostM Unit) := by
  intro h u h' hrun
  obtain ⟨-, -, b, -, c, -, -, rfl⟩ := init_eq_ok_iff.mp hrun
  rfl

theorem level_of_spawns {name : String} {priority entry arg b : Nat} {h h' : Host}
    (hspawn : h.Spawns name priority entry arg b h') : h'.level = h.level := by
  obtain ⟨pool, threads, c, top, -, -, -, -, rfl⟩ := hspawn
  rfl

theorem keepsLevel_initThread (b : Nat) (name : String) (priority : Nat) :
    KeepsLevel (initThread b name priority : HostM Unit) :=
  (KeepsLevel.lift _).bind fun _ => .change _

theorem keepsLevel_allocateTid : KeepsLevel (allocateTid : HostM Nat) := by
  intro h tid h' hrun
  obtain ⟨-, -, rfl⟩ := allocateTid_eq_ok_iff.mp hrun
  rfl

theorem keepsLevel_spawn (name : String) (priority entry arg : Nat) :
    KeepsLevel (spawn name priority entry arg : HostM (Except SpawnError Nat)) := by
  intro h res h' hrun
  obtain ⟨-, ⟨-, -, rfl⟩ | ⟨b, hspawn, -⟩⟩ := spawn_eq_ok_iff.mp hrun
  · rfl
  · exact level_of_spawns hspawn

/-- The start of the idle thread turns interrupts on if it succeeds, and else does nothing. -/
theorem level_of_start {entry : Nat} {res : Except SpawnError Unit} {h h' : Host}
    (hrun : (start entry : HostM (Except SpawnError Unit)) h = .ok res h') :
    h'.level = if res.isOk then .on else h.level := by
  obtain ⟨-, rfl, rfl⟩ | ⟨b, h₁, -, rfl, rfl⟩ := start_eq_ok_iff.mp hrun
  · rfl
  · rfl

theorem keepsLevel_create (name : String) (priority entry arg : Nat) :
    KeepsLevel (create name priority entry arg : HostM (Except SpawnError Nat)) := by
  intro h res h' hrun
  obtain ⟨-, ⟨-, -, rfl⟩ | ⟨b, h₁, hspawn, hunblock, -⟩⟩ := create_eq_ok_iff.mp hrun
  · rfl
  · exact (keepsLevel_unblock b hunblock).trans (level_of_spawns hspawn)

theorem keepsLevel_readTicks : KeepsLevel (readTicks : HostM Nat) :=
  .critical _

theorem keepsLevel_pushSleeper (b : Nat) : KeepsLevel (pushSleeper b : HostM Unit) := by
  intro h u h' hrun
  obtain ⟨wake, -, -, rfl⟩ := pushSleeper_eq_ok_iff.mp hrun
  rfl

theorem keepsLevel_sleepUntil (wake : Nat) : KeepsLevel (sleepUntil wake : HostM Unit) := by
  intro h u h' hrun
  obtain ⟨-, -, r, -, -, -, hblock⟩ := sleepUntil_eq_ok_iff.mp hrun
  exact (keepsLevel_block hblock).trans (level_withScheduler h _)

theorem keepsLevel_sleep (ticks : Nat) : KeepsLevel (sleep ticks : HostM Unit) := by
  intro h u h' hrun
  obtain ⟨hlevel, ⟨-, rfl⟩ | ⟨-, -, h₁, -, rfl⟩⟩ := sleep_eq_ok_iff.mp hrun
  · rfl
  · exact hlevel.symm

theorem keepsLevel_sleepFor (num denom : Nat) : KeepsLevel (sleepFor num denom : HostM Unit) := by
  intro h u h' hrun
  obtain ⟨-, -, -, hsleep⟩ := sleepFor_eq_ok_iff.mp hrun
  exact keepsLevel_sleep _ hsleep

theorem keepsLevel_popSleeper (now : Nat) : KeepsLevel (popSleeper now : HostM (Option Nat)) := by
  intro h head h' hrun
  obtain ⟨-, -, rfl⟩ | ⟨b, rest, wake, -, -, -, -, -, rfl⟩ := popSleeper_eq_ok_iff.mp hrun
  · rfl
  · rfl

theorem keepsLevel_wakeDue (now count : Nat) : KeepsLevel (wakeDue now count : HostM Unit) := by
  induction count with
  | zero => exact .value ()
  | succ count ih =>
      refine (keepsLevel_popSleeper now).bind fun head => ?_
      cases head with
      | none => exact .value ()
      | some sleeper =>
          exact (KeepsLevel.change _).bind fun _ => (keepsLevel_unblock sleeper).bind fun _ => ih

theorem keepsLevel_wake (now : Nat) : KeepsLevel (wake now : HostM Unit) :=
  KeepsLevel.state.bind fun _ => keepsLevel_wakeDue now _

theorem keepsLevel_tick : KeepsLevel (tick : HostM Unit) := by
  intro h u h' hrun
  obtain ⟨r, -, -, -, rfl⟩ := tick_eq_ok_iff.mp hrun
  exact h.level_ticked r

theorem keepsLevel_timerInterrupt : KeepsLevel (timerInterrupt : HostM Unit) :=
  KeepsLevel.state.bind fun _ => (KeepsLevel.lift _).bind fun _ => (KeepsLevel.change _).bind
    fun _ => keepsLevel_tick.bind fun _ => keepsLevel_wake _

theorem keepsLevel_setPriority (priority : Nat) :
    KeepsLevel (setPriority priority : HostM Unit) :=
  (KeepsLevel.lift _).bind fun _ => keepsLevel_current.bind fun _ => .critical _

theorem keepsLevel_printTimerStats : KeepsLevel (printTimerStats : HostM Unit) :=
  (KeepsLevel.critical _).bind fun _ => .log _

theorem keepsLevel_printThreadStats : KeepsLevel (printThreadStats : HostM Unit) :=
  (KeepsLevel.critical _).bind fun _ => .log _

theorem keepsLevel_setLoopsPerTick (loops : Nat) :
    KeepsLevel (setLoopsPerTick loops : HostM Unit) :=
  (KeepsLevel.change _).bind fun _ => (KeepsLevel.lift _).bind fun _ => .log _

end RoundRobin.Scheduler

namespace RoundRobin.Tick

open Host

variable {tooMany : Nat → HostM Bool}

theorem keepsLevel_coarse (hprobe : ∀ loops, KeepsLevel (tooMany loops)) (loops : Nat) :
    KeepsLevel (coarse tooMany loops) := by
  induction loops using coarse.induct with
  | case1 loops ih =>
      rw [coarse]
      refine (hprobe _).bind fun _ => .ite (.value loops) ?_
      split
      · exact .lift _
      · next hzero => exact ih hzero

theorem keepsLevel_fine (hprobe : ∀ loops, KeepsLevel (tooMany loops)) {last bit loops : Nat}
    (h : LeadsTo bit last) : KeepsLevel (fine tooMany last bit loops h) := by
  induction bit, loops, h using fine.induct with
  | case1 loops h =>
      rw [fine, dif_pos rfl]
      exact .value loops
  | case2 bit loops h hlast ihMany ihFits =>
      rw [fine, dif_neg hlast]
      exact (hprobe _).bind fun _ => .ite ihMany ihFits

theorem keepsLevel_calibrate (hprobe : ∀ loops, KeepsLevel (tooMany loops)) :
    KeepsLevel (calibrate tooMany) :=
  (keepsLevel_coarse hprobe _).bind fun _ => keepsLevel_fine hprobe _

end RoundRobin.Tick

namespace RoundRobin.Host

open Scheduler

/-- The level after a call that is made at the level `l` and returns. -/
def Call.levelAfter (l : Level) : Call → Level
  | retire => .off
  | idlePass => .on
  | setLevel l' => l'
  | _ => l

/-- The level after a request that is made at the level `l` and answered with `reply`. -/
def Request.levelAfter (l : Level) (reply : Reply) : Request → Level
  | start =>
    match reply with
    | .refused _ => l
    | _ => .on
  | retire | exit => .off
  | idlePass => .on
  | setLevel l' => l'
  | _ => l

theorem level_of_silently {α : Type} {act : HostM α} {l : Level} {h h' : Host}
    {created : Option Nat} (hact : ∀ a, act h = .ok a h' → h'.level = l)
    (hrun : Call.silently act h = .ok created h') : h'.level = l := by
  obtain ⟨-, a, hdone⟩ := Call.silently_eq_ok_iff.mp hrun
  exact hact a hdone

theorem Call.level_eq {call : Call} {created : Option Nat} {h h' : Host}
    (hrun : call.perform h = .ok created h') : h'.level = call.levelAfter h.level := by
  cases call with
  | create name priority entry arg =>
      exact (keepsLevel_create name priority entry arg).andReturn _ hrun
  | yieldNow => exact level_of_silently (fun _ hact => keepsLevel_yieldNow hact) hrun
  | block => exact level_of_silently (fun _ hact => keepsLevel_block hact) hrun
  | unblock b => exact level_of_silently (fun _ hact => keepsLevel_unblock b hact) hrun
  | retire => exact level_of_silently (fun _ hact => endsAt_retire hact) hrun
  | idlePass => exact level_of_silently (fun _ hact => endsAt_idlePass hact) hrun
  | sleep ticks => exact level_of_silently (fun _ hact => keepsLevel_sleep ticks hact) hrun
  | sleepUntil due => exact level_of_silently (fun _ hact => keepsLevel_sleepUntil due hact) hrun
  | msleep | usleep | nsleep =>
      exact level_of_silently (fun _ hact => keepsLevel_sleepFor _ _ hact) hrun
  | tick => exact level_of_silently (fun _ hact => keepsLevel_tick hact) hrun
  | wake now => exact level_of_silently (fun _ hact => keepsLevel_wake now hact) hrun
  | timerInterrupt => exact level_of_silently (fun _ hact => keepsLevel_timerInterrupt hact) hrun
  | setPriority p => exact level_of_silently (fun _ hact => keepsLevel_setPriority p hact) hrun
  | setLevel l => exact level_of_silently (fun _ hact => endsAt_setLevel l hact) hrun
  | takeYield | setInInterrupt =>
      obtain ⟨-, _, hact⟩ := Call.silently_eq_ok_iff.mp hrun
      cases hact
      rfl

namespace KeepsLevel

theorem quietly {act : HostM Unit} (hact : KeepsLevel act) : KeepsLevel (Host.quietly act) :=
  hact.andReturn _

theorem withThread (tid : Nat) {act : Nat → HostM Reply} (hact : ∀ b, KeepsLevel (act b)) :
    KeepsLevel (Host.withThread tid act) := by
  refine KeepsLevel.state.bind fun s => ?_
  cases find? s tid with
  | none => exact .value Reply.noThread
  | some b => exact hact b

theorem runningTid : KeepsLevel Host.runningTid :=
  keepsLevel_runningThread.bind fun b => (keepsLevel_thread b).andReturn _

theorem repeated {act : HostM Unit} (hact : KeepsLevel act) (n : Nat) :
    KeepsLevel (Host.repeated act n) := by
  induction n with
  | zero => exact .value []
  | succ n ih => exact hact.bind fun _ => runningTid.bind fun _ => ih.andReturn _

theorem setInInterrupt (on : Bool) :
    KeepsLevel (modifyThe Host fun h => { h with inInterrupt := on } : HostM Unit) := by
  intro h u h' hrun
  cases hrun
  rfl

theorem takeYield : KeepsLevel Host.takeYield := by
  intro h b h' hrun
  cases hrun
  rfl

/-- The counts are set one after another up to the first that is missing. -/
theorem setStats (idle kernel user : Option Nat) :
    KeepsLevel (Host.perform 0 (.setStats idle kernel user)) := by
  cases idle with
  | none => exact .value Reply.unreadable
  | some idle =>
      refine (KeepsLevel.change _).bind fun _ => ?_
      cases kernel with
      | none => exact .value Reply.unreadable
      | some kernel =>
          refine (KeepsLevel.change _).bind fun _ => ?_
          cases user with
          | none => exact .value Reply.unreadable
          | some user => exact (KeepsLevel.change _).andReturn _

theorem interrupt : KeepsLevel Host.interrupt :=
  (setInInterrupt true).bind fun _ => keepsLevel_timerInterrupt.bind fun _ => setInInterrupt false

theorem interruptAndPreempt : KeepsLevel Host.interruptAndPreempt :=
  interrupt.bind fun _ => takeYield.bind fun _ => .ite keepsLevel_yieldNow (.value ())

end KeepsLevel

theorem Request.level_eq {request : Request} {handedOut : Nat} {reply : Reply} {h h' : Host}
    (hrun : Host.perform handedOut request h = .ok reply h') :
    h'.level = request.levelAfter h.level reply := by
  cases request with
  | init => exact keepsLevel_init.quietly hrun
  | start =>
      obtain ⟨res, h₁, hstart, hreply⟩ := bind_eq_ok_iff.mp hrun
      obtain ⟨rfl, rfl⟩ := pure_eq_ok_iff.mp hreply
      rw [level_of_start hstart]
      cases res with
      | error e => rfl
      | ok u => rfl
  | create name priority arg => exact (keepsLevel_create name priority _ arg).andReturn _ hrun
  | yieldNow => exact keepsLevel_yieldNow.quietly hrun
  | block => exact keepsLevel_block.quietly hrun
  | unblock tid => exact KeepsLevel.withThread tid (fun b => (keepsLevel_unblock b).quietly) hrun
  | retire => exact endsAt_retire.andThen (fun _ => .value _) hrun
  | exit => exact endsAt_exit hrun
  | idlePass => exact endsAt_idlePass.andThen (fun _ => .value _) hrun
  | doSchedule status => exact (keepsLevel_doSchedule status).quietly hrun
  | schedule => exact keepsLevel_schedule.quietly hrun
  | tick => exact keepsLevel_tick.quietly hrun
  | timerInterrupt => exact keepsLevel_timerInterrupt.quietly hrun
  | wake now => exact (keepsLevel_wake now).quietly hrun
  | sleep n => exact (keepsLevel_sleep n).quietly hrun
  | sleepUntil tick => exact (keepsLevel_sleepUntil tick).quietly hrun
  | msleep | usleep | nsleep => exact (keepsLevel_sleepFor _ _).quietly hrun
  | ticks | stats => exact (KeepsLevel.critical _).andReturn _ hrun
  | elapsed start => exact ((KeepsLevel.critical _).andReturn _).andReturn _ hrun
  | printStats =>
      exact (keepsLevel_printTimerStats.bind fun _ => keepsLevel_printThreadStats).quietly hrun
  | printTimerStats => exact keepsLevel_printTimerStats.quietly hrun
  | printThreadStats => exact keepsLevel_printThreadStats.quietly hrun
  | nextWakeup => exact (KeepsLevel.state.andReturn _).andReturn _ hrun
  | current => exact keepsLevel_currentThread.andReturn _ hrun
  | runningThread => exact KeepsLevel.runningTid.andReturn _ hrun
  | tid | name | priority => exact (keepsLevel_currentThread.andReturn _).andReturn _ hrun
  | setPriority priority => exact (keepsLevel_setPriority priority).quietly hrun
  | isIdle tid =>
      exact KeepsLevel.withThread tid (fun _ => (KeepsLevel.state.andReturn _).andReturn _) hrun
  | loopsPerTick => exact KeepsLevel.state.andReturn _ hrun
  | setLoopsPerTick loops => exact (keepsLevel_setLoopsPerTick loops).quietly hrun
  | calibrate perTick =>
      have hprobe : ∀ loops, KeepsLevel (pure (decide (perTick < loops)) : HostM Bool) :=
        fun _ => .value _
      exact ((Tick.keepsLevel_calibrate hprobe).bind fun loops =>
        (keepsLevel_setLoopsPerTick loops).bind fun _ => .value _) hrun
  | interrupt n preempt =>
      refine KeepsLevel.andReturn (KeepsLevel.repeated ?_ _) _ hrun
      exact .ite .interruptAndPreempt .interrupt
  | yields n => exact (KeepsLevel.repeated keepsLevel_yieldNow _).andReturn _ hrun
  | info tid => exact KeepsLevel.withThread tid (fun _ => KeepsLevel.state.andReturn _) hrun
  | setLevel l => exact (endsAt_setLevel l).andThen (fun _ => .value _) hrun
  | setInInterrupt on => exact (KeepsLevel.setInInterrupt on).quietly hrun
  | takeYield => exact KeepsLevel.takeYield.andReturn _ hrun
  | setTicks | setSlice => exact (KeepsLevel.change _).quietly hrun
  | setStats idle kernel user => exact KeepsLevel.setStats idle kernel user hrun
  | setStatus tid | setUser tid | setSp tid | corrupt tid =>
      exact KeepsLevel.withThread tid (fun _ => (KeepsLevel.change _).quietly) hrun
  | freeBlock tid =>
      exact KeepsLevel.withThread tid (fun _ => (KeepsLevel.state.bind fun _ =>
        (KeepsLevel.lift _).bind fun _ => .put _).quietly) hrun
  | unreadableFor tid => exact KeepsLevel.withThread tid (fun _ => .value _) hrun
  | unreadable => exact KeepsLevel.value _ hrun

end RoundRobin.Host
