import RoundRobin.Proofs.Host.Alike
import RoundRobin.Host.Request
import RoundRobin.Proofs.Host.Boot

/-!
# Names, priorities and arguments do not matter

Priorities are stored only, names are for the log, and arguments are for the threads. Two sequences
of orders that differ in nothing else lead through alike states, and halt together if they halt.
-/

namespace RoundRobin

variable {mem mem' : Memory Thread} {b : Nat}

/-- The same value, and alike memories. -/
abbrev Memory.SameWith {α : Type} (x y : α × Memory Thread) : Prop :=
  x.1 = y.1 ∧ x.2.Alike y.2

namespace Queue

theorem claim_alike (q : Queue) (hmem : mem.Alike mem') (b : Nat) :
    AlikeResults Memory.Alike (q.claim mem b) (q.claim mem' b) := by
  have hb := hmem b
  rw [claim, claim]
  generalize mem'.get b = t' at hb ⊢
  obtain ⟨nameBuffer, priority, hregisters⟩ := hb
  exact .check _ (.check _ (.returned (hmem.set b ⟨nameBuffer, priority, hregisters⟩)))

theorem release_alike (q : Queue) (hmem : mem.Alike mem') (b : Nat) :
    AlikeResults Memory.Alike (q.release mem b) (q.release mem' b) := by
  have hb := hmem b
  rw [release, release]
  generalize mem'.get b = t' at hb ⊢
  obtain ⟨nameBuffer, priority, hregisters⟩ := hb
  exact .check _ (.returned (hmem.set b ⟨nameBuffer, priority, hregisters⟩))

theorem push_alike (q : Queue) (hmem : mem.Alike mem') (b : Nat) :
    AlikeResults Memory.SameWith (q.push mem b) (q.push mem' b) :=
  (q.claim_alike hmem b).bind fun _ _ hclaimed => .returned ⟨rfl, hclaimed⟩

theorem pop_alike (q : Queue) (hmem : mem.Alike mem') :
    AlikeResults (fun x y => x.1 = y.1 ∧ Memory.SameWith x.2 y.2) (q.pop mem) (q.pop mem') := by
  unfold pop
  cases q.members with
  | nil => exact .returned ⟨rfl, rfl, hmem⟩
  | cons t rest =>
      exact (q.release_alike hmem t).bind fun _ _ hreleased => .returned ⟨rfl, rfl, hreleased⟩

theorem insertAfter_alike (q : Queue) (hmem : mem.Alike mem') (b : Nat) {ahead : Thread → Bool}
    (hahead : ∀ t t', t.Alike t' → ahead t' = ahead t) :
    AlikeResults Memory.SameWith (q.insertAfter mem b ahead) (q.insertAfter mem' b ahead) := by
  refine (q.claim_alike hmem b).bind fun claimed claimed' hclaimed => ?_
  have hsame : (fun member => ahead (claimed'.get member)) =
      fun member => ahead (claimed.get member) :=
    funext fun member => hahead _ _ (hclaimed member)
  simp only [hsame]
  exact .returned ⟨rfl, hclaimed⟩

end Queue

namespace SleepQueue

theorem nextWakeup_alike (q : SleepQueue) (hmem : mem.Alike mem') :
    q.nextWakeup mem' = q.nextWakeup mem := by
  simp only [nextWakeup, fun b => (hmem b).wakeTick_eq]

/-- The place of a sleeper depends on wake ticks only. -/
theorem insert_alike (q : SleepQueue) (hmem : mem.Alike mem') (b : Nat) :
    AlikeResults Memory.SameWith (q.insert mem b) (q.insert mem' b) := by
  have hb := hmem b
  rw [insert, insert]
  generalize mem'.get b = t' at hb ⊢
  obtain ⟨nameBuffer, priority, hregisters⟩ := hb
  cases (mem.get b).wakeTick with
  | none => exact .halted _
  | some wake =>
      refine (q.queue.insertAfter_alike hmem b ?_).bind ?_
      · intro t t' ht
        rw [staysAhead, staysAhead, ht.wakeTick_eq]
      · rintro ⟨queue, threads⟩ ⟨_, threads'⟩ ⟨rfl, hthreads⟩
        exact .returned ⟨rfl, hthreads⟩

theorem popDue_alike (q : SleepQueue) (hmem : mem.Alike mem') (now : Nat) :
    AlikeResults (fun x y => x.1 = y.1 ∧ Memory.SameWith x.2 y.2)
      (q.popDue mem now) (q.popDue mem' now) := by
  rw [popDue, popDue, q.nextWakeup_alike hmem]
  split
  · refine (q.queue.pop_alike hmem).bind ?_
    rintro ⟨t, queue, threads⟩ ⟨_, _, threads'⟩ ⟨rfl, rfl, hthreads⟩
    exact .returned ⟨rfl, rfl, hthreads⟩
  · exact .returned ⟨rfl, rfl, hmem⟩

end SleepQueue

/-- Which block is handed out depends on the slots only. -/
theorem Pool.alloc_alike (p : Pool) (hmem : mem.Alike mem') :
    AlikeResults (Option.Rel fun x y => x.1 = y.1 ∧ Memory.SameWith x.2 y.2)
      (p.alloc mem) (p.alloc mem') := by
  cases hslot : p.freeSlot? with
  | none =>
      rw [alloc_of_full hslot, alloc_of_full hslot]
      exact .returned .none
  | some k =>
      rw [alloc_of_free hslot, alloc_of_free hslot]
      split
      · exact .returned (.some ⟨rfl, rfl, hmem.set _ (.refl _)⟩)
      · exact .halted _

namespace Scheduler

open Host

theorem goAlike_thread (b : Nat) :
    GoAlike Thread.Alike (thread b : HostM Thread) (thread b) := by
  refine GoAlike.state.bind ?_
  rintro s _ ⟨hblocks⟩
  exact .value (hblocks b)

theorem goAlike_modifyThread (b : Nat) {f g : Thread → Thread}
    (hf : ∀ t t', t.Alike t' → (f t).Alike (g t')) :
    GoAlike Eq (modifyThread b f : HostM Unit) (modifyThread b g) := by
  refine .change ?_
  rintro s _ ⟨hblocks⟩
  exact .mk (hblocks.modify b hf)

theorem goAlike_setStatus (b : Nat) (status : Status) :
    GoAlike Eq (setStatus b status : HostM Unit) (setStatus b status) := by
  refine goAlike_modifyThread b ?_
  rintro t _ ⟨nameBuffer, priority, hregisters⟩
  exact ⟨nameBuffer, priority, hregisters⟩

theorem goAlike_report (severity : Severity) (text text' : String) :
    GoAlike Eq (report severity text : HostM Unit) (report severity text') :=
  .log ⟨text'⟩

theorem goAlike_allocateTid : GoAlike Eq (allocateTid : HostM Nat) allocateTid := by
  refine GoAlike.state.bind ?_
  rintro s _ ⟨hblocks⟩
  refine (GoAlike.lifted _).andThen fun next => ?_
  refine .andThen (.change ?_) fun _ => .value rfl
  rintro s' _ ⟨hblocks'⟩
  exact .mk hblocks'

/-- A queue operation that gives no thread. -/
theorem goAlike_push {Q : Type} {act : Scheduler → Except Halt (Q × Memory Thread)}
    (put : Scheduler → Q → Memory Thread → Scheduler)
    (hact : ∀ s s', s.Alike s' → AlikeResults Memory.SameWith (act s) (act s'))
    (hput : ∀ s s' q threads threads', s.Alike s' → threads.Alike threads' →
      (put s q threads).Alike (put s' q threads')) :
    let x : HostM Unit := do
      let s ← get
      let (q, threads) ← act s
      set (put s q threads)
    GoAlike Eq x x := by
  refine GoAlike.state.bind fun s s' hs => ?_
  refine (GoAlike.lift (hact s s' hs)).bind ?_
  rintro ⟨q, threads⟩ ⟨_, threads'⟩ ⟨rfl, hthreads⟩
  exact .put (hput s s' q threads threads' hs hthreads)

/-- A queue operation that gives a thread, if there is one. -/
theorem goAlike_pop {Q : Type} {act : Scheduler → Except Halt (Option Nat × Q × Memory Thread)}
    (put : Scheduler → Q → Memory Thread → Scheduler)
    (hact : ∀ s s', s.Alike s' →
      AlikeResults (fun x y => x.1 = y.1 ∧ Memory.SameWith x.2 y.2) (act s) (act s'))
    (hput : ∀ s s' q threads threads', s.Alike s' → threads.Alike threads' →
      (put s q threads).Alike (put s' q threads')) :
    let x : HostM (Option Nat) := do
      let s ← get
      let (head, q, threads) ← act s
      set (put s q threads)
      return head
    GoAlike Eq x x := by
  refine GoAlike.state.bind fun s s' hs => ?_
  refine (GoAlike.lift (hact s s' hs)).bind ?_
  rintro ⟨head, q, threads⟩ ⟨_, _, threads'⟩ ⟨rfl, rfl, hthreads⟩
  exact (GoAlike.put (hput s s' q threads threads' hs hthreads)).andThen fun _ => .value rfl

theorem goAlike_pushReady (b : Nat) : GoAlike Eq (pushReady b : HostM Unit) (pushReady b) := by
  refine goAlike_push (fun s ready threads => { s with ready, threads }) ?_ ?_
  · rintro s _ ⟨hblocks⟩
    exact s.ready.push_alike hblocks b
  · rintro s _ q threads threads' ⟨-⟩ hthreads
    exact .mk hthreads

theorem goAlike_popReady : GoAlike Eq (popReady : HostM (Option Nat)) popReady := by
  refine goAlike_pop (fun s ready threads => { s with ready, threads }) ?_ ?_
  · rintro s _ ⟨hblocks⟩
    exact s.ready.pop_alike hblocks
  · rintro s _ q threads threads' ⟨-⟩ hthreads
    exact .mk hthreads

theorem goAlike_pushDestruction (b : Nat) :
    GoAlike Eq (pushDestruction b : HostM Unit) (pushDestruction b) := by
  refine goAlike_push (fun s destruction threads => { s with destruction, threads }) ?_ ?_
  · rintro s _ ⟨hblocks⟩
    exact s.destruction.push_alike hblocks b
  · rintro s _ q threads threads' ⟨-⟩ hthreads
    exact .mk hthreads

theorem goAlike_popDestruction :
    GoAlike Eq (popDestruction : HostM (Option Nat)) popDestruction := by
  refine goAlike_pop (fun s destruction threads => { s with destruction, threads }) ?_ ?_
  · rintro s _ ⟨hblocks⟩
    exact s.destruction.pop_alike hblocks
  · rintro s _ q threads threads' ⟨-⟩ hthreads
    exact .mk hthreads

theorem goAlike_pushSleeper (b : Nat) :
    GoAlike Eq (pushSleeper b : HostM Unit) (pushSleeper b) := by
  refine goAlike_push (fun s sleepers threads => { s with sleepers, threads }) ?_ ?_
  · rintro s _ ⟨hblocks⟩
    exact s.sleepers.insert_alike hblocks b
  · rintro s _ q threads threads' ⟨-⟩ hthreads
    exact .mk hthreads

theorem goAlike_popSleeper (now : Nat) :
    GoAlike Eq (popSleeper now : HostM (Option Nat)) (popSleeper now) := by
  refine goAlike_pop (fun s sleepers threads => { s with sleepers, threads }) ?_ ?_
  · rintro s _ ⟨hblocks⟩
    exact s.sleepers.popDue_alike hblocks now
  · rintro s _ q threads threads' ⟨-⟩ hthreads
    exact .mk hthreads

theorem goAlike_runningThread : GoAlike Eq (runningThread : HostM Nat) runningThread :=
  GoAlike.stackPointer.andThen fun _ => .lifted _

theorem goAlike_current : GoAlike Eq (current : HostM Nat) current := by
  refine goAlike_runningThread.andThen fun block => ?_
  refine (goAlike_thread block).bind ?_
  rintro t _ ⟨nameBuffer, priority, hregisters⟩
  refine .check _ ?_
  exact .check _ (.value rfl)

theorem goAlike_isIdle (b : Nat) : GoAlike Eq (isIdle b : HostM Bool) (isIdle b) := by
  refine GoAlike.state.bind ?_
  rintro s _ ⟨hblocks⟩
  exact .value rfl

/-- The identifier of the running thread. -/
theorem goAlike_tid : GoAlike Eq (tid : HostM Nat) tid := by
  refine GoAlike.bind (R := Thread.Alike) ?_ ?_
  · exact goAlike_current.andThen goAlike_thread
  · rintro t _ ⟨nameBuffer, priority, hregisters⟩
    exact .value rfl

/-- Which thread is next depends on the ready queue and on who is the idle thread. -/
theorem goAlike_nextThread : GoAlike Eq (nextThread : HostM Nat) nextThread := by
  refine goAlike_popReady.andThen fun head => ?_
  refine GoAlike.state.bind fun s s' hs => ?_
  have hidle : s'.idle = s.idle := by
    cases hs
    rfl
  rw [hidle]
  cases head.or s.idle with
  | none => exact .halts _
  | some b => exact .value rfl

theorem goAlike_switch (source target : Nat) :
    let x : HostM Unit := do
      let sourceTid := (← thread source).tid
      let targetTid := (← thread target).tid
      report .trace s!"switch {sourceTid} -> {targetTid}"
      Port.switchContext source target
    GoAlike Eq x x := by
  refine (goAlike_thread source).bind fun t t' _ => ?_
  refine (goAlike_thread target).bind fun c c' _ => ?_
  exact (goAlike_report _ _ _).andThen fun _ => .switchContext source target

theorem goAlike_schedule : GoAlike Eq (schedule : HostM Unit) schedule := by
  refine goAlike_runningThread.andThen fun source => ?_
  refine goAlike_nextThread.andThen fun target => ?_
  refine GoAlike.level.andThen fun level => ?_
  refine .check _ ?_
  refine (goAlike_thread source).bind ?_
  rintro old _ ⟨_, _, _⟩
  refine .check _ ?_
  refine (goAlike_thread target).bind ?_
  rintro next _ ⟨_, _, _⟩
  refine .check _ ?_
  refine (goAlike_setStatus target .running).andThen fun _ => ?_
  refine .andThen (.change ?_) fun _ => ?_
  · rintro s _ ⟨hblocks⟩
    exact .mk hblocks
  refine .cond (fun hne => ?_) fun _ => .value rfl
  refine (goAlike_thread source).bind ?_
  rintro left _ ⟨_, _, _⟩
  refine GoAlike.state.bind ?_
  rintro s _ ⟨_⟩
  -- Who has exited and who is the boot thread is the same in both states.
  exact .cond (fun _ => (goAlike_pushDestruction source).andThen fun _ =>
    goAlike_switch source target) fun _ => goAlike_switch source target

theorem goAlike_reclaim (running count : Nat) :
    GoAlike Eq (reclaim running count : HostM Unit) (reclaim running count) := by
  induction count with
  | zero => exact .value rfl
  | succ count ih =>
      refine goAlike_popDestruction.andThen fun head => ?_
      cases head with
      | none => exact .value rfl
      | some victim =>
          refine (goAlike_thread running).bind ?_
          rintro own _ ⟨_, _, _⟩
          refine .check _ ?_
          refine (goAlike_thread victim).bind fun dead dead' _ => ?_
          refine (goAlike_report _ _ _).andThen fun _ => ?_
          refine GoAlike.state.bind fun s s' hs => ?_
          -- The pools become the same term: compared up to unfolding, `Pool.free` would be opened.
          have hpool : s'.pool = s.pool := by
            cases hs
            rfl
          rw [hpool]
          refine (GoAlike.lifted _).andThen fun pool => .andThen (.put ?_) fun _ => ih
          obtain ⟨hblocks⟩ := hs
          exact .mk hblocks

theorem goAlike_doSchedule (status : Status) :
    GoAlike Eq (doSchedule status : HostM Unit) (doSchedule status) := by
  refine GoAlike.level.andThen fun level => ?_
  refine .check _ ?_
  refine goAlike_current.andThen fun b => ?_
  refine GoAlike.state.bind ?_
  rintro s _ ⟨_⟩
  refine (goAlike_reclaim b _).andThen fun _ => ?_
  exact (goAlike_setStatus b status).andThen fun _ => goAlike_schedule

theorem goAlike_unblock (b : Nat) : GoAlike Eq (unblock b : HostM Unit) (unblock b) := by
  refine (goAlike_thread b).bind ?_
  rintro t _ ⟨_, _, _⟩
  refine .check _ ?_
  refine GoAlike.disable.andThen fun old => ?_
  refine (goAlike_thread b).bind ?_
  rintro t' _ ⟨_, _, _⟩
  refine .check _ ?_
  refine (goAlike_pushReady b).andThen fun _ => ?_
  refine (goAlike_setStatus b .ready).andThen fun _ => ?_
  exact (GoAlike.setLevel old).andThen fun _ => .value rfl

theorem goAlike_block : GoAlike Eq (block : HostM Unit) block := by
  refine GoAlike.inInterrupt.andThen fun handling => ?_
  refine .check _ ?_
  refine GoAlike.level.andThen fun level => ?_
  refine .check _ ?_
  refine goAlike_current.andThen fun b => ?_
  exact (goAlike_setStatus b .blocked).andThen fun _ => goAlike_schedule

theorem goAlike_yieldNow : GoAlike Eq (yieldNow : HostM Unit) yieldNow := by
  refine GoAlike.inInterrupt.andThen fun handling => ?_
  refine .check _ ?_
  refine goAlike_current.andThen fun caller => ?_
  refine GoAlike.disable.andThen fun old => ?_
  have hrest : ∀ u : Unit, GoAlike Eq
      (do doSchedule .ready; let _ ← Port.setLevel old : HostM Unit)
      (do doSchedule .ready; let _ ← Port.setLevel old) := fun _ =>
    (goAlike_doSchedule .ready).andThen fun _ =>
      (GoAlike.setLevel old).andThen fun _ => .value rfl
  refine (goAlike_isIdle caller).andThen fun idle => ?_
  exact .cond (fun _ => hrest ()) fun _ => (goAlike_pushReady caller).andThen hrest

theorem goAlike_retire : GoAlike Eq (retire : HostM Unit) retire := by
  refine GoAlike.inInterrupt.andThen fun handling => ?_
  refine .check _ ?_
  refine GoAlike.disable.andThen fun _ => ?_
  refine goAlike_tid.andThen fun tid => ?_
  exact (goAlike_report _ _ _).andThen fun _ => goAlike_doSchedule .dying

/-- Threads whose bodies go alike live alike. -/
theorem goAlike_runThread {body body' : HostM Unit} (hbody : GoAlike Eq body body') :
    GoAlike Eq (runThread body) (runThread body') :=
  GoAlike.enable.andThen fun _ => hbody.andThen fun _ => goAlike_retire

theorem goAlike_idlePass : GoAlike Eq (idlePass : HostM Unit) idlePass :=
  GoAlike.disable.andThen fun _ => goAlike_block.andThen fun _ => .waitForInterrupt

/-- Priorities that are both in range, or the same. -/
def AlikePriorities (priority priority' : Nat) : Prop :=
  priority = priority' ∨
    (Config.priorityMin ≤ priority ∧ priority ≤ Config.priorityMax) ∧
      (Config.priorityMin ≤ priority' ∧ priority' ≤ Config.priorityMax)

variable {priority priority' : Nat}

theorem requirePriority_alike (h : AlikePriorities priority priority') :
    Thread.requirePriority priority' = Thread.requirePriority priority := by
  rcases h with rfl | ⟨hin, hin'⟩
  · rfl
  · rw [Thread.requirePriority, Thread.requirePriority, require, require, if_pos hin, if_pos hin']

theorem goAlike_requirePriority (h : AlikePriorities priority priority') :
    GoAlike Eq (liftM (Thread.requirePriority priority) : HostM Unit)
      (liftM (Thread.requirePriority priority')) := by
  rw [requirePriority_alike h]
  exact .lifted _

theorem new_alike (name name' : String) (h : AlikePriorities priority priority') :
    AlikeResults Thread.Alike (Thread.new name priority) (Thread.new name' priority') := by
  rw [Thread.new, Thread.new, requirePriority_alike h]
  exact .check _ (.returned ⟨_, _, .refl _⟩)

theorem goAlike_initThread (b : Nat) (name name' : String)
    (h : AlikePriorities priority priority') :
    GoAlike Eq (initThread b name priority : HostM Unit) (initThread b name' priority') :=
  (GoAlike.lift (new_alike name name' h)).bind fun _ _ ht =>
    goAlike_modifyThread b fun _ _ _ => ht

theorem goAlike_spawn (name name' : String) (h : AlikePriorities priority priority')
    (entry arg arg' : Nat) :
    GoAlike Eq (spawn name priority entry arg : HostM (Except SpawnError Nat))
      (spawn name' priority' entry arg') := by
  refine (goAlike_requirePriority h).andThen fun _ => ?_
  refine GoAlike.state.bind ?_
  rintro s _ ⟨hblocks⟩
  refine (GoAlike.lift (s.pool.alloc_alike hblocks)).bind fun found found' hfound => ?_
  cases hfound with
  | none => exact .value rfl
  | @some allotted allotted' hallotted =>
      obtain ⟨b, pool, threads⟩ := allotted
      obtain ⟨_, _, threads'⟩ := allotted'
      obtain ⟨rfl, rfl, hthreads⟩ := hallotted
      -- the rules below are about the steps, and do not see through the match on the answer
      dsimp only
      refine (GoAlike.put (.mk hthreads)).andThen fun _ => ?_
      refine (goAlike_initThread _ name name' h).andThen fun _ => ?_
      refine goAlike_allocateTid.andThen fun tid => ?_
      refine (GoAlike.lifted _).andThen fun top => ?_
      refine (GoAlike.freshContext _ entry arg arg' top).bind fun c c' hc => ?_
      refine (goAlike_modifyThread _ ?_).andThen fun _ => ?_
      · rintro t _ ⟨nameBuffer, priority, -⟩
        exact ⟨nameBuffer, priority, hc⟩
      · exact (goAlike_report _ _ _).andThen fun _ => .value rfl

/-- Name, priority and argument of a new thread change nothing else. -/
theorem goAlike_create (name name' : String) (h : AlikePriorities priority priority')
    (entry arg arg' : Nat) :
    GoAlike Eq (create name priority entry arg : HostM (Except SpawnError Nat))
      (create name' priority' entry arg') := by
  refine (goAlike_spawn name name' h entry arg arg').andThen fun res => ?_
  cases res with
  | error cause => exact .value rfl
  | ok b =>
      refine (goAlike_unblock b).andThen fun _ => ?_
      refine (goAlike_thread b).bind ?_
      rintro t _ ⟨_, _, _⟩
      exact .value rfl

/-- A priority is stored only. -/
theorem goAlike_setPriority (h : AlikePriorities priority priority') :
    GoAlike Eq (setPriority priority : HostM Unit) (setPriority priority') := by
  refine (goAlike_requirePriority h).andThen fun _ => ?_
  refine goAlike_current.andThen fun b => ?_
  refine .criticalSection (goAlike_modifyThread b ?_)
  rintro t _ ⟨nameBuffer, -, hregisters⟩
  exact ⟨nameBuffer, priority', hregisters⟩

theorem goAlike_readTicks : GoAlike Eq (readTicks : HostM Nat) readTicks := by
  refine .criticalSection (GoAlike.state.bind ?_)
  rintro s _ ⟨_⟩
  exact .value rfl

theorem goAlike_sleepUntil (wakeTick : Nat) :
    GoAlike Eq (sleepUntil wakeTick : HostM Unit) (sleepUntil wakeTick) := by
  refine GoAlike.inInterrupt.andThen fun handling => ?_
  refine .check _ ?_
  refine GoAlike.level.andThen fun level => ?_
  refine .check _ ?_
  refine goAlike_current.andThen fun caller => ?_
  refine (goAlike_isIdle caller).andThen fun idle => ?_
  refine .check _ ?_
  refine (goAlike_modifyThread caller ?_).andThen fun _ => ?_
  · rintro t _ ⟨nameBuffer, priority, hregisters⟩
    exact ⟨nameBuffer, priority, hregisters⟩
  · exact (goAlike_pushSleeper caller).andThen fun _ => goAlike_block

theorem goAlike_sleep (ticks : Nat) : GoAlike Eq (sleep ticks : HostM Unit) (sleep ticks) := by
  refine GoAlike.level.andThen fun level => ?_
  refine .check _ ?_
  refine .cond (fun _ => ?_) fun _ => .value rfl
  refine goAlike_readTicks.andThen fun start => ?_
  refine GoAlike.disable.andThen fun old => ?_
  refine (GoAlike.lifted _).andThen fun wake => ?_
  refine (goAlike_sleepUntil wake).andThen fun _ => ?_
  exact (GoAlike.setLevel old).andThen fun _ => .value rfl

theorem goAlike_sleepFor (num denom : Nat) :
    GoAlike Eq (sleepFor num denom : HostM Unit) (sleepFor num denom) := by
  refine (GoAlike.lifted _).andThen fun scaled => ?_
  refine (GoAlike.lifted _).andThen fun ticks => ?_
  refine GoAlike.level.andThen fun level => ?_
  refine .check _ ?_
  refine .cond (fun _ => goAlike_sleep ticks) fun _ => ?_
  refine GoAlike.state.bind ?_
  rintro s _ ⟨_⟩
  exact (GoAlike.lifted _).andThen fun _ => .value rfl

theorem goAlike_wakeDue (now count : Nat) :
    GoAlike Eq (wakeDue now count : HostM Unit) (wakeDue now count) := by
  induction count with
  | zero => exact .value rfl
  | succ count ih =>
      refine (goAlike_popSleeper now).andThen fun head => ?_
      cases head with
      | none => exact .value rfl
      | some sleeper =>
          refine (goAlike_modifyThread sleeper ?_).andThen fun _ => ?_
          · rintro t _ ⟨nameBuffer, priority, hregisters⟩
            exact ⟨nameBuffer, priority, hregisters⟩
          · exact (goAlike_unblock sleeper).andThen fun _ => ih

theorem goAlike_wake (now : Nat) : GoAlike Eq (wake now : HostM Unit) (wake now) := by
  refine GoAlike.state.bind ?_
  rintro s _ ⟨_⟩
  exact goAlike_wakeDue now _

/-- A tick of the slice that has had `before` of them. -/
theorem goAlike_age (before : Nat) :
    let x : HostM Unit := do
      let sliceTicks ← Word.add Word.limit32 before 1
      modify fun s => { s with sliceTicks }
      if sliceTicks ≥ Config.timeSlice then
        Port.requestYield
    GoAlike Eq x x := by
  refine (GoAlike.lifted _).andThen fun sliceTicks => ?_
  refine .andThen (.change ?_) fun _ => ?_
  · rintro s _ ⟨hblocks⟩
    exact .mk hblocks
  · exact .cond (fun _ => .requestYield) fun _ => .value rfl

/-- A tick is charged, to whom `charge` says, and counted in the slice. -/
theorem goAlike_charge {s s' : Scheduler} (hs : s.Alike s') (before : Nat)
    (charge : Nat → TickStats) {rest : HostM Unit} (hrest : GoAlike Eq rest rest) :
    let x (s : Scheduler) : HostM Unit := do
      let count ← Word.add Word.limit64 before 1
      set { s with stats := charge count }
      rest
    GoAlike Eq (x s) (x s') := by
  obtain ⟨hblocks⟩ := hs
  refine (GoAlike.lifted _).andThen fun count => .andThen (.put ?_) fun _ => hrest
  exact .mk hblocks

theorem goAlike_tick : GoAlike Eq (tick : HostM Unit) tick := by
  refine goAlike_current.andThen fun running => ?_
  refine GoAlike.state.bind fun s s' hs => ?_
  have hage := goAlike_age s.sliceTicks
  obtain ⟨hblocks⟩ := hs
  refine (goAlike_isIdle running).andThen fun idle => ?_
  refine .cond (fun _ => ?_) fun _ => ?_
  · exact goAlike_charge (.mk hblocks) s.stats.idle (fun idle => { s.stats with idle }) hage
  · refine (goAlike_thread running).bind ?_
    rintro t _ ⟨_, _, ⟨_⟩⟩
    refine .cond (fun _ => ?_) fun _ => ?_
    · exact goAlike_charge (.mk hblocks) s.stats.user (fun user => { s.stats with user }) hage
    · exact goAlike_charge (.mk hblocks) s.stats.kernel (fun kernel => { s.stats with kernel })
        hage

theorem goAlike_timerInterrupt : GoAlike Eq (timerInterrupt : HostM Unit) timerInterrupt := by
  refine GoAlike.state.bind ?_
  rintro s _ ⟨_⟩
  refine (GoAlike.lifted _).andThen fun ticks => ?_
  refine .andThen (.change ?_) fun _ => ?_
  · rintro s _ ⟨hblocks⟩
    exact .mk hblocks
  · exact goAlike_tick.andThen fun _ => goAlike_wake ticks

end Scheduler

namespace Host

open Scheduler

/-- What a kernel is told to do: a call, to unblock the thread with an identifier, or to run a
thread. -/
inductive Order where
  | call (asked : Call)
  /-- Unblock the thread `tid`, if there is one. -/
  | unblock (tid : Nat)
  /-- The life of a thread that gives the orders `body`. -/
  | runThread (body : List Order)

mutual

/-- Carry out an order. Gives the identifier of the thread that a call created, if it did. -/
def Order.perform : Order → HostM (Option Nat)
  | .call asked => asked.perform
  | .unblock tid => do
    match find? (← get) tid with
    | none => return none
    | some b => (Call.unblock b).perform
  | .runThread body => Call.silently (Scheduler.runThread do let _ ← performAll body)

/-- Carry out orders one after another. -/
def performAll : List Order → HostM (List (Option Nat))
  | [] => return []
  | order :: rest => do
    let created ← order.perform
    return created :: (← performAll rest)

end

/-- Calls that differ in nothing but the names, the arguments and the priorities they give to
threads. -/
inductive Call.Alike : Call → Call → Prop
  | same (call : Call) : Alike call call
  | create (name name' : String) {priority priority' : Nat} (entry arg arg' : Nat)
      (priorities : AlikePriorities priority priority') :
      Alike (.create name priority entry arg) (.create name' priority' entry arg')
  | setPriority {priority priority' : Nat} (priorities : AlikePriorities priority priority') :
      Alike (.setPriority priority) (.setPriority priority')

/-- Orders that are the same, or calls that differ in nothing but names, arguments and
priorities, or the lives of threads that give such orders. -/
inductive Order.Alike : Order → Order → Prop
  | call {call call' : Call} (calls : call.Alike call') : Alike (.call call) (.call call')
  | unblock (tid : Nat) : Alike (.unblock tid) (.unblock tid)
  | runThread {body body' : List Order} (bodies : List.Forall₂ Alike body body') :
      Alike (.runThread body) (.runThread body')

theorem GoAlike.silently {α : Type} {x y : HostM α} (hx : GoAlike Eq x y) :
    GoAlike Eq (Call.silently x) (Call.silently y) :=
  hx.andThen fun _ => .value rfl

/-- No call depends on names, priorities or arguments. -/
theorem Call.goAlike (call : Call) : GoAlike Eq call.perform call.perform := by
  cases call with
  | create name priority entry arg =>
      exact (goAlike_create name name (.inl rfl) entry arg arg).andThen fun _ => .value rfl
  | yieldNow => exact goAlike_yieldNow.silently
  | block => exact goAlike_block.silently
  | unblock b => exact (goAlike_unblock b).silently
  | retire => exact goAlike_retire.silently
  | idlePass => exact goAlike_idlePass.silently
  | sleep ticks => exact (goAlike_sleep ticks).silently
  | sleepUntil due => exact (goAlike_sleepUntil due).silently
  | msleep ms => exact (goAlike_sleepFor ms 1000).silently
  | usleep us => exact (goAlike_sleepFor us 1000000).silently
  | nsleep ns => exact (goAlike_sleepFor ns 1000000000).silently
  | tick => exact goAlike_tick.silently
  | wake now => exact (goAlike_wake now).silently
  | timerInterrupt => exact goAlike_timerInterrupt.silently
  | takeYield => exact GoAlike.takeYield.silently
  | setPriority priority => exact (goAlike_setPriority (.inl rfl)).silently
  | setLevel level => exact (GoAlike.setLevel level).silently
  | setInInterrupt on => exact (GoAlike.setInInterrupt on).silently

theorem Call.Alike.goAlike {call call' : Call} (h : call.Alike call') :
    GoAlike Eq call.perform call'.perform := by
  cases h with
  | same => exact call.goAlike
  | create name name' entry arg arg' hpriorities =>
      exact (goAlike_create name name' hpriorities entry arg arg').andThen fun _ => .value rfl
  | setPriority hpriorities => exact (goAlike_setPriority hpriorities).silently

theorem find?_alike {s s' : Scheduler} (hs : s.Alike s') (tid : Nat) :
    find? s' tid = find? s tid := by
  obtain ⟨hblocks⟩ := hs
  simp only [find?, threadBlocks, fun b => (hblocks b).tid_eq]

mutual

theorem Order.Alike.goAlike {order order' : Order} (h : order.Alike order') :
    GoAlike Eq order.perform order'.perform := by
  cases h with
  | call hcalls => exact hcalls.goAlike
  | unblock tid =>
      refine GoAlike.state.bind fun s s' hs => ?_
      rw [find?_alike hs tid]
      cases find? s tid with
      | none => exact .value rfl
      | some b => exact (Call.unblock b).goAlike
  | runThread hbodies =>
      have hbody := (goAlike_performAll hbodies).andThen fun _ => .value (a := ()) rfl
      exact (goAlike_runThread hbody).silently

theorem goAlike_performAll {orders orders' : List Order}
    (h : List.Forall₂ Order.Alike orders orders') :
    GoAlike Eq (performAll orders) (performAll orders') := by
  cases h with
  | nil => exact .value rfl
  | cons hfirst hrest =>
      exact hfirst.goAlike.andThen fun created =>
        (goAlike_performAll hrest).andThen fun rest => .value rfl

end

/-- Two sequences of orders that differ in nothing but names, priorities in range and arguments,
carried out from the same state: as long as neither has halted they have created the same threads
and the states are alike, and if one halts the other one halts at the same order and for the same
cause. -/
theorem Order.indifferent {orders orders' : List Order}
    (halike : List.Forall₂ Order.Alike orders orders') (h : Host) (n : Nat) :
    AlikeOutcomes Eq (performAll (orders.take n) h) (performAll (orders'.take n) h) :=
  goAlike_performAll (List.forall₂_take n halike) h h (.refl h)

/-- Whether a computation returns. -/
def returns {α : Type} (x : HostM α) (h : Host) : Bool :=
  match x h with
  | .ok _ _ => true
  | .error _ _ => false

/-- A thread is created that creates another one in its life, and the other one takes turns with
the boot thread; the last order finds nobody. -/
def ordersSample (first second : String) (priority priority' arg arg' : Nat) : List Order :=
  [.call (.create first priority threadBody arg), .call .yieldNow,
    .runThread [.call (.create second priority' threadBody arg'), .call (.setPriority priority)],
    .call (.setLevel .off), .call .block, .unblock 1, .call .timerInterrupt, .call .retire,
    .unblock 9]

/-- The boot thread gives other names and priorities, and the new threads rank the other way
round. -/
theorem indifferent_sample :
    List.Forall₂ Order.Alike (ordersSample "a" "b" 3 60 7 9)
        (ordersSample "another" "b" 63 0 1 2) ∧
      AlikeOutcomes Eq (performAll ((ordersSample "a" "b" 3 60 7 9).take 9) sample)
        (performAll ((ordersSample "another" "b" 63 0 1 2).take 9) sample) ∧
      returns (performAll ((ordersSample "a" "b" 3 60 7 9).take 9)) sample = true := by
  have hfirst : AlikePriorities 3 63 := .inr (by decide)
  have hsecond : AlikePriorities 60 0 := .inr (by decide)
  have halike : List.Forall₂ Order.Alike (ordersSample "a" "b" 3 60 7 9)
      (ordersSample "another" "b" 63 0 1 2) :=
    .cons (.call (.create _ _ _ _ _ hfirst)) <| .cons (.call (.same _)) <|
      .cons (.runThread <| .cons (.call (.create _ _ _ _ _ hsecond)) <|
        .cons (.call (.setPriority hfirst)) .nil) <|
      .cons (.call (.same _)) <| .cons (.call (.same _)) <| .cons (.unblock 1) <|
      .cons (.call (.same _)) <| .cons (.call (.same _)) <| .cons (.unblock 9) .nil
  exact ⟨halike, Order.indifferent halike sample 9, by decide +kernel⟩

end Host

end RoundRobin
