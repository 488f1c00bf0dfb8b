import RoundRobin.Proofs.Host.Outcome

/-!
# Operations on the host

When each operation of the scheduler returns on the host processor, and what it leaves.
-/

namespace RoundRobin.Scheduler

open Host

variable {h h' : Host} {u : Unit} {b : Nat}

@[simp] theorem thread_eq_ok_iff {c : Thread} :
    (thread b : HostM Thread) h = .ok c h' ↔ c = h.scheduler.threads.get b ∧ h' = h := by
  simp [thread, and_comm]

@[simp] theorem modifyThread_eq_ok_iff {f : Thread → Thread} :
    (modifyThread b f : HostM Unit) h = .ok u h' ↔
      h' = h.withScheduler (h.scheduler.alter b f) := by
  simp [modifyThread, alter]

@[simp] theorem setStatus_eq_ok_iff {status : Status} :
    (setStatus b status : HostM Unit) h = .ok u h' ↔
      h' = h.withScheduler (h.scheduler.mark b status) := by
  simp [setStatus, mark]

@[simp] theorem report_eq_ok_iff {severity : Severity} {text : String} :
    (report severity text : HostM Unit) h = .ok u h' ↔
      h' = h.logged { severity, source := .scheduler, text } := by
  simp [report]

@[simp] theorem allocateTid_eq_ok_iff {tid : Nat} :
    (allocateTid : HostM Nat) h = .ok tid h' ↔
      tid = h.scheduler.nextTid ∧ tid + 1 < Word.limit32 ∧
        h' = h.withScheduler h.scheduler.tookTid := by
  simp only [allocateTid, bind_eq_ok_iff, get_eq_ok_iff, liftM_eq_ok_iff, Word.add_eq_ok_iff,
    modify_eq_ok_iff, pure_eq_ok_iff]
  constructor
  · rintro ⟨_, _, ⟨rfl, rfl⟩, _, _, ⟨⟨hlt, rfl⟩, rfl⟩, _, _, rfl, rfl, rfl⟩
    exact ⟨rfl, hlt, rfl⟩
  · rintro ⟨rfl, hlt, rfl⟩
    exact ⟨_, _, ⟨rfl, rfl⟩, _, _, ⟨⟨hlt, rfl⟩, rfl⟩, (), _, rfl, rfl, rfl⟩

/-- A thread is appended to a queue of the scheduler if it is on none. -/
theorem append_eq_ok_iff (queue : Scheduler → Queue)
    (put : Scheduler → Queue → Memory Thread → Scheduler) :
    (do let s ← get
        let (q, threads) ← (queue s).push s.threads b
        set (put s q threads) : HostM Unit) h = .ok u h' ↔
      (h.scheduler.threads.get b).Free ∧
        h' = h.withScheduler (put h.scheduler ((queue h.scheduler).append b)
          (h.scheduler.threads.modify b (Thread.claimedBy (queue h.scheduler).kind))) := by
  simp only [bind_eq_ok_iff, get_eq_ok_iff, liftM_eq_ok_iff, set_eq_ok_iff, Prod.exists,
    Queue.push_eq_ok_iff]
  constructor
  · rintro ⟨_, _, ⟨rfl, rfl⟩, _, _, _, ⟨⟨hfree, rfl, rfl⟩, rfl⟩, rfl⟩
    exact ⟨hfree, rfl⟩
  · rintro ⟨hfree, rfl⟩
    exact ⟨_, _, ⟨rfl, rfl⟩, _, _, _, ⟨⟨hfree, rfl, rfl⟩, rfl⟩, rfl⟩

@[simp] theorem pushReady_eq_ok_iff :
    (pushReady b : HostM Unit) h = .ok u h' ↔
      (h.scheduler.threads.get b).Free ∧ h' = h.withScheduler (h.scheduler.enqueue b) :=
  append_eq_ok_iff ready fun s ready threads => { s with ready, threads }

/-- The head of a queue of the scheduler is taken off if there is one, and if it is tagged as a
member. -/
theorem behead_eq_ok_iff (queue : Scheduler → Queue)
    (put : Scheduler → Queue → Memory Thread → Scheduler) {head : Option Nat} :
    (do let s ← get
        let (head, q, threads) ← (queue s).pop s.threads
        set (put s q threads)
        return head : HostM (Option Nat)) h = .ok head h' ↔
      ((queue h.scheduler).members = [] ∧ head = none ∧
        h' = h.withScheduler (put h.scheduler (queue h.scheduler) h.scheduler.threads)) ∨
      ∃ b rest, (queue h.scheduler).members = b :: rest ∧ head = some b ∧
        (h.scheduler.threads.get b).owner = (queue h.scheduler).kind ∧
        h' = h.withScheduler (put h.scheduler (queue h.scheduler).behead
          (h.scheduler.threads.modify b Thread.released)) := by
  simp only [bind_eq_ok_iff, get_eq_ok_iff, liftM_eq_ok_iff, set_eq_ok_iff, Prod.exists,
    Queue.pop_eq_ok_iff, pure_eq_ok_iff]
  constructor
  · rintro ⟨_, _, ⟨rfl, rfl⟩, _, _, _, _,
      ⟨⟨hnil, rfl, rfl, rfl⟩ | ⟨b, rest, hcons, rfl, howner, rfl, rfl⟩, rfl⟩, _, _, rfl, rfl, rfl⟩
    · exact Or.inl ⟨hnil, rfl, rfl⟩
    · exact Or.inr ⟨b, rest, hcons, rfl, howner, rfl⟩
  · rintro (⟨hnil, rfl, rfl⟩ | ⟨b, rest, hcons, rfl, howner, rfl⟩)
    · exact ⟨_, _, ⟨rfl, rfl⟩, _, _, _, _, ⟨Or.inl ⟨hnil, rfl, rfl, rfl⟩, rfl⟩, (), _, rfl, rfl, rfl⟩
    · exact ⟨_, _, ⟨rfl, rfl⟩, _, _, _, _,
        ⟨Or.inr ⟨b, rest, hcons, rfl, howner, rfl, rfl⟩, rfl⟩, (), _, rfl, rfl, rfl⟩

@[simp] theorem popReady_eq_ok_iff {head : Option Nat} :
    (popReady : HostM (Option Nat)) h = .ok head h' ↔
      head = h.scheduler.ready.members.head? ∧
      (∀ b ∈ head, (h.scheduler.threads.get b).owner = h.scheduler.ready.kind) ∧
      h' = h.withScheduler h.scheduler.dequeue := by
  rw [popReady, behead_eq_ok_iff ready fun s ready threads => { s with ready, threads }]
  cases hmembers : h.scheduler.ready.members with
  | nil =>
      rw [dequeue_of_nil hmembers]
      constructor
      · rintro (⟨-, rfl, rfl⟩ | ⟨b, rest, hcons, -⟩)
        · exact ⟨rfl, by simp, rfl⟩
        · cases hcons
      · rintro ⟨rfl, -, rfl⟩
        exact Or.inl ⟨rfl, rfl, rfl⟩
  | cons b rest =>
      rw [dequeue, hmembers]
      constructor
      · rintro (⟨hnil, -⟩ | ⟨c, rest', hcons, rfl, howner, rfl⟩)
        · cases hnil
        · cases hcons
          exact ⟨rfl, by simpa using howner, rfl⟩
      · rintro ⟨rfl, howner, rfl⟩
        exact Or.inr ⟨b, rest, rfl, rfl, howner b rfl, rfl⟩

@[simp] theorem pushDestruction_eq_ok_iff :
    (pushDestruction b : HostM Unit) h = .ok u h' ↔
      (h.scheduler.threads.get b).Free ∧ h' = h.withScheduler (h.scheduler.bury b) :=
  append_eq_ok_iff destruction fun s destruction threads => { s with destruction, threads }

theorem popDestruction_eq_ok_iff {head : Option Nat} :
    (popDestruction : HostM (Option Nat)) h = .ok head h' ↔
      (h.scheduler.destruction.members = [] ∧ head = none ∧ h' = h) ∨
      ∃ b rest, h.scheduler.destruction.members = b :: rest ∧ head = some b ∧
        (h.scheduler.threads.get b).owner = h.scheduler.destruction.kind ∧
        h' = h.withScheduler (h.scheduler.exhume b) :=
  behead_eq_ok_iff destruction fun s destruction threads => { s with destruction, threads }

theorem pushSleeper_eq_ok_iff :
    (pushSleeper b : HostM Unit) h = .ok u h' ↔
      ∃ wake, (h.scheduler.threads.get b).wakeTick = some wake ∧
        (h.scheduler.threads.get b).Free ∧ h' = h.withScheduler (h.scheduler.shelve b wake) := by
  simp only [pushSleeper, bind_eq_ok_iff, get_eq_ok_iff, liftM_eq_ok_iff, set_eq_ok_iff,
    Prod.exists, SleepQueue.insert_eq_ok_iff]
  constructor
  · rintro ⟨_, _, ⟨rfl, rfl⟩, _, _, _, ⟨⟨wake, hwake, hfree, rfl, rfl⟩, rfl⟩, rfl⟩
    exact ⟨wake, hwake, hfree, rfl⟩
  · rintro ⟨wake, hwake, hfree, rfl⟩
    exact ⟨_, _, ⟨rfl, rfl⟩, _, _, _, ⟨⟨wake, hwake, hfree, rfl, rfl⟩, rfl⟩, rfl⟩

theorem popSleeper_eq_ok_iff {now : Nat} {head : Option Nat} :
    (popSleeper now : HostM (Option Nat)) h = .ok head h' ↔
      (¬ h.scheduler.sleepers.Due h.scheduler.threads now ∧ head = none ∧ h' = h) ∨
      ∃ b rest wake, h.scheduler.sleepers.queue.members = b :: rest ∧
        (h.scheduler.threads.get b).wakeTick = some wake ∧ wake ≤ now ∧ head = some b ∧
        (h.scheduler.threads.get b).owner = h.scheduler.sleepers.queue.kind ∧
        h' = h.withScheduler (h.scheduler.unshelve b) := by
  simp only [popSleeper, bind_eq_ok_iff, get_eq_ok_iff, liftM_eq_ok_iff, set_eq_ok_iff,
    Prod.exists, SleepQueue.popDue_eq_ok_iff, pure_eq_ok_iff]
  constructor
  · rintro ⟨_, _, ⟨rfl, rfl⟩, _, _, _, _,
      ⟨⟨hdue, rfl, rfl, rfl⟩ | ⟨b, rest, wake, hcons, hwake, hle, rfl, howner, rfl, rfl⟩, rfl⟩,
      _, _, rfl, rfl, rfl⟩
    · exact Or.inl ⟨hdue, rfl, rfl⟩
    · exact Or.inr ⟨b, rest, wake, hcons, hwake, hle, rfl, howner, rfl⟩
  · rintro (⟨hdue, rfl, rfl⟩ | ⟨b, rest, wake, hcons, hwake, hle, rfl, howner, rfl⟩)
    · exact ⟨_, _, ⟨rfl, rfl⟩, _, _, _, _, ⟨Or.inl ⟨hdue, rfl, rfl, rfl⟩, rfl⟩, (), _, rfl, rfl, rfl⟩
    · exact ⟨_, _, ⟨rfl, rfl⟩, _, _, _, _,
        ⟨Or.inr ⟨b, rest, wake, hcons, hwake, hle, rfl, howner, rfl, rfl⟩, rfl⟩,
        (), _, rfl, rfl, rfl⟩

@[simp] theorem runningThread_eq_ok_iff :
    (runningThread : HostM Nat) h = .ok b h' ↔ Block.containing h.sp = .ok b ∧ h' = h := by
  simp [runningThread, and_comm]

end RoundRobin.Scheduler

namespace RoundRobin.Host

/-- `b` is the block whose stack is in use, and its thread is intact and running. -/
structure IsCurrent (h : Host) (b : Nat) : Prop where
  here : Block.containing h.sp = .ok b
  intact : (h.scheduler.threads.get b).IsValid
  running : (h.scheduler.threads.get b).status = .running

/-- What has to hold for a dispatch from the thread in `source` to the one in `target`. -/
structure Dispatches (h : Host) (source target : Nat) : Prop where
  here : Block.containing h.sp = .ok source
  tagged : ∀ b ∈ h.scheduler.ready.members.head?,
    (h.scheduler.threads.get b).owner = h.scheduler.ready.kind
  next : h.scheduler.ready.members.head?.or h.scheduler.idle = some target
  masked : h.level = .off
  left : (h.scheduler.threads.get source).status ≠ .running
  intact : (h.scheduler.threads.get target).IsValid
  parkable : source ≠ target → (h.scheduler.threads.get source).status = .dying →
    h.scheduler.initial ≠ some source →
      ((h.scheduler.elect target).threads.get source).Free

/-- A blocked thread that will run `entry arg` is put into the block `b`, which the pool had
free. -/
def Spawns (h : Host) (name : String) (priority entry arg b : Nat) (h' : Host) : Prop :=
  ∃ pool threads c top,
    h.scheduler.pool.alloc h.scheduler.threads = .ok (some (b, pool, threads)) ∧
    Thread.new name priority = .ok c ∧
    h.scheduler.nextTid + 1 < Word.limit32 ∧
    Block.initialStackPointer b = .ok top ∧
    h' = (h.withScheduler ((h.scheduler.allot b pool threads).enlist b c
        (.entering h.scheduler.trampoline entry arg top))).logged
      { severity := .debug, source := .scheduler
        text := s!"created thread {h.scheduler.nextTid} \"{name}\" priority {priority}" }

/-- The processor after it saved the stack pointer of `source` and went on as `target`. -/
def switched (h : Host) (source target : Nat) : Host :=
  let sp := (h.scheduler.threads.get target).context.sp
  { h with
    scheduler := h.scheduler.saveStack source h.sp
    sp
    switches := h.switches.push (Block.base sp) }

/-- The host after a dispatch from `source` to `target`. -/
def dispatched (h : Host) (source target : Nat) : Host :=
  let s := h.scheduler.elect target
  if source = target then h.withScheduler s
  else
    let s := s.park source
    let text := s!"switch {(s.threads.get source).tid} -> {(s.threads.get target).tid}"
    ((h.withScheduler s).logged { severity := .trace, source := .scheduler, text }).switched
      source target

/-- The host after the block of the exited thread in `victim` was taken back. -/
def reaped (h : Host) (victim : Nat) (pool : Pool) : Host :=
  let text := s!"reclaiming thread {((h.scheduler.exhume victim).threads.get victim).tid}"
  (h.logged { severity := .debug, source := .scheduler, text }).withScheduler
    (h.scheduler.reap victim pool)

end RoundRobin.Host

namespace RoundRobin.Scheduler

open Host

variable {h h' : Host} {u : Unit} {b : Nat}

@[simp] theorem current_eq_ok_iff :
    (current : HostM Nat) h = .ok b h' ↔ h.IsCurrent b ∧ h' = h := by
  simp only [current, bind_eq_ok_iff, runningThread_eq_ok_iff, thread_eq_ok_iff,
    liftM_eq_ok_iff, require_eq_ok_iff, pure_eq_ok_iff]
  constructor
  · rintro ⟨_, _, ⟨hhere, rfl⟩, _, _, ⟨rfl, rfl⟩, _, _, ⟨hvalid, rfl⟩, _, _, ⟨hrun, rfl⟩, rfl, rfl⟩
    exact ⟨⟨hhere, hvalid, hrun⟩, rfl⟩
  · rintro ⟨⟨hhere, hvalid, hrun⟩, rfl⟩
    exact ⟨_, _, ⟨hhere, rfl⟩, _, _, ⟨rfl, rfl⟩, (), _, ⟨hvalid, rfl⟩, (), _, ⟨hrun, rfl⟩, rfl, rfl⟩

@[simp] theorem isIdle_eq_ok_iff {idle : Bool} :
    (isIdle b : HostM Bool) h = .ok idle h' ↔
      idle = (h.scheduler.idle == some b) ∧ h' = h := by
  simp [isIdle, and_comm]

theorem nextThread_eq_ok_iff :
    (nextThread : HostM Nat) h = .ok b h' ↔
      (∀ c ∈ h.scheduler.ready.members.head?,
        (h.scheduler.threads.get c).owner = h.scheduler.ready.kind) ∧
      h.scheduler.ready.members.head?.or h.scheduler.idle = some b ∧
      h' = h.withScheduler h.scheduler.dequeue := by
  have hidle : h.scheduler.dequeue.idle = h.scheduler.idle := by
    unfold dequeue
    split <;> rfl
  simp only [nextThread, bind_eq_ok_iff, popReady_eq_ok_iff, get_eq_ok_iff]
  constructor
  · rintro ⟨_, _, ⟨rfl, htag, rfl⟩, _, _, ⟨rfl, rfl⟩, hret⟩
    rw [scheduler_withScheduler, hidle] at hret
    cases hnext : h.scheduler.ready.members.head?.or h.scheduler.idle with
    | none =>
        rw [hnext] at hret
        exact absurd hret halt_ne_ok
    | some c =>
        rw [hnext] at hret
        obtain ⟨rfl, rfl⟩ := pure_eq_ok_iff.mp hret
        exact ⟨htag, rfl, rfl⟩
  · rintro ⟨htag, hnext, rfl⟩
    refine ⟨_, _, ⟨rfl, htag, rfl⟩, _, _, ⟨rfl, rfl⟩, ?_⟩
    rw [scheduler_withScheduler, hidle, hnext]
    exact pure_eq_ok_iff.mpr ⟨rfl, rfl⟩

theorem switchContext_eq (h : Host) (source target : Nat) :
    (Port.switchContext source target : HostM Unit) h =
      if h.level = .off then .ok () (h.switched source target)
      else .error .switchUnmasked h := rfl

theorem switchContext_eq_ok_iff {source target : Nat} :
    (Port.switchContext source target : HostM Unit) h = .ok u h' ↔
      h.level = .off ∧ h' = h.switched source target := by
  rw [switchContext_eq]
  by_cases hlevel : h.level = .off <;> simp [hlevel, eq_comm]

theorem modify_freshSlice_eq_ok_iff :
    (modify fun s => { s with sliceTicks := 0 } : HostM PUnit) h = .ok u h' ↔
      h' = h.withScheduler h.scheduler.freshSlice :=
  modify_eq_ok_iff

theorem schedule_eq_ok_iff :
    (schedule : HostM Unit) h = .ok u h' ↔
      ∃ source target, h.Dispatches source target ∧ h' = h.dispatched source target := by
  simp only [schedule, bind_eq_ok_iff, runningThread_eq_ok_iff, nextThread_eq_ok_iff,
    level_eq_ok_iff, liftM_eq_ok_iff, require_eq_ok_iff, thread_eq_ok_iff, setStatus_eq_ok_iff,
    modify_freshSlice_eq_ok_iff, ite_eq_ok_iff, get_eq_ok_iff, pushDestruction_eq_ok_iff,
    report_eq_ok_iff, switchContext_eq_ok_iff, pure_eq_ok_iff, and_assoc, exists_and_left,
    exists_eq_left, exists_const, scheduler_withScheduler, level_withScheduler, level_logged,
    withScheduler_withScheduler, status_dequeue, isValid_dequeue, ← elect_def, initial_elect]
  constructor
  · rintro ⟨source, hhere, htag, target, hnext, hmask, hleft, hvalid, hswitch⟩
    refine ⟨source, target, ⟨hhere, htag, hnext, hmask, hleft, hvalid, ?_⟩, ?_⟩
    · intro hne hdying hinitial
      rcases hswitch with ⟨-, ⟨-, -, hfree, -⟩ | ⟨hstay, -⟩⟩ | ⟨heq, -⟩
      · exact hfree
      · exact absurd ⟨(status_elect_of_ne (Ne.symm hne)).trans hdying, hinitial⟩ hstay
      · exact absurd hne heq
    · rcases hswitch with ⟨hne, ⟨hdying, hinitial, -, -, rfl⟩ | ⟨hstay, -, rfl⟩⟩ | ⟨heq, -, rfl⟩
      · rw [dispatched, if_neg hne, park, initial_elect, if_pos ⟨hdying, hinitial⟩]
      · rw [dispatched, if_neg hne, park, initial_elect, if_neg hstay]
      · rw [dispatched, if_pos (not_not.mp heq)]
  · rintro ⟨source, target, hd, rfl⟩
    refine ⟨source, hd.here, hd.tagged, target, hd.next, hd.masked, hd.left, hd.intact, ?_⟩
    by_cases heq : source = target
    · exact Or.inr ⟨not_not.mpr heq, trivial, by rw [dispatched, if_pos heq]⟩
    · refine Or.inl ⟨heq, ?_⟩
      by_cases hpark : ((h.scheduler.elect target).threads.get source).status = .dying ∧
          h.scheduler.initial ≠ some source
      · refine Or.inl ⟨hpark.1, hpark.2, ?_, hd.masked, ?_⟩
        · rw [status_elect_of_ne (Ne.symm heq)] at hpark
          exact hd.parkable heq hpark.1 hpark.2
        · rw [dispatched, if_neg heq, park, initial_elect, if_pos hpark]
      · refine Or.inr ⟨hpark, hd.masked, ?_⟩
        rw [dispatched, if_neg heq, park, initial_elect, if_neg hpark]

theorem reclaim_eq_ok_iff_of_nil {running count : Nat}
    (hnil : h.scheduler.destruction.members = []) :
    (reclaim running count : HostM Unit) h = .ok u h' ↔ h' = h := by
  cases count with
  | zero => simp [reclaim]
  | succ count =>
      simp only [reclaim, bind_eq_ok_iff, popDestruction_eq_ok_iff, hnil, true_and]
      constructor
      · rintro ⟨_, _, ⟨rfl, rfl⟩ | ⟨_, _, hcons, -⟩, hrest⟩
        · exact (pure_eq_ok_iff.mp hrest).2
        · cases hcons
      · rintro rfl
        exact ⟨_, _, Or.inl ⟨rfl, rfl⟩, pure_eq_ok_iff.mpr ⟨rfl, rfl⟩⟩

theorem reclaim_eq_ok_iff_of_cons {running count : Nat} {rest : List Nat}
    (hcons : h.scheduler.destruction.members = b :: rest) :
    (reclaim running (count + 1) : HostM Unit) h = .ok u h' ↔
      (h.scheduler.threads.get b).owner = h.scheduler.destruction.kind ∧ b ≠ running ∧
        ∃ pool, h.scheduler.pool.free b = .ok pool ∧
          (reclaim running count : HostM Unit) (h.reaped b pool) = .ok u h' := by
  simp only [reclaim, bind_eq_ok_iff, popDestruction_eq_ok_iff, hcons]
  constructor
  · rintro ⟨_, _, ⟨hnil, -⟩ | ⟨_, _, hcons', rfl, howner, rfl⟩, hrest⟩
    · cases hnil
    · cases hcons'
      simp only [bind_eq_ok_iff, thread_eq_ok_iff, liftM_eq_ok_iff, require_eq_ok_iff,
        report_eq_ok_iff, get_eq_ok_iff, set_eq_ok_iff, and_assoc, exists_and_left,
        exists_eq_left, exists_const, scheduler_withScheduler, scheduler_logged] at hrest
      obtain ⟨hne, pool, hfree, hrest⟩ := hrest
      exact ⟨howner, hne, pool, hfree, hrest⟩
  · rintro ⟨howner, hne, pool, hfree, hrest⟩
    refine ⟨_, _, Or.inr ⟨_, _, rfl, rfl, howner, rfl⟩, ?_⟩
    simp only [bind_eq_ok_iff, thread_eq_ok_iff, liftM_eq_ok_iff, require_eq_ok_iff,
      report_eq_ok_iff, get_eq_ok_iff, set_eq_ok_iff, and_assoc, exists_and_left,
      exists_eq_left, exists_const, scheduler_withScheduler, scheduler_logged]
    exact ⟨hne, pool, hfree, hrest⟩

theorem doSchedule_eq_ok_iff {status : Status} :
    (doSchedule status : HostM Unit) h = .ok u h' ↔
      h.level = .off ∧ ∃ r, h.IsCurrent r ∧ ∃ h₁,
        (reclaim r h.scheduler.destruction.members.length : HostM Unit) h = .ok () h₁ ∧
        (schedule : HostM Unit) (h₁.withScheduler (h₁.scheduler.mark r status)) = .ok u h' := by
  simp only [doSchedule, bind_eq_ok_iff, level_eq_ok_iff, liftM_eq_ok_iff, require_eq_ok_iff,
    current_eq_ok_iff, get_eq_ok_iff, setStatus_eq_ok_iff, and_assoc, exists_and_left,
    exists_eq_left, exists_const, exists_unit]

theorem unblock_eq_ok_iff :
    (unblock b : HostM Unit) h = .ok u h' ↔
      (h.scheduler.threads.get b).IsValid ∧ (h.scheduler.threads.get b).status = .blocked ∧
        (h.scheduler.threads.get b).Free ∧
        h' = h.withScheduler (h.scheduler.makeReady b) := by
  simp only [unblock, bind_eq_ok_iff, thread_eq_ok_iff, liftM_eq_ok_iff, require_eq_ok_iff,
    disable_eq_ok_iff, pushReady_eq_ok_iff, setStatus_eq_ok_iff, setLevel_eq_ok_iff,
    pure_eq_ok_iff, and_assoc, exists_and_left, exists_eq_left, exists_const, true_and]
  rfl

/-- A queued thread that is blocked cannot be unblocked. -/
theorem unblock_of_queued (hintact : (h.scheduler.threads.get b).IsValid)
    (hblocked : (h.scheduler.threads.get b).status = .blocked)
    (howner : (h.scheduler.threads.get b).owner ≠ .detached) :
    (unblock b : HostM Unit) h =
      .error (.claimedWhileOwned (h.scheduler.threads.get b).tid h.scheduler.ready.kind
        (h.scheduler.threads.get b).owner) (h.withLevel .off) := by
  have hpush : (pushReady b : HostM Unit) (h.withLevel .off) =
      .error (.claimedWhileOwned (h.scheduler.threads.get b).tid h.scheduler.ready.kind
        (h.scheduler.threads.get b).owner) (h.withLevel .off) := by
    rw [pushReady, bind_of_ok (get_eq_ok_iff.mpr ⟨rfl, rfl⟩), scheduler_withLevel,
      Queue.push_of_owned howner]
    rfl
  rw [unblock, bind_of_ok (thread_eq_ok_iff.mpr ⟨rfl, rfl⟩),
    bind_of_ok ((liftM_eq_ok_iff (a := ())).mpr ⟨require_eq_ok_iff.mpr hintact, rfl⟩),
    bind_of_ok (disable_eq_ok_iff.mpr ⟨rfl, rfl⟩),
    bind_of_ok (thread_eq_ok_iff.mpr ⟨rfl, rfl⟩), scheduler_withLevel,
    bind_of_ok ((liftM_eq_ok_iff (a := ())).mpr ⟨require_eq_ok_iff.mpr hblocked, rfl⟩)]
  exact bind_of_error hpush

theorem block_eq_ok_iff :
    (block : HostM Unit) h = .ok u h' ↔
      h.inInterrupt = false ∧ h.level = .off ∧ ∃ r, h.IsCurrent r ∧
        (schedule : HostM Unit) (h.withScheduler (h.scheduler.mark r .blocked)) = .ok u h' := by
  simp only [block, bind_eq_ok_iff, inInterrupt_eq_ok_iff, level_eq_ok_iff, liftM_eq_ok_iff,
    require_eq_ok_iff, current_eq_ok_iff, setStatus_eq_ok_iff, and_assoc, exists_and_left,
    exists_eq_left, exists_const]

/-- A dispatch is no wait for an interrupt. -/
theorem waits_of_block (hrun : (block : HostM Unit) h = .ok u h') : h'.waits = h.waits := by
  obtain ⟨-, -, r, -, hschedule⟩ := block_eq_ok_iff.mp hrun
  obtain ⟨source, target, -, rfl⟩ := schedule_eq_ok_iff.mp hschedule
  rw [dispatched]
  split <;> rfl

theorem yieldNow_eq_ok_iff :
    (yieldNow : HostM Unit) h = .ok u h' ↔
      h.inInterrupt = false ∧ ∃ r, h.IsCurrent r ∧ ∃ h₁,
        ((h.scheduler.idle = some r ∧
            (doSchedule .ready : HostM Unit) (h.withLevel .off) = .ok () h₁) ∨
          (h.scheduler.idle ≠ some r ∧ (h.scheduler.threads.get r).Free ∧
            (doSchedule .ready : HostM Unit)
              ((h.withLevel .off).withScheduler (h.scheduler.enqueue r)) = .ok () h₁)) ∧
        h' = h₁.withLevel h.level := by
  simp only [yieldNow, bind_eq_ok_iff, inInterrupt_eq_ok_iff, liftM_eq_ok_iff,
    require_eq_ok_iff, current_eq_ok_iff, disable_eq_ok_iff, isIdle_eq_ok_iff, ite_eq_ok_iff,
    pushReady_eq_ok_iff, setLevel_eq_ok_iff, pure_eq_ok_iff, and_assoc, exists_and_left,
    exists_eq_left, exists_const, exists_unit, true_and, scheduler_withLevel, beq_iff_eq]
  constructor
  · rintro ⟨hirq, r, hcur, ⟨hidle, h₁, hrun, rfl⟩ | ⟨hidle, hfree, h₁, hrun, rfl⟩⟩
    · exact ⟨hirq, r, hcur, h₁, Or.inl ⟨hidle, hrun⟩, rfl⟩
    · exact ⟨hirq, r, hcur, h₁, Or.inr ⟨hidle, hfree, hrun⟩, rfl⟩
  · rintro ⟨hirq, r, hcur, h₁, ⟨hidle, hrun⟩ | ⟨hidle, hfree, hrun⟩, rfl⟩
    · exact ⟨hirq, r, hcur, Or.inl ⟨hidle, h₁, hrun, rfl⟩⟩
    · exact ⟨hirq, r, hcur, Or.inr ⟨hidle, hfree, h₁, hrun, rfl⟩⟩

theorem retire_eq_ok_iff :
    (retire : HostM Unit) h = .ok u h' ↔
      h.inInterrupt = false ∧ ∃ r, h.IsCurrent r ∧
        (doSchedule .dying : HostM Unit) ((h.withLevel .off).logged
          { severity := .debug, source := .scheduler
            text := s!"thread {(h.scheduler.threads.get r).tid} exiting" }) = .ok u h' := by
  simp only [retire, tid, currentThread, bind_eq_ok_iff, inInterrupt_eq_ok_iff, liftM_eq_ok_iff,
    require_eq_ok_iff, current_eq_ok_iff, disable_eq_ok_iff, thread_eq_ok_iff, report_eq_ok_iff,
    pure_eq_ok_iff, and_assoc, exists_and_left, exists_eq_left, exists_const]
  constructor
  · rintro ⟨hirq, _, _, ⟨_, _, ⟨r, ⟨hhere, hvalid, hrun⟩, rfl, rfl⟩, rfl, rfl⟩, hdo⟩
    exact ⟨hirq, r, ⟨hhere, hvalid, hrun⟩, hdo⟩
  · rintro ⟨hirq, r, ⟨hhere, hvalid, hrun⟩, hdo⟩
    exact ⟨hirq, _, _, ⟨_, _, ⟨r, ⟨hhere, hvalid, hrun⟩, rfl, rfl⟩, rfl, rfl⟩, hdo⟩

theorem idlePass_eq_ok_iff :
    (idlePass : HostM Unit) h = .ok u h' ↔
      ∃ h₁, (block : HostM Unit) (h.withLevel .off) = .ok () h₁ ∧
        h.waits + 1 < Word.limit64 ∧ h' = { h₁ with waits := h.waits + 1, level := .on } := by
  simp only [idlePass, bind_eq_ok_iff, disable_eq_ok_iff, waitForInterrupt_eq_ok_iff, and_assoc,
    exists_and_left, exists_eq_left, exists_unit]
  refine exists_congr fun h₁ => and_congr_right fun hblock => ?_
  rw [waits_of_block hblock]
  rfl

/-- The life of a thread is its body, with interrupts on, and then an exit. -/
theorem runThread_eq_ok_iff {body : HostM Unit} :
    (runThread body : HostM Unit) h = .ok u h' ↔
      ∃ h₁, body (h.withLevel .on) = .ok () h₁ ∧ (retire : HostM Unit) h₁ = .ok u h' := by
  simp only [runThread, bind_eq_ok_iff, enable_eq_ok_iff, exists_eq_left, exists_const,
    exists_unit]

theorem initThread_eq_ok_iff {name : String} {priority : Nat} :
    (initThread b name priority : HostM Unit) h = .ok u h' ↔
      ∃ c, Thread.new name priority = .ok c ∧
        h' = h.withScheduler (h.scheduler.alter b fun _ => c) := by
  simp only [initThread, bind_eq_ok_iff, liftM_eq_ok_iff, modifyThread_eq_ok_iff, and_assoc,
    exists_and_left, exists_eq_left]

theorem freshContext_eq_ok_iff {entry arg0 arg1 top : Nat} {c : Context} :
    (Port.freshContext entry arg0 arg1 top : HostM Context) h = .ok c h' ↔
      c = .entering entry arg0 arg1 top ∧ h' = h :=
  pure_eq_ok_iff

theorem modify_appoint_eq_ok_iff :
    (modify fun s => { s with idle := some b } : HostM PUnit) h = .ok u h' ↔
      h' = h.withScheduler (h.scheduler.appoint b) :=
  modify_eq_ok_iff

theorem set_allot_eq_ok_iff {s : Scheduler} {pool : Pool} {threads : Memory Thread} :
    (set ({ s with pool, threads }.severLinks b) : HostM PUnit) h = .ok u h' ↔
      h' = h.withScheduler (s.allot b pool threads) :=
  set_eq_ok_iff

theorem init_eq_ok_iff :
    (init : HostM Unit) h = .ok u h' ↔
      h.level = .off ∧ h.scheduler.initial = none ∧
        ∃ b, Block.containing h.sp = .ok b ∧
        ∃ c, Thread.new "main" Config.priorityDefault = .ok c ∧
          h.scheduler.nextTid + 1 < Word.limit32 ∧
          h' = (h.withScheduler (h.scheduler.adopt b c)).logged
            { severity := .debug, source := .scheduler
              text := s!"thread {h.scheduler.nextTid} \"main\" adopted boot context" } := by
  simp only [init, bind_eq_ok_iff, level_eq_ok_iff, liftM_eq_ok_iff, require_eq_ok_iff,
    get_eq_ok_iff, runningThread_eq_ok_iff, initThread_eq_ok_iff, allocateTid_eq_ok_iff,
    modifyThread_eq_ok_iff, modify_eq_ok_iff, report_eq_ok_iff, and_assoc, exists_and_left,
    exists_eq_left, exists_const]
  constructor
  · rintro ⟨hlevel, hnone, b, hhere, _, ⟨c, hc, rfl⟩, hlt, rfl⟩
    exact ⟨hlevel, hnone, b, hhere, c, hc, hlt, rfl⟩
  · rintro ⟨hlevel, hnone, b, hhere, c, hc, hlt, rfl⟩
    exact ⟨hlevel, hnone, b, hhere, _, ⟨c, hc, rfl⟩, hlt, rfl⟩

/-- A thread is created if a block is free; otherwise the call answers so and changes nothing. -/
theorem spawn_eq_ok_iff {name : String} {priority entry arg : Nat}
    {res : Except SpawnError Nat} :
    (spawn name priority entry arg : HostM (Except SpawnError Nat)) h = .ok res h' ↔
      Thread.requirePriority priority = .ok () ∧
        ((h.scheduler.pool.alloc h.scheduler.threads = .ok none ∧ res = .error .outOfMemory ∧
            h' = h) ∨
          ∃ b, h.Spawns name priority entry arg b h' ∧ res = .ok b) := by
  simp only [spawn, bind_eq_ok_iff, liftM_eq_ok_iff, get_eq_ok_iff, and_assoc, exists_and_left,
    exists_eq_left, exists_unit]
  refine and_congr_right fun _ => ?_
  rcases halloc : h.scheduler.pool.alloc h.scheduler.threads with cause | _ | ⟨b, pool, threads⟩
  · simp [Spawns, halloc]
  · simp [Spawns, halloc]
  · simp only [Except.ok.injEq, exists_eq_left', bind_eq_ok_iff, set_allot_eq_ok_iff,
      initThread_eq_ok_iff, allocateTid_eq_ok_iff, liftM_eq_ok_iff, freshContext_eq_ok_iff,
      modifyThread_eq_ok_iff, report_eq_ok_iff, pure_eq_ok_iff, and_assoc, exists_and_left,
      exists_eq_left, exists_const, scheduler_withScheduler]
    constructor
    · rintro ⟨_, ⟨c, hc, rfl⟩, htid, top, htop, rfl, rfl⟩
      exact Or.inr ⟨b, ⟨pool, threads, c, top, halloc, hc, htid, htop, rfl⟩, rfl⟩
    · rintro (⟨hnone, -⟩ | ⟨_, ⟨_, _, c, top, hsome, hc, htid, htop, rfl⟩, rfl⟩)
      · cases hnone
      · cases halloc.symm.trans hsome
        exact ⟨_, ⟨c, hc, rfl⟩, htid, top, htop, rfl, rfl⟩

theorem start_eq_ok_iff {entry : Nat} {res : Except SpawnError Unit} :
    (start entry : HostM (Except SpawnError Unit)) h = .ok res h' ↔
      (h.scheduler.pool.alloc h.scheduler.threads = .ok none ∧ res = .error .outOfMemory ∧ h' = h) ∨
        ∃ b h₁, h.Spawns "idle" Config.priorityMin entry 0 b h₁ ∧ res = .ok () ∧
          h' = (h₁.withScheduler (h₁.scheduler.appoint b)).withLevel .on := by
  have hpriority : Thread.requirePriority Config.priorityMin = .ok () := rfl
  simp only [start, bind_eq_ok_iff, spawn_eq_ok_iff, hpriority, true_and]
  constructor
  · rintro ⟨_, _, ⟨hnone, rfl, rfl⟩ | ⟨b, hspawn, rfl⟩, hrest⟩
    · obtain ⟨rfl, rfl⟩ := pure_eq_ok_iff.mp hrest
      exact Or.inl ⟨hnone, rfl, rfl⟩
    · simp only [bind_eq_ok_iff, modify_appoint_eq_ok_iff, enable_eq_ok_iff, pure_eq_ok_iff,
        exists_and_left, exists_eq_left, exists_const] at hrest
      exact Or.inr ⟨b, _, hspawn, hrest⟩
  · rintro (⟨hnone, rfl, rfl⟩ | ⟨b, h₁, hspawn, rfl, rfl⟩)
    · exact ⟨_, _, Or.inl ⟨hnone, rfl, rfl⟩, pure_eq_ok_iff.mpr ⟨rfl, rfl⟩⟩
    · refine ⟨_, _, Or.inr ⟨b, hspawn, rfl⟩, ?_⟩
      simp only [bind_eq_ok_iff, modify_appoint_eq_ok_iff, enable_eq_ok_iff, pure_eq_ok_iff,
        exists_and_left, exists_eq_left, exists_const, and_self]

theorem create_eq_ok_iff {name : String} {priority entry arg : Nat}
    {res : Except SpawnError Nat} :
    (create name priority entry arg : HostM (Except SpawnError Nat)) h = .ok res h' ↔
      Thread.requirePriority priority = .ok () ∧
        ((h.scheduler.pool.alloc h.scheduler.threads = .ok none ∧ res = .error .outOfMemory ∧
            h' = h) ∨
          ∃ b h₁, h.Spawns name priority entry arg b h₁ ∧
            (unblock b : HostM Unit) h₁ = .ok () h' ∧
            res = .ok (h'.scheduler.threads.get b).tid) := by
  simp only [create, bind_eq_ok_iff, spawn_eq_ok_iff]
  constructor
  · rintro ⟨_, _, ⟨hpriority, ⟨hnone, rfl, rfl⟩ | ⟨b, hspawn, rfl⟩⟩, hrest⟩
    · obtain ⟨rfl, rfl⟩ := pure_eq_ok_iff.mp hrest
      exact ⟨hpriority, Or.inl ⟨hnone, rfl, rfl⟩⟩
    · simp only [bind_eq_ok_iff, thread_eq_ok_iff, pure_eq_ok_iff] at hrest
      obtain ⟨_, _, hunblock, _, _, ⟨rfl, rfl⟩, rfl, rfl⟩ := hrest
      exact ⟨hpriority, Or.inr ⟨b, _, hspawn, hunblock, rfl⟩⟩
  · rintro ⟨hpriority, ⟨hnone, rfl, rfl⟩ | ⟨b, h₁, hspawn, hunblock, rfl⟩⟩
    · exact ⟨_, _, ⟨hpriority, Or.inl ⟨hnone, rfl, rfl⟩⟩, pure_eq_ok_iff.mpr ⟨rfl, rfl⟩⟩
    · refine ⟨_, _, ⟨hpriority, Or.inr ⟨b, hspawn, rfl⟩⟩, ?_⟩
      simp only [bind_eq_ok_iff, thread_eq_ok_iff, pure_eq_ok_iff]
      exact ⟨_, _, hunblock, _, _, ⟨rfl, rfl⟩, rfl, rfl⟩

end RoundRobin.Scheduler
