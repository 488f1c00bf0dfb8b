import RoundRobin.Proofs.Queue.WakeOrder
import RoundRobin.Scheduler

/-!
# Changes of the scheduling state

The state changes that the operations are made of, as functions, with what each of them does to
the control blocks.
-/

namespace RoundRobin.Scheduler

variable {s : Scheduler} {b : Nat}

/-- The control block in `b` changed by `f`. -/
def alter (s : Scheduler) (b : Nat) (f : Thread → Thread) : Scheduler :=
  { s with threads := s.threads.modify b f }

/-- The thread in `b` given a status. -/
def mark (s : Scheduler) (b : Nat) (status : Status) : Scheduler :=
  s.alter b fun c => { c with status }

/-- `b` appended to the ready queue. -/
def enqueue (s : Scheduler) (b : Nat) : Scheduler :=
  { s with
    ready := s.ready.append b
    threads := s.threads.modify b (Thread.claimedBy s.ready.kind) }

/-- The head of the ready queue taken off, if there is one. -/
def dequeue (s : Scheduler) : Scheduler :=
  match s.ready.members with
  | [] => s
  | b :: _ => { s with ready := s.ready.behead, threads := s.threads.modify b Thread.released }

/-- `b` made ready and appended to the ready queue. -/
def makeReady (s : Scheduler) (b : Nat) : Scheduler :=
  (s.enqueue b).mark b .ready

/-- `b` appended to the destruction queue. -/
def bury (s : Scheduler) (b : Nat) : Scheduler :=
  { s with
    destruction := s.destruction.append b
    threads := s.threads.modify b (Thread.claimedBy s.destruction.kind) }

/-- The head of the destruction queue, `b`, taken off. -/
def exhume (s : Scheduler) (b : Nat) : Scheduler :=
  { s with
    destruction := s.destruction.behead
    threads := s.threads.modify b Thread.released }

/-- The head of the destruction queue, `b`, taken off, and its block given back to the pool, which
is `pool` after that. -/
def reap (s : Scheduler) (b : Nat) (pool : Pool) : Scheduler :=
  { s.exhume b with pool }

/-- `b` put to the sleepers behind all that wake at `wake` or before. -/
def shelve (s : Scheduler) (b wake : Nat) : Scheduler :=
  { s with
    sleepers := ⟨s.sleepers.queue.insertBehind (fun m => (s.threads.get m).wake ≤ wake) b⟩
    threads := s.threads.modify b (Thread.claimedBy s.sleepers.queue.kind) }

/-- The first sleeper, `b`, taken off. -/
def unshelve (s : Scheduler) (b : Nat) : Scheduler :=
  { s with
    sleepers := ⟨s.sleepers.queue.behead⟩
    threads := s.threads.modify b Thread.released }

/-- One thread identifier taken. -/
def tookTid (s : Scheduler) : Scheduler :=
  { s with nextTid := s.nextTid + 1 }

/-- The code that runs in `b` made a thread with the control block `c` and adopted as the boot
thread. -/
def adopt (s : Scheduler) (b : Nat) (c : Thread) : Scheduler :=
  { (s.alter b fun _ => c).tookTid.alter b fun t => { t with tid := s.nextTid, status := .running }
    with initial := some b }

/-- The thread in `b` made the idle thread. -/
def appoint (s : Scheduler) (b : Nat) : Scheduler :=
  { s with idle := some b }

/-- A block handed out: `pool` and `threads` after that. -/
def allot (s : Scheduler) (b : Nat) (pool : Pool) (threads : Memory Thread) : Scheduler :=
  { s with pool, threads }.severLinks b

/-- The thread in `b` given the control block `c`, an identifier and the registers `context`. -/
def enlist (s : Scheduler) (b : Nat) (c : Thread) (context : Context) : Scheduler :=
  (s.alter b fun _ => c).tookTid.alter b fun t => { t with tid := s.nextTid, context }

/-- A new time slice begun. -/
def freshSlice (s : Scheduler) : Scheduler :=
  { s with sliceTicks := 0 }

/-- The head of the ready queue taken off and `n` made the running thread with a fresh slice. -/
def elect (s : Scheduler) (n : Nat) : Scheduler :=
  (s.dequeue.mark n .running).freshSlice

/-- `r` put to the destruction queue if it exited and its block is the pool's. -/
def park (s : Scheduler) (r : Nat) : Scheduler :=
  if (s.threads.get r).status = .dying ∧ s.initial ≠ some r then s.bury r else s

/-- The tick counts after a tick of the thread in `r`. -/
def charged (s : Scheduler) (r : Nat) : TickStats :=
  if s.idle = some r then { s.stats with idle := s.stats.idle + 1 }
  else if (s.threads.get r).isUser then { s.stats with user := s.stats.user + 1 }
  else { s.stats with kernel := s.stats.kernel + 1 }

/-- The count that a tick of the thread in `r` goes to. -/
def tally (s : Scheduler) (r : Nat) : Nat :=
  if s.idle = some r then s.stats.idle
  else if (s.threads.get r).isUser then s.stats.user
  else s.stats.kernel

/-- The tick counts set. -/
def withStats (s : Scheduler) (stats : TickStats) : Scheduler :=
  { s with stats }

/-- The length of the time slice so far set. -/
def withSlice (s : Scheduler) (sliceTicks : Nat) : Scheduler :=
  { s with sliceTicks }

/-- A tick charged to the thread in `r` and to its slice. -/
def charge (s : Scheduler) (r : Nat) : Scheduler :=
  (s.withStats (s.charged r)).withSlice (s.sliceTicks + 1)

/-- One more timer interrupt counted. -/
def advance (s : Scheduler) : Scheduler :=
  { s with ticks := s.ticks + 1 }

/-- The thread in `r` put to sleep until `wake`. -/
def putToSleep (s : Scheduler) (r wake : Nat) : Scheduler :=
  (s.alter r fun c => { c with wakeTick := some wake }).shelve r wake

/-- The first sleeper, `b`, woken: taken off the sleep queue and made ready. -/
def rouse (s : Scheduler) (b : Nat) : Scheduler :=
  ((s.unshelve b).alter b fun c => { c with wakeTick := none }).makeReady b

/-- The stack pointer of the thread in `r` saved. -/
def saveStack (s : Scheduler) (r sp : Nat) : Scheduler :=
  s.alter r fun c => { c with context.sp := sp }

@[simp] theorem get_alter (s : Scheduler) (b c : Nat) (f : Thread → Thread) :
    (s.alter b f).threads.get c = if b = c then f (s.threads.get b) else s.threads.get c :=
  Memory.get_modify s.threads b c f

@[simp] theorem threads_tookTid (s : Scheduler) : s.tookTid.threads = s.threads := rfl

theorem get_enlist (s : Scheduler) (b : Nat) (t : Thread) (context : Context) (c : Nat) :
    (s.enlist b t context).threads.get c =
      if b = c then { t with tid := s.nextTid, context } else s.threads.get c := by
  simp only [enlist, get_alter, threads_tookTid, if_true]
  split <;> rfl

theorem get_adopt (s : Scheduler) (b : Nat) (t : Thread) (c : Nat) :
    (s.adopt b t).threads.get c =
      if b = c then { t with tid := s.nextTid, status := .running } else s.threads.get c := by
  simp only [adopt, get_alter, threads_tookTid, if_true]
  split <;> rfl

theorem get_mark (s : Scheduler) (b c : Nat) (status : Status) :
    (s.mark b status).threads.get c =
      if b = c then { s.threads.get b with status } else s.threads.get c :=
  get_alter s b c _

theorem get_enqueue (s : Scheduler) (b c : Nat) :
    (s.enqueue b).threads.get c =
      if b = c then (s.threads.get b).claimedBy s.ready.kind else s.threads.get c :=
  Memory.get_modify s.threads b c _

theorem get_makeReady (s : Scheduler) (b c : Nat) :
    (s.makeReady b).threads.get c =
      if b = c then { (s.threads.get b).claimedBy s.ready.kind with status := .ready }
      else s.threads.get c := by
  rw [makeReady, get_mark, get_enqueue, get_enqueue, if_pos rfl]
  split <;> rfl

theorem get_bury (s : Scheduler) (b c : Nat) :
    (s.bury b).threads.get c =
      if b = c then (s.threads.get b).claimedBy s.destruction.kind else s.threads.get c :=
  Memory.get_modify s.threads b c _

theorem get_exhume (s : Scheduler) (b c : Nat) :
    (s.exhume b).threads.get c = if b = c then (s.threads.get b).released else s.threads.get c :=
  Memory.get_modify s.threads b c _

theorem get_shelve (s : Scheduler) (b wake c : Nat) :
    (s.shelve b wake).threads.get c =
      if b = c then (s.threads.get b).claimedBy s.sleepers.queue.kind else s.threads.get c :=
  Memory.get_modify s.threads b c _

theorem get_unshelve (s : Scheduler) (b c : Nat) :
    (s.unshelve b).threads.get c =
      if b = c then (s.threads.get b).released else s.threads.get c :=
  Memory.get_modify s.threads b c _

theorem get_rouse (s : Scheduler) (b c : Nat) :
    (s.rouse b).threads.get c =
      if b = c then
        { s.threads.get b with
          owner := s.ready.kind, linked := true, wakeTick := none, status := .ready }
      else s.threads.get c := by
  rw [rouse, get_makeReady, get_alter, get_alter, get_unshelve, get_unshelve, if_pos rfl, if_pos rfl]
  split <;> rfl

theorem get_putToSleep (s : Scheduler) (r wake c : Nat) :
    (s.putToSleep r wake).threads.get c =
      if r = c then
        { s.threads.get r with
          owner := s.sleepers.queue.kind, linked := true, wakeTick := some wake }
      else s.threads.get c := by
  rw [putToSleep, get_shelve, get_alter, get_alter, if_pos rfl]
  split <;> rfl

theorem get_dequeue_of_cons {rest : List Nat} (h : s.ready.members = b :: rest) (c : Nat) :
    s.dequeue.threads.get c = if b = c then (s.threads.get b).released else s.threads.get c := by
  rw [dequeue, h]
  exact Memory.get_modify s.threads b c _

theorem dequeue_of_nil (h : s.ready.members = []) : s.dequeue = s := by
  rw [dequeue, h]

/-- Taking the head off the ready queue touches nothing but the owner and the link. -/
theorem get_dequeue (s : Scheduler) (c : Nat) :
    s.dequeue.threads.get c = s.threads.get c ∨
      s.dequeue.threads.get c = (s.threads.get c).released := by
  cases h : s.ready.members with
  | nil => exact Or.inl (by rw [dequeue_of_nil h])
  | cons b rest =>
      rw [get_dequeue_of_cons h]
      split
      · next heq => exact Or.inr (by rw [heq])
      · exact Or.inl rfl

@[simp] theorem status_dequeue (s : Scheduler) (c : Nat) :
    (s.dequeue.threads.get c).status = (s.threads.get c).status := by
  rcases s.get_dequeue c with h | h <;> rw [h]
  rfl

@[simp] theorem isValid_dequeue (s : Scheduler) (c : Nat) :
    (s.dequeue.threads.get c).IsValid ↔ (s.threads.get c).IsValid := by
  rcases s.get_dequeue c with h | h <;> rw [h]
  rfl

theorem elect_def (s : Scheduler) (n : Nat) :
    s.elect n = (s.dequeue.mark n .running).freshSlice := rfl

theorem dequeue_frame (s : Scheduler) :
    s.dequeue = { s with ready := s.dequeue.ready, threads := s.dequeue.threads } := by
  unfold dequeue
  split <;> rfl

@[simp] theorem initial_elect (s : Scheduler) (n : Nat) : (s.elect n).initial = s.initial := by
  rw [elect_def, dequeue_frame]
  rfl

theorem status_elect_of_ne {n : Nat} (h : n ≠ b) :
    ((s.elect n).threads.get b).status = (s.threads.get b).status := by
  change ((s.dequeue.mark n .running).threads.get b).status = _
  rw [get_mark, if_neg h, status_dequeue]

end RoundRobin.Scheduler
