import RoundRobin.Queue.Sleep

/-!
# Queue sessions

Queues of both disciplines over one set of threads, used through a list of requests. Threads are
named by identifier, from one, and queues by position, from zero. A halt ends the session.
-/

namespace RoundRobin.Queue

/-- A queue in arrival order or by wake tick. -/
inductive Discipline where
  | plain (q : Queue)
  | sleep (q : SleepQueue)

/-- The queue behind either discipline. -/
def Discipline.queue : Discipline → Queue
  | plain q => q
  | sleep q => q.queue

/-- A use of a queue, or a write to a control block past the queues. -/
inductive Request where
  | push (queue tid : Nat)
  | pop (queue : Nat)
  | front (queue : Nat)
  | insert (queue tid : Nat)
  | popDue (queue now : Nat)
  | nextWakeup (queue : Nat)
  | setWake (tid : Nat) (tick : Option Nat)
  | setOwner (tid : Nat) (owner : Owner)
  /-- A request that could not be read. -/
  | unreadable

/-- The answer to a request. -/
inductive Reply where
  | nothing
  /-- A thread, by identifier, or none. -/
  | thread (tid : Option Nat)
  /-- A tick, or none. -/
  | tick (n : Option Nat)
  | unreadable
  | halted (cause : Halt)

/-- Queues in use and the threads they hold. -/
structure Session where
  /-- Number of threads. -/
  size : Nat
  threads : Memory Thread
  queues : List Discipline

namespace Session

/-- Where the control block of thread `tid` lies. -/
def address (tid : Nat) : Nat :=
  tid * Config.blockSize

/-- Threads with the given wake ticks, on no queue, and the given queues. -/
def new (wakes : List (Option Nat)) (queues : List Discipline) : Session :=
  { size := wakes.length
    threads := (wakes.zipIdx 1).foldl (fun mem (wakeTick, tid) =>
      mem.set (address tid) { (Zeroed.zeroed : Thread) with tid, wakeTick }) {}
    queues }

/-- Whether `tid` names a thread. -/
def holds (s : Session) (tid : Nat) : Bool :=
  1 ≤ tid && tid ≤ s.size

/-- The identifier of the thread at `a`. -/
def tidAt (s : Session) (a : Nat) : Nat :=
  (s.threads.get a).tid

/-- Store a queue and the threads after a use of it. -/
def update (s : Session) (i : Nat) (q : Discipline) (threads : Memory Thread) : Session :=
  { s with queues := s.queues.set i q, threads }

/-- Carry out a request. One that does not fit its queue, or names no thread, is not readable. -/
def perform (s : Session) (request : Request) : Except Halt (Reply × Session) :=
  match request with
  | .push i tid => do
    match s.queues[i]?, s.holds tid with
    | some (.plain q), true =>
      let (q, threads) ← q.push s.threads (address tid)
      return (.nothing, s.update i (.plain q) threads)
    | _, _ => return (.unreadable, s)
  | .pop i => do
    match s.queues[i]? with
    | some (.plain q) =>
      let (head, q, threads) ← q.pop s.threads
      return (.thread (head.map s.tidAt), s.update i (.plain q) threads)
    | _ => return (.unreadable, s)
  | .front i => do
    match s.queues[i]? with
    | some (.plain q) => return (.thread (q.front.map s.tidAt), s)
    | _ => return (.unreadable, s)
  | .insert i tid => do
    match s.queues[i]?, s.holds tid with
    | some (.sleep q), true =>
      let (q, threads) ← q.insert s.threads (address tid)
      return (.nothing, s.update i (.sleep q) threads)
    | _, _ => return (.unreadable, s)
  | .popDue i now => do
    match s.queues[i]? with
    | some (.sleep q) =>
      let (head, q, threads) ← q.popDue s.threads now
      return (.thread (head.map s.tidAt), s.update i (.sleep q) threads)
    | _ => return (.unreadable, s)
  | .nextWakeup i => do
    match s.queues[i]? with
    | some (.sleep q) => return (.tick (q.nextWakeup s.threads), s)
    | _ => return (.unreadable, s)
  | .setWake tid wakeTick =>
    if s.holds tid then
      let threads := s.threads.modify (address tid) fun t => { t with wakeTick }
      return (.nothing, { s with threads })
    else
      return (.unreadable, s)
  | .setOwner tid owner =>
    if s.holds tid then
      let threads := s.threads.modify (address tid) fun t => { t with owner }
      return (.nothing, { s with threads })
    else
      return (.unreadable, s)
  | .unreadable => return (.unreadable, s)

/-- The identifiers on a queue from head to tail. -/
def tidsOf (s : Session) (q : Queue) : List Nat :=
  q.members.map s.tidAt

/-- The owner of each thread. -/
def owners (s : Session) : List Owner :=
  (List.range' 1 s.size).map fun tid => (s.threads.get (address tid)).owner

/-- Carry out requests up to the first halt. Each answer comes with the session it left. -/
def run (s : Session) : List Request → List (Reply × Option Session)
  | [] => []
  | request :: rest =>
    match s.perform request with
    | .ok (reply, s) => (reply, some s) :: s.run rest
    | .error cause => [(.halted cause, none)]

end Session

end RoundRobin.Queue
