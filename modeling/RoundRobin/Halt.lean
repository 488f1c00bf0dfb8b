import RoundRobin.Thread.Status

/-!
# Halts

A broken rule stops the system. `Halt` lists the causes, `Halt.message` words each of them, and
`require` is the check that everything else is guarded by. Threads are named in it by identifier
or by the address of the block that holds them.
-/

namespace RoundRobin

/-- Why the system stopped. -/
inductive Halt where
  | addOverflow
  | subtractOverflow
  | multiplyOverflow
  | divisionByZero
  | outsideBlocks (sp : Nat)
  | priorityOutOfRange (priority : Nat)
  | notFromPool (block : Nat)
  | doubleFree (block : Nat)
  | claimedWhileOwned (tid : Nat) (queue owner : Owner)
  | releasedUnowned (tid : Nat) (queue owner : Owner)
  | alreadyLinked
  | noWakeTick (tid : Nat)
  | calibrationOverflow
  | tickScriptExhausted
  | initUnmasked
  | initialisedTwice
  | corrupted (block : Nat)
  | notRunning (tid : Nat)
  | blockInInterrupt
  | blockUnmasked
  | unblockCorrupted (block : Nat)
  | notBlocked (tid : Nat)
  | exitInInterrupt
  | dyingResumed
  | yieldInInterrupt
  | doScheduleUnmasked
  | reclaimingOwnBlock (tid : Nat)
  | nothingToRun
  | scheduleUnmasked
  | stillRunning (tid : Nat)
  | nextCorrupted (block : Nat)
  | sleepInInterrupt
  | sleepUntilUnmasked
  | idleSleep
  | sleepMasked
  | switchUnmasked
  | neverEntered
  | usedBeforeBoot
  | calibrationMasked
  | idleNotCreated
  deriving DecidableEq, Repr

namespace Halt

/-- Whether the cause is a failed arithmetic operation rather than a failed check. -/
def isArithmetic : Halt → Bool
  | addOverflow | subtractOverflow | multiplyOverflow | divisionByZero => true
  | _ => false

/-- An address in base sixteen: `0x`, then lower-case digits without padding. -/
def hexText (a : Nat) : String :=
  "0x" ++ String.ofList (Nat.toDigits 16 a)

/-- The wording of a cause. `label` gives the text that stands for a block's address. -/
def message (label : Nat → String) : Halt → String
  | addOverflow => "attempt to add with overflow"
  | subtractOverflow => "attempt to subtract with overflow"
  | multiplyOverflow => "attempt to multiply with overflow"
  | divisionByZero => "attempt to divide by zero"
  | outsideBlocks sp => "stack pointer " ++ hexText sp ++ " outside any thread block"
  | priorityOutOfRange priority => s!"priority {priority} out of range"
  | notFromPool block => "block " ++ label block ++ " not from this pool"
  | doubleFree block => "double free of thread block " ++ label block
  | claimedWhileOwned tid queue owner =>
    s!"thread {tid} pushed onto {queue.name} queue while on {owner.name} queue"
  | releasedUnowned tid queue owner =>
    s!"thread {tid} popped from {queue.name} queue but tagged {owner.name}"
  | alreadyLinked => "attempted to insert an object that is already linked"
  | noWakeTick tid => s!"thread {tid} queued to sleep without a wake tick"
  | calibrationOverflow => "loops_per_tick overflowed during calibration"
  | tickScriptExhausted => "tick script exhausted"
  | initUnmasked => "scheduler init with interrupts enabled"
  | initialisedTwice => "scheduler initialised twice"
  | corrupted block =>
    "thread control block at " ++ label block ++ " corrupted, stack overflow?"
  | notRunning tid => s!"current thread {tid} is not running"
  | blockInInterrupt => "block() in interrupt context"
  | blockUnmasked => "block() with interrupts enabled"
  | unblockCorrupted block => "unblock of corrupted thread at " ++ label block
  | notBlocked tid => s!"thread {tid} is not blocked"
  | exitInInterrupt => "exit() in interrupt context"
  | dyingResumed => "internal error: entered unreachable code: dying thread resumed"
  | yieldInInterrupt => "yield in interrupt context"
  | doScheduleUnmasked => "do_schedule with interrupts enabled"
  | reclaimingOwnBlock tid => s!"thread {tid} reclaiming its own block"
  | nothingToRun => "nothing to run and no idle thread"
  | scheduleUnmasked => "schedule with interrupts enabled"
  | stillRunning tid => s!"thread {tid} still running at schedule"
  | nextCorrupted block => "next thread at " ++ label block ++ " corrupted"
  | sleepInInterrupt => "sleep in interrupt context"
  | sleepUntilUnmasked => "sleep_until with interrupts enabled"
  | idleSleep => "idle thread cannot sleep"
  | sleepMasked => "sleep with interrupts disabled"
  | switchUnmasked => "switch with interrupts on"
  | neverEntered =>
    "internal error: entered unreachable code: simulated threads are never entered"
  | usedBeforeBoot => "kernel used before boot"
  | calibrationMasked => "calibration needs the timer interrupt"
  | idleNotCreated => "cannot create idle thread: out of memory for thread block"

end Halt

/-- Stop for `cause`. -/
def halt {m : Type → Type} [MonadLiftT (Except Halt) m] {α : Type} (cause : Halt) : m α :=
  liftM (Except.error cause : Except Halt α)

/-- A computation with state halts in the state it has. -/
instance {σ : Type} : MonadLift (Except Halt) (EStateM Halt σ) where
  monadLift
    | .ok a => fun s => .ok a s
    | .error cause => fun s => .error cause s

/-- Go on only if `p` holds. -/
def require (p : Prop) [Decidable p] (cause : Halt) : Except Halt Unit :=
  if p then .ok () else .error cause

theorem require_eq_ok_iff {p : Prop} [Decidable p] {cause : Halt} {u : Unit} :
    require p cause = .ok u ↔ p := by
  by_cases hp : p <;> simp [require, hp]

/-- A computation that can halt returns if its first part does and then the rest does. -/
theorem Except.bind_eq_ok_iff {α β : Type} {x : Except Halt α} {f : α → Except Halt β} {b : β} :
    (x >>= f) = .ok b ↔ ∃ a, x = .ok a ∧ f a = .ok b := by
  cases x <;> simp [bind, Except.bind]

theorem Except.pure_eq_ok_iff {α : Type} {a b : α} :
    (pure a : Except Halt α) = .ok b ↔ b = a := by
  simp [pure, Except.pure, eq_comm]

/-- A thread could not be created. Unlike a halt, this is an answer to the caller. -/
inductive SpawnError where
  /-- The pool had no block left. -/
  | outOfMemory
  deriving DecidableEq, Repr

/-- The wording of a failed creation. -/
def SpawnError.message : SpawnError → String
  | outOfMemory => "out of memory for thread block"

end RoundRobin
