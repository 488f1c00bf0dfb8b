import RoundRobin.Board

/-!
# Code on the board

What a thread does, as a tree: it reads and writes the state of the board, and it pauses where
something else may happen first. The pauses are windows, in which interrupts have just been
unmasked; waits for an interrupt; switches to another thread; and the rounds of endless loops,
which a tree cannot hold. `Code` is a processor for the scheduler, so all operations of the
scheduler run on the board as they are. `Code.direct` runs code while no exception is taken.
-/

namespace RoundRobin

/-- The loops that code can enter. -/
inductive Loop where
  /-- The idle thread. -/
  | idle
  /-- Read the tick counter until it no longer shows `first`. -/
  | awaitTick (first : Nat)
  /-- Sleep `period` ticks and report, for ever. -/
  | sleeper (period : Nat)
  /-- Print statistics once a second, for ever. -/
  | statistics
  deriving DecidableEq, Repr

/-- Code that ends with a value of type `α`. -/
inductive Code (α : Type) : Type where
  /-- The end. -/
  | done (a : α)
  /-- Stop the system. -/
  | stop (cause : Halt)
  /-- Look at the board. -/
  | read (next : Board → Code α)
  /-- Change the board. -/
  | write (b : Board) (next : Code α)
  /-- Interrupts have just been unmasked outside a handler. -/
  | window (next : Code α)
  /-- Wait for an interrupt. -/
  | wait (next : Code α)
  /-- Go on as the thread in the block `target`; the thread in `source` goes on with `next`. -/
  | switch (source target : Nat) (next : Code α)
  /-- Do rounds of a loop while they ask for more. -/
  | loop (l : Loop) (next : Code α)

namespace Code

variable {α β : Type}

/-- Go on with the value at the end. -/
def bind : Code α → (α → Code β) → Code β
  | done a, f => f a
  | stop cause, _ => stop cause
  | read next, f => read fun b => (next b).bind f
  | write b next, f => write b (next.bind f)
  | window next, f => window (next.bind f)
  | wait next, f => wait (next.bind f)
  | switch source target next, f => switch source target (next.bind f)
  | loop l next, f => loop l (next.bind f)

instance : Monad Code where
  pure := done
  bind := bind

instance : MonadLift (Except Halt) Code where
  monadLift
    | .ok a => done a
    | .error cause => stop cause

theorem bind_done (x : Code α) : x.bind done = x := by
  induction x with
  | done a => rfl
  | stop cause => rfl
  | read next ih => exact congrArg read (funext ih)
  | write b next ih => exact congrArg (write b) ih
  | window next ih => exact congrArg window ih
  | wait next ih => exact congrArg wait ih
  | switch source target next ih => exact congrArg (switch source target) ih
  | loop l next ih => exact congrArg (loop l) ih

theorem bind_assoc {γ : Type} (x : Code α) (f : α → Code β) (g : β → Code γ) :
    (x.bind f).bind g = x.bind fun a => (f a).bind g := by
  induction x with
  | done a => rfl
  | stop cause => rfl
  | read next ih => exact congrArg read (funext ih)
  | write b next ih => exact congrArg (write b) ih
  | window next ih => exact congrArg window ih
  | wait next ih => exact congrArg wait ih
  | switch source target next ih => exact congrArg (switch source target) ih
  | loop l next ih => exact congrArg (loop l) ih

instance : LawfulMonad Code :=
  LawfulMonad.mk' Code bind_done (fun _ _ => rfl) bind_assoc

/-- Change the board. -/
def update (f : Board → Board) : Code Unit :=
  read fun b => write (f b) (done ())

/-- Unmask interrupts. Outside handlers that opens a window. -/
def unmask : Code Unit :=
  read fun b =>
    write { b with masked := false } (if b.exception = 0 then window (done ()) else done ())

/-- The kernel's scheduler, which must have been built. -/
instance : MonadStateOf Scheduler Code where
  get := read fun b =>
    match b.kernel with
    | none => stop .usedBeforeBoot
    | some s => done s
  set s := update fun b => { b with kernel := some s }
  modifyGet f := read fun b =>
    match b.kernel with
    | none => stop .usedBeforeBoot
    | some s =>
      let (a, s) := f s
      write { b with kernel := some s } (done a)

instance : Port Code where
  level := read fun b => done b.level
  disable := read fun b => write { b with masked := true } (done b.level)
  enable := unmask
  inInterrupt := read fun b => done (b.exception != 0)
  requestYield := update fun b => { b with yieldPending := true }
  stackPointer := read fun b => done b.psp
  waitForInterrupt := wait unmask
  freshContext entry arg0 arg1 top :=
    done { Context.entering (entry ||| 1) arg0 arg1 (top / 8 * 8) with
      xpsr := Context.thumb
      control := Context.processStack }
  switchContext source target := switch source target (done ())
  log r := read fun b =>
    let written := if b.isTraced then b.note (.record (Board.recordText r)) else b
    write { written with masked := true } (if b.masked then done () else unmask)

/-- Run code while no exception is taken, so that nothing happens at its pauses. -/
def direct : Code α → EStateM Halt Board α
  | done a => fun b => .ok a b
  | stop cause => fun b => .error cause b
  | read next => fun b => (next b).direct b
  | write b next => fun _ => next.direct b
  | window next => next.direct
  | wait next => fun b => next.direct { b with waits := b.waits + 1 }
  | switch _ _ next => next.direct
  | loop _ next => next.direct

/-- Run code to its end or its first pause. -/
def advance : Code α → Board → Code α × Board
  | read next, b => (next b).advance b
  | write b next, _ => next.advance b
  | paused, b => (paused, b)

end Code

end RoundRobin
