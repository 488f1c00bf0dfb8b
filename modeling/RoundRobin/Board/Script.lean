import RoundRobin.Board.Run

/-!
# Scripts

Programs whose threads work through lists of kernel calls. Each answer is noted together with the
identifier of the thread that got it. Threads can name each other while they are in the middle of
their scripts.
-/

namespace RoundRobin.Script

/-- An operation of a script. -/
inductive Call where
  /-- Create a thread that runs the script with the given number. -/
  | create (name : String) (priority script : Nat)
  | yieldNow
  | block
  | unblock (tid : Nat)
  | exit
  | current
  | tid
  | name
  | priority
  | setPriority (priority : Nat)
  | sleep (n : Nat)
  | msleep (n : Nat)
  | usleep (n : Nat)
  | nsleep (n : Nat)
  | ticks
  | elapsed (start : Nat)
  | printStats
  /-- Read the tick counter `n` times, at most `spinLimit`. -/
  | spin (n : Nat)
  | disable
  | enable
  | level
  /-- An operation that could not be read. -/
  | unreadable

/-- An operation and the label under which its answer is noted. -/
structure Line where
  label : String
  call : Call

/-- Where the threads of a script are entered, with the number of the script. -/
abbrev entry : Nat := 0x08000600

/-- Do `act` and answer nothing. -/
def quietly (act : Code Unit) : Code Answer := do
  act
  return .nothing

/-- A spin reads the tick counter no more often than this. -/
abbrev spinLimit : Nat := 500

/-- Read the tick counter `n` times and give the last reading. -/
def spin : Nat → Nat → Code Nat
  | 0, last => return last
  | n + 1, _ => do
    spin n (← Kernel.ticks)

/-- Forget the thread `tid` as one in the middle of its script. -/
def leave (tid : Nat) : Code Unit :=
  Code.update fun b => { b with scripted := b.scripted.filter (·.1 ≠ tid) }

/-- Note that the calling thread begins its script, and give its identifier; zero without a
kernel. -/
def enter : Code Nat :=
  .read fun b =>
    match b.kernel, Block.containing b.psp with
    | some s, .ok block =>
      let tid := (s.threads.get block).tid
      .write { b with scripted := (tid, block) :: b.scripted } (.done tid)
    | _, _ => .done 0

/-- The block of the thread `tid`, if that is in the middle of its script. -/
def find? (tid : Nat) : Code (Option Nat) :=
  .read fun b => .done (b.scripted.lookup tid)

/-- Carry out an operation for the thread `caller`. -/
def perform (caller : Nat) : Call → Code Answer
  | .create name priority script => do
    match ← Kernel.create name priority entry script with
    | .ok tid => return .number tid
    | .error e => return .refused e
  | .yieldNow => quietly Kernel.yieldNow
  | .block => quietly Kernel.block
  | .unblock tid => do
    match ← find? tid with
    | none => return .noThread
    | some block => quietly (Kernel.unblock block)
  | .exit => do
    leave caller
    Kernel.exit
  | .current => return .text (← Kernel.currentThread).describe
  | .tid => return .number (← Kernel.currentThread).tid
  | .name => return .text (← Kernel.currentThread).name
  | .priority => return .number (← Kernel.currentThread).priority
  | .setPriority priority => quietly (Kernel.setPriority priority)
  | .sleep n => quietly (Kernel.sleep n)
  | .msleep n => quietly (Kernel.msleep n)
  | .usleep n => quietly (Kernel.usleep n)
  | .nsleep n => quietly (Kernel.nsleep n)
  | .ticks => return .number (← Kernel.ticks)
  | .elapsed start => return .number (← Kernel.elapsed start)
  | .printStats => quietly Kernel.printStats
  | .spin n => return .number (← spin (min n spinLimit) 0)
  | .disable => return .level (← Port.disable)
  | .enable => quietly Port.enable
  | .level => return .level (← Port.level)
  | .unreadable => return .unreadable

/-- Carry out the lines of a script and note the answers. -/
def lines (caller : Nat) : List Line → Code Unit
  | [] => return
  | line :: rest => do
    let answer ← perform caller line.call
    Code.update fun b => b.note (.call caller line.label answer)
    lines caller rest

/-- A whole script, from the first line to the return. -/
def code (script : List Line) : Code Unit := do
  let caller ← enter
  lines caller script
  leave caller

/-- What a thread of a program of scripts does. -/
def body (scripts : List (List Line)) (address arg : Nat) : Code Unit :=
  if address = entry then code (scripts.getD arg []) else Kernel.idle

/-- The program whose main code is the script `main`, after a boot if `boots`, and whose threads
run `scripts`. -/
def program (boots : Bool) (main : List Line) (scripts : List (List Line)) : Program :=
  let longest := (main :: scripts).foldl (fun n script => max n script.length) 0
  { main := if boots then Kernel.boot (code main) else code main
    body := body scripts
    burst := 16 * (longest + 4) }

end RoundRobin.Script
