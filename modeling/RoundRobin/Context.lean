/-!
# Saved registers

The execution state of a thread that is not running, and the bits of the status words that the
scheduler and the board read.
-/

namespace RoundRobin

/-- Saved registers of a thread. -/
structure Context where
  /-- The general registers `r0` to `r12`. -/
  general : Vector Nat 13 := Vector.replicate 13 0
  /-- Stack pointer. -/
  sp : Nat := 0
  /-- Link register. -/
  lr : Nat := 0
  /-- Where the thread resumes. -/
  pc : Nat := 0
  /-- Program status word. -/
  xpsr : Nat := 0
  /-- Privilege and stack selection. -/
  control : Nat := 0
  deriving DecidableEq, Repr, Inhabited

namespace Context

/-- The bit of `control` that makes thread mode unprivileged. -/
abbrev unprivileged : Nat := 1

/-- The bit of `control` that selects the process stack in thread mode. -/
abbrev processStack : Nat := 2

/-- The Thumb state bit of the program status word, set in every valid state. -/
abbrev thumb : Nat := 0x01000000

/-- Status bits that only an exception return restores: the condition of an unfinished
conditional block, and where an interrupted multi-register transfer goes on. -/
abbrev inFlight : Nat := 0x0600fc00

/-- All registers zero but the two arguments, the stack pointer and the entry point. -/
def entering (entry arg0 arg1 top : Nat) : Context :=
  { general := (Vector.replicate 13 0).set 0 arg0 |>.set 1 arg1
    sp := top
    pc := entry }

/-- The register of the first argument. -/
def arg0 (c : Context) : Nat :=
  c.general.get ⟨0, by decide⟩

/-- The register of the second argument. -/
def arg1 (c : Context) : Nat :=
  c.general.get ⟨1, by decide⟩

/-- Whether code interrupted with the status word `xpsr` can be resumed by a plain branch. -/
def resumable (xpsr : Nat) : Bool :=
  xpsr &&& inFlight == 0

/-- Whether the thread runs unprivileged. -/
def isUser (c : Context) : Bool :=
  c.control &&& unprivileged != 0

end Context

end RoundRobin
