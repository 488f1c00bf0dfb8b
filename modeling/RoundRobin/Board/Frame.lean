import RoundRobin.Context
import RoundRobin.Memory
import RoundRobin.Word

/-!
# Preemption frames

On a yield request the handler redirects the interrupted thread: it plants a second exception
frame under the interrupted one, so that the return from the handler lands in code that yields and
then unwinds to the interrupted frame. Code that cannot be resumed by a plain branch is left
alone.

The main small statements say that a frame reads back as it was stored (`Frame.load_store`), and
that a store changes no word outside of the frame (`Frame.get_store`).
-/

namespace RoundRobin

/-- A word of zeroed memory. -/
instance : Zeroed Nat where
  zeroed := 0

/-- Write words one after another from the address `a` up. -/
def Memory.fill (mem : Memory Nat) (a : Nat) : List Nat → Memory Nat
  | [] => mem
  | word :: rest => (mem.set a word).fill (a + 4) rest

theorem Memory.get_fill_of_outside {mem : Memory Nat} {words : List Nat} {a b : Nat}
    (h : b < a ∨ a + 4 * words.length ≤ b) : (mem.fill a words).get b = mem.get b := by
  induction words generalizing mem a with
  | nil => rfl
  | cons word rest ih =>
    rw [List.length_cons] at h
    rw [Memory.fill, ih (by omega), Memory.get_set, if_neg (by omega)]

/-- The registers in an exception frame. -/
structure Frame where
  r0 : Nat := 0
  r1 : Nat := 0
  r2 : Nat := 0
  r3 : Nat := 0
  r12 : Nat := 0
  lr : Nat := 0
  pc : Nat
  xpsr : Nat
  deriving DecidableEq, Repr

namespace Frame

/-- Bytes of a frame. -/
abbrev size : Nat := 32

/-- The status bit of a frame above which the hardware left one word free to align it. -/
abbrev padded : Nat := 0x200

/-- Entry point of the code that yields and then resumes the interrupted code. As in every function
pointer the lowest bit is set. -/
abbrev landing : Nat := 0x08000701

/-- All registers of the frame but the program counter and the status are zero. -/
def isBlank (f : Frame) : Bool :=
  [f.r0, f.r1, f.r2, f.r3, f.r12, f.lr].all (· == 0)

/-- The words of a frame, lowest first. -/
def words (f : Frame) : List Nat :=
  [f.r0, f.r1, f.r2, f.r3, f.r12, f.lr, f.pc, f.xpsr]

/-- The frame at `a`. -/
def load (mem : Memory Nat) (a : Nat) : Frame :=
  { r0 := mem.get a, r1 := mem.get (a + 4), r2 := mem.get (a + 8), r3 := mem.get (a + 12)
    r12 := mem.get (a + 16), lr := mem.get (a + 20), pc := mem.get (a + 24)
    xpsr := mem.get (a + 28) }

/-- Write a frame to `a`. -/
def store (mem : Memory Nat) (a : Nat) (f : Frame) : Memory Nat :=
  mem.fill a f.words

theorem get_store {mem : Memory Nat} {a b : Nat} (f : Frame) (h : b < a ∨ a + size ≤ b) :
    (store mem a f).get b = mem.get b :=
  Memory.get_fill_of_outside h

@[simp] theorem load_store (mem : Memory Nat) (a : Nat) (f : Frame) :
    load (store mem a f) a = f := by
  simp [load, store, words, Memory.fill, Nat.add_assoc]

/-- A frame reads the same if its words do. -/
theorem load_congr {mem mem' : Memory Nat} {a : Nat}
    (h : ∀ b, a ≤ b → b < a + size → mem'.get b = mem.get b) : load mem' a = load mem a := by
  simp only [size] at h
  simp only [load]
  congr 1 <;> exact h _ (by omega) (by omega)

/-- Move the interrupted frame at `psp` over the word that was left free above it, if there is one,
so that it ends at the stack pointer of the interrupted code. Gives its new address. -/
def slide (psp : Nat) (mem : Memory Nat) : Except Halt (Nat × Memory Nat) := do
  let interrupted := load mem psp
  if interrupted.xpsr &&& padded = 0 then
    return (psp, mem)
  else
    let base ← Word.add Word.limit32 psp 4
    return (base, store mem base interrupted)

/-- Plant a frame that returns to `entry` under the one at `base`. Frames are aligned to eight
bytes; if that leaves a word free, the planted frame says so. Gives its address. -/
def plant (entry base : Nat) (mem : Memory Nat) : Except Halt (Nat × Memory Nat) := do
  let pc := entry / 2 * 2
  let below ← Word.sub base size
  if base % 8 = 0 then
    return (below, store mem below { pc, xpsr := Context.thumb })
  else
    let planted ← Word.sub below 4
    return (planted, store mem planted { pc, xpsr := Context.thumb ||| padded })

/-- Redirect the code whose frame is at `psp` to `entry`, unless it must not be redirected. Gives
the stack pointer to return from the handler with. -/
def inject (entry psp : Nat) (mem : Memory Nat) : Except Halt (Nat × Memory Nat) := do
  if Context.resumable (load mem psp).xpsr then
    let (base, mem) ← slide psp mem
    plant entry base mem
  else
    return (psp, mem)

end Frame

end RoundRobin
