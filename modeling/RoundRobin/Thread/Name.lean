import RoundRobin.Config

/-!
# Stored names

A thread's name is kept in UTF-8, in a buffer of `Config.nameLength` bytes that always ends in a
zero byte. `NameBuffer.encode` cuts a name that is too long before the character that does not fit,
which it finds from its last byte backwards, and `NameBuffer.decode` reads up to the first zero
byte.
-/

namespace RoundRobin

/-- A name as it lies in a control block. -/
structure NameBuffer where
  /-- The bytes of the buffer. -/
  bytes : List UInt8
  length_eq : bytes.length = Config.nameLength
  deriving DecidableEq

namespace NameBuffer

/-- The bytes of a text. -/
def utf8 (text : List Char) : List UInt8 :=
  text.flatMap String.utf8EncodeChar

/-- Whether a byte goes on with a character: its two highest bits are `10`. -/
def isContinuation (b : UInt8) : Bool :=
  b.toNat / 64 == 2

/-- Whether a character begins at the byte `i`, or the text ends there. -/
def isBoundary (bytes : List UInt8) (i : Nat) : Bool :=
  i == 0 || i == bytes.length || bytes[i]?.any (!isContinuation ·)

/-- The last boundary not after the byte `i`. Nothing if the search would step back from the first
byte. -/
def boundary? (bytes : List UInt8) : Nat → Option Nat
  | 0 => if isBoundary bytes 0 then some 0 else none
  | i + 1 => if isBoundary bytes (i + 1) then some (i + 1) else boundary? bytes i

/-- The search does not step back from the first byte. -/
theorem isSome_boundary? (bytes : List UInt8) (i : Nat) : (boundary? bytes i).isSome := by
  induction i with
  | zero => simp [boundary?, isBoundary]
  | succ i ih =>
    rw [boundary?]
    split
    · rfl
    · exact ih

/-- Extend `bytes` with zeros, or cut it, to `n` bytes. -/
def pad (n : Nat) (bytes : List UInt8) : List UInt8 :=
  bytes.take n ++ List.replicate (n - bytes.length) 0

theorem length_pad (n : Nat) (bytes : List UInt8) : (pad n bytes).length = n := by
  simp [pad]
  omega

/-- A buffer of zero bytes: the empty name. -/
def blank : NameBuffer :=
  ⟨List.replicate Config.nameLength 0, by simp⟩

/-- Where the bytes of a name are cut: at their end, or at the last boundary that leaves a zero
byte. -/
def cut (bytes : List UInt8) : Nat :=
  (boundary? bytes (min bytes.length (Config.nameLength - 1))).get (isSome_boundary? _ _)

/-- Store `name`, cut between two characters so that a zero byte stays at the end. -/
def encode (name : String) : NameBuffer :=
  let bytes := utf8 name.toList
  ⟨pad Config.nameLength (bytes.take (cut bytes)), length_pad _ _⟩

/-- The text up to the first zero byte, if it is one. -/
def text? (b : NameBuffer) : Option String :=
  String.fromUTF8? ⟨(b.bytes.takeWhile (· ≠ 0)).toArray⟩

/-- Read a name back. Bytes that are no text read as a question mark. -/
def decode (b : NameBuffer) : String :=
  b.text?.getD "?"

end NameBuffer

end RoundRobin
