import Koi.Png.Bytes

/-!
# Bits

Compressed data is a sequence of bits, the least significant bit of each byte first. More of the
sequence may come to hand later: only the bits in front of a stop can be read.

* `Bits`: a position in a sequence of bits.
* `BitReader`: a step that reads bits, and fails if there are too few or if they mean nothing.
* `BitReader.bit`, `BitReader.number`: the smallest such steps.
-/

namespace Koi.Png

/-- The bits of a sequence of bytes from a position to a stop. -/
structure Bits where
  bytes : ByteArray
  position : Nat
  stop : Nat

namespace Bits

/-- The number of bits that are left. -/
def remaining (b : Bits) : Nat := b.stop - b.position

/-- The bit that comes so many bits after the next one. Bits that are not there yet are zero. -/
def get (b : Bits) (i : Nat) : Nat :=
  let p := b.position + i
  if p < b.stop then ((byteAt b.bytes (p / 8)).toNat >>> (p % 8)) % 2 else 0

/-- The bits after some more. -/
def skip (b : Bits) (n : Nat) : Bits := { b with position := b.position + n }

/-- The bits from the next beginning of a byte on. -/
def align (b : Bits) : Bits := { b with position := (b.position + 7) / 8 * 8 }

end Bits

/-- Why bits cannot be read. -/
inductive Fault where
  /-- There are too few of them. -/
  | incomplete
  /-- They mean nothing. -/
  | invalid
  deriving DecidableEq, Repr

/-- A step that reads bits. -/
abbrev BitReader := StateT Bits (Except Fault)

namespace BitReader

/-- The next bit. -/
def bit : BitReader Nat := fun b =>
  if b.position < b.stop then .ok (b.get 0, b.skip 1) else .error .incomplete

/-- The number that the next `n` bits denote, the least significant bit first. -/
def number : (n : Nat) → BitReader Nat
  | 0 => pure 0
  | n + 1 => do
    let low ← bit
    let high ← number n
    return low + 2 * high

/-- Goes on only if there are so many bits. -/
def require (n : Nat) : BitReader Unit := fun b =>
  if b.remaining < n then .error .incomplete else .ok ((), b)

/-- Passes over so many bits. -/
def skip (n : Nat) : BitReader Unit := do
  require n
  modify fun b => b.skip n

/-- Goes on only if the bits so far mean something. -/
def check (valid : Bool) : BitReader Unit :=
  if valid then pure () else throw .invalid

/-- A value that the bits so far denote, if they mean something. -/
def ofOption {α : Type} : Option α → BitReader α
  | some a => pure a
  | none => throw .invalid

end BitReader

end Koi.Png
