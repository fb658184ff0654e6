import Koi.Png.Block

/-!
# Expanding compressed data

Compressed data is expanded as far as the bits at hand and the room for the output go. More bits
may come later.

* `Inflation`: how far the work has come.
* `Inflation.step`: the next symbol, the beginning of a block, or some stored bytes.
* `Inflation.run`: steps as long as there are any.
* `Inflation.isClosed`: whether the data is over.
-/

namespace Koi.Png

/-- Where in a block the work is. -/
inductive Phase where
  /-- A block begins. -/
  | head
  /-- So many bytes of a block are still to be copied. -/
  | stored (last : Bool) (left : Nat)
  /-- Symbols follow. -/
  | coded (last : Bool) (codes : BlockCodes)
  | finished

/-- What comes after a block. -/
def Phase.after (last : Bool) : Phase := if last then .finished else .head

/-- How a block goes on after its beginning. -/
def Phase.ofBlock (last : Bool) : Block → Phase
  | .stored 0 => .after last
  | .stored left => .stored last left
  | .coded codes => .coded last codes

/-- How far the work has come. -/
structure Inflation where
  out : ByteArray := .empty
  phase : Phase := .head
  bits : Bits

namespace Inflation

/-- What a step comes to. -/
inductive Outcome where
  | next (state : Inflation)
  /-- More bits or more room are needed, or there is nothing left to do. -/
  | stuck (state : Inflation)
  /-- The bits mean nothing. -/
  | broken

/-- What comes of a fault. -/
def Outcome.ofFault (state : Inflation) : Fault → Outcome
  | .incomplete => .stuck state
  | .invalid => .broken

/-- Appends `length` bytes, each the one that stands `distance` places before the end. -/
def repeatBytes (distance : Nat) : (length : Nat) → ByteArray → ByteArray
  | 0, out => out
  | length + 1, out => repeatBytes distance length (out.push (byteAt out (out.size - distance)))

/-- Reads the beginning of a block. -/
def stepHead (out : ByteArray) (bits : Bits) : Outcome :=
  match Block.head.run bits with
  | .error fault => .ofFault ⟨out, .head, bits⟩ fault
  | .ok ((last, block), bits) => .next ⟨out, .ofBlock last block, bits⟩

/-- Copies as many stored bytes as possible. -/
def stepStored (limit : Nat) (out : ByteArray) (last : Bool) (left : Nat) (bits : Bits) :
    Outcome :=
  let n := min left (min (limit - out.size) (bits.remaining / 8))
  if n = 0 then .stuck ⟨out, .stored last left, bits⟩
  else
    let start := bits.position / 8
    let out := out ++ bits.bytes.extract start (start + n)
    .next ⟨out, .ofBlock last (.stored (left - n)), bits.skip (8 * n)⟩

/-- Reads a symbol. When the output has reached the limit, only the end of the block can be read,
    and when it has gone beyond, nothing. -/
def stepCoded (limit : Nat) (out : ByteArray) (last : Bool) (codes : BlockCodes) (bits : Bits) :
    Outcome :=
  if limit < out.size then .stuck ⟨out, .coded last codes, bits⟩
  else if limit = out.size then
    match codes.skipEnd? bits with
    | some bits => .next ⟨out, .after last, bits⟩
    | none => .stuck ⟨out, .coded last codes, bits⟩
  else
    match codes.next.run bits with
    | .error fault => .ofFault ⟨out, .coded last codes, bits⟩ fault
    | .ok (.literal byte, bits) => .next ⟨out.push byte, .coded last codes, bits⟩
    | .ok (.pair first second, bits) =>
      .next ⟨(out.push first).push second, .coded last codes, bits⟩
    | .ok (.blockEnd, bits) => .next ⟨out, .after last, bits⟩
    | .ok (.repetition length distance, bits) =>
      if out.size < distance then .broken
      else .next ⟨repeatBytes distance length out, .coded last codes, bits⟩

/-- One step. Once the output has `limit` bytes, no step adds more to it. -/
def step (limit : Nat) : Inflation → Outcome
  | ⟨out, .head, bits⟩ => stepHead out bits
  | ⟨out, .stored last left, bits⟩ => stepStored limit out last left bits
  | ⟨out, .coded last codes, bits⟩ => stepCoded limit out last codes bits
  | ⟨out, .finished, bits⟩ => .stuck ⟨out, .finished, bits⟩

/-- Takes steps until the work is stuck. Every step takes at least one bit, so `fuel` is as large
    as the number of bits that are left. -/
def runFor (limit : Nat) : (fuel : Nat) → Inflation → Option Inflation
  | 0, state => some state
  | fuel + 1, state =>
    match state.step limit with
    | .next state => runFor limit fuel state
    | .stuck state => some state
    | .broken => none

/-- The work as far as it goes; `none` if it meets bits that mean nothing. -/
def run (limit : Nat) (state : Inflation) : Option Inflation :=
  let fuel := state.bits.remaining
  state.runFor limit fuel

/-! ## The end of the data -/

/-- The number of bits of the checksum after the last block. -/
def checksumBits : Nat := 32

/-- Whether the last block is over, and the checksum is there. -/
def isClosed (state : Inflation) : Bool :=
  match state.phase with
  | .finished => state.bits.align.position + checksumBits ≤ state.bits.stop
  | _ => false

/-- At most so many bits are taken ahead of their use. -/
def maxTaken : Nat := 63

/-- Whether all bytes in front of the stop have been taken. Stored ones are taken when they are
    used, others ahead. -/
def hasTakenAll (state : Inflation) : Bool :=
  match state.phase with
  | .stored _ _ => state.bits.stop ≤ state.bits.position
  | _ => state.bits.stop ≤ (state.bits.position + maxTaken) / 8 * 8

end Inflation

end Koi.Png
