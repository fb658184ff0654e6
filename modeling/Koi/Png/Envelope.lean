import Koi.Png.Checksum
import Koi.Png.Expansion

/-!
# The envelope of compressed data

Compressed data stands between two bytes of header and a checksum.

* `decompress?`: as much of the content of an envelope as is needed.
* `compress`: an envelope around blocks that hold their bytes as they are.
-/

namespace Koi.Png

/-- Whether an envelope begins with these two bytes. -/
def isEnvelopeHeader (method flags : Nat) : Bool :=
  method % 16 = 8 ∧ method / 16 ≤ 7 ∧ (256 * method + flags) % 31 = 0 ∧ flags / 32 % 2 = 0

/-- The content of an envelope, which has `total` bytes, as far as it is there when the first
    `needed` bytes of it can be used. The checksum may be wrong. -/
def decompress? (total needed : Nat) (data : Arrival) : Option ByteArray :=
  let bytes := data.bytes
  if isEnvelopeHeader (byteAt bytes 0).toNat (byteAt bytes 1).toNat then
    Expansion.until? total needed data.ending data.stops.toList ⟨⟨.empty, .head, ⟨bytes, 16, 0⟩⟩, 0⟩
  else none

/-- The longest block of stored bytes. -/
def maxStored : Nat := 65535

/-- Writes bytes from a position on as blocks that hold them as they are. -/
def storeFrom (bytes : ByteArray) (start : Nat) (out : ByteArray) : ByteArray :=
  let length := min maxStored (bytes.size - start)
  let last := bytes.size ≤ start + maxStored
  let head : List UInt8 :=
    [if last then 1 else 0, length.toUInt8, (length / 256).toUInt8,
      (65535 - length).toUInt8, ((65535 - length) / 256).toUInt8]
  let out := append out head ++ bytes.extract start (start + length)
  if last then out else storeFrom bytes (start + maxStored) out
termination_by bytes.size - start
decreasing_by
  have : ¬ bytes.size ≤ start + maxStored := ‹_›
  have : 0 < maxStored := by decide
  omega

/-- An envelope around the bytes. -/
def compress (bytes : ByteArray) : ByteArray :=
  append (storeFrom bytes 0 ⟨#[0x78, 0x01]⟩) (bigEndian (adler32 bytes))

end Koi.Png
