/-!
# Bytes

Reading and writing sequences of bytes. Numbers of several bytes have the most significant byte
first.

* `byteAt`: a byte, or zero outside of the sequence.
* `bigEndian`, `bigEndianAt?`: 32-bit numbers.
-/

namespace Koi.Png

/-- The byte at a position; zero after the end. -/
@[inline] def byteAt (bytes : ByteArray) (i : Nat) : UInt8 :=
  if h : i < bytes.size then bytes[i] else 0

/-- The four bytes of a number. -/
def bigEndian (n : UInt32) : List UInt8 :=
  [(n >>> 24).toUInt8, (n >>> 16).toUInt8, (n >>> 8).toUInt8, n.toUInt8]

/-- The number that four bytes at a position denote. -/
def bigEndianAt? (bytes : ByteArray) (i : Nat) : Option UInt32 :=
  if i + 4 ≤ bytes.size then
    some ((byteAt bytes i).toUInt32 <<< 24 ||| (byteAt bytes (i + 1)).toUInt32 <<< 16 |||
      (byteAt bytes (i + 2)).toUInt32 <<< 8 ||| (byteAt bytes (i + 3)).toUInt32)
  else none

/-- Appends a short list. -/
def append (bytes : ByteArray) (more : List UInt8) : ByteArray :=
  more.foldl ByteArray.push bytes

end Koi.Png
