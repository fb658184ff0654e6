/-!
# Checksums

* `crc32`: the cyclic redundancy check that closes every chunk.
* `adler32`: the checksum that closes compressed data.
-/

namespace Koi.Png

/-- The check value of a single byte: eight divisions by the generator polynomial. -/
def crcEntry (n : UInt32) : UInt32 :=
  (List.range 8).foldl
    (fun (c : UInt32) _ => if c &&& 1 = 1 then (0xEDB88320 : UInt32) ^^^ (c >>> 1) else c >>> 1) n

/-- The check values of all bytes. -/
def crcTable : Vector UInt32 256 :=
  Vector.ofFn fun n => crcEntry n.val.toUInt32

/-- Takes one more byte into a running check. -/
def crcStep (c : UInt32) (b : UInt8) : UInt32 :=
  have : (c.toUInt8 ^^^ b).toNat < 256 := UInt8.toNat_lt _
  crcTable[(c.toUInt8 ^^^ b).toNat] ^^^ (c >>> 8)

/-- The check of two sequences, one after the other. -/
def crc32 (first second : ByteArray) : UInt32 :=
  second.foldl crcStep (first.foldl crcStep 0xFFFFFFFF) ^^^ 0xFFFFFFFF

/-- Takes one more byte into the two running sums. -/
def adlerStep (s : UInt32 × UInt32) (b : UInt8) : UInt32 × UInt32 :=
  let low := (s.1 + b.toUInt32) % 65521
  (low, (s.2 + low) % 65521)

/-- The two sums of the bytes, in one number. -/
def adler32 (bytes : ByteArray) : UInt32 :=
  let s := bytes.foldl adlerStep (1, 0)
  s.2 <<< 16 ||| s.1

end Koi.Png
