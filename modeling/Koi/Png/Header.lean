import Koi.Png.Bytes

/-!
# The header of an image file

* `ColorType`: what the samples of a pixel mean.
* `Header`: the shape of the image, and `Header.rawSize`, the size of its data.
* `Header.ofBytes?`, `Header.bytesOfSize`: reading and writing.
-/

namespace Koi.Png

/-- What the samples of a pixel mean. -/
inductive ColorType where
  | gray
  | rgb
  | indexed
  | grayAlpha
  | rgba
  deriving DecidableEq, Repr

namespace ColorType

def ofCode? : Nat → Option ColorType
  | 0 => some .gray
  | 2 => some .rgb
  | 3 => some .indexed
  | 4 => some .grayAlpha
  | 6 => some .rgba
  | _ => none

/-- The number of samples of a pixel. -/
def samples : ColorType → Nat
  | gray | indexed => 1
  | grayAlpha => 2
  | rgb => 3
  | rgba => 4

/-- The numbers of bits that a sample may have. -/
def depths : ColorType → List Nat
  | gray => [1, 2, 4, 8, 16]
  | indexed => [1, 2, 4, 8]
  | rgb | grayAlpha | rgba => [8, 16]

end ColorType

/-- The shape of an image. -/
structure Header where
  width : Nat
  height : Nat
  /-- The number of bits of a sample. -/
  depth : Nat
  colorType : ColorType
  /-- Whether the pixels come in seven passes instead of from top to bottom. -/
  interlaced : Bool := false
  deriving DecidableEq, Repr

namespace Header

/-- The number of bits of a pixel. -/
def pixelBits (h : Header) : Nat := h.colorType.samples * h.depth

/-- The number of bytes of a row. -/
def rowBytes (h : Header) : Nat := (h.width * h.pixelBits + 7) / 8

/-- The number of bytes between a byte and the corresponding one of the pixel to its left. -/
def pixelBytes (h : Header) : Nat := max 1 (h.pixelBits / 8)

/-- The number of bytes of the image data, where each row stands behind a byte for its filter. -/
def rawSize (h : Header) : Nat := h.height * (1 + h.rowBytes)

/-- Reads a header. -/
def ofBytes? (bytes : ByteArray) : Option Header := do
  if bytes.size ≠ 13 then none
  let width ← bigEndianAt? bytes 0
  let height ← bigEndianAt? bytes 4
  let depth := (byteAt bytes 8).toNat
  let colorType ← ColorType.ofCode? (byteAt bytes 9).toNat
  if width = 0 ∨ height = 0 ∨ depth ∉ colorType.depths ∨ byteAt bytes 10 ≠ 0 ∨
      byteAt bytes 11 ≠ 0 ∨ 1 < byteAt bytes 12 then none
  return ⟨width.toNat, height.toNat, depth, colorType, byteAt bytes 12 = 1⟩

/-- The header of an image whose samples are bytes in the order red, green, blue, alpha. -/
def bytesOfSize (width height : Nat) : ByteArray :=
  append .empty
    (bigEndian width.toUInt32 ++ bigEndian height.toUInt32 ++ [8, 6, 0, 0, 0])

end Header

end Koi.Png
