import Koi.Image
import Koi.Png.Header

/-!
# Samples and pixels

The samples of a row become pixels of four bytes.

* `sampleAt`: a sample of a row.
* `sampleByte`: a sample scaled to a byte.
* `Tables`: the colors and alphas of an indexed image, or the color that is transparent in an image
  without alpha.
* `pixelAt`: a pixel of a row.
-/

namespace Koi.Png

/-- The sample with number `k` of a row whose samples have `depth` bits. -/
def sampleAt (depth : Nat) (row : ByteArray) (k : Nat) : Nat :=
  if depth = 8 then (byteAt row k).toNat
  else if depth = 16 then 256 * (byteAt row (2 * k)).toNat + (byteAt row (2 * k + 1)).toNat
  else
    let bit := k * depth
    ((byteAt row (bit / 8)).toNat >>> (8 - depth - bit % 8)) % (1 <<< depth)

/-- A sample as a byte: long ones are rounded, and short ones spread over the whole range. -/
def sampleByte (depth value : Nat) : UInt8 :=
  if depth = 16 then ((value + 128) / 257).toUInt8
  else (value * (255 / ((1 <<< depth) - 1))).toUInt8

/-- The sample with number `k` of a row as a byte. -/
@[inline] def sampleByteAt (depth : Nat) (row : ByteArray) (k : Nat) : UInt8 :=
  if depth = 8 then byteAt row k else sampleByte depth (sampleAt depth row k)

/-- The tables that may stand before the image data. -/
structure Tables where
  /-- Red, green and blue of each color of an indexed image. -/
  palette : Option ByteArray := none
  /-- The alphas of the first colors of an indexed image, or the samples of the transparent
      color. -/
  transparency : Option ByteArray := none

/-- A sample of the transparent color. -/
def transparentSample (depth : Nat) (transparency : ByteArray) (i : Nat) : Nat :=
  let low := (byteAt transparency (2 * i + 1)).toNat
  if depth = 16 then 256 * (byteAt transparency (2 * i)).toNat + low else low

/-- The alpha of a color without one: it is transparent if all its samples are those of the
    transparent color. No long samples are transparent if more bytes than theirs are given. -/
def alphaOf (tables : Tables) (depth : Nat) (samples : List Nat) : UInt8 :=
  match tables.transparency with
  | none => 255
  | some t =>
    if samples = (List.range samples.length).map (transparentSample depth t) ∧
        (depth = 16 → t.size = 2 * samples.length) then 0
    else 255

/-- A color of the palette. Colors outside of it are black, and if there are more alphas than
    colors, none of them counts. -/
def indexedPixel (tables : Tables) (i : Nat) : Pixel :=
  let palette := tables.palette.getD .empty
  let transparency := tables.transparency.getD .empty
  let alpha :=
    if i < transparency.size ∧ transparency.size ≤ palette.size / 3 then byteAt transparency i
    else 255
  .rgba (byteAt palette (3 * i)) (byteAt palette (3 * i + 1)) (byteAt palette (3 * i + 2)) alpha

/-- The pixel with number `x` of a row. -/
def pixelAt (h : Header) (tables : Tables) (row : ByteArray) (x : Nat) : Pixel :=
  let sample (i : Nat) : Nat := sampleAt h.depth row (h.colorType.samples * x + i)
  let byte (i : Nat) : UInt8 := sampleByteAt h.depth row (h.colorType.samples * x + i)
  match h.colorType with
  | .gray => .rgba (byte 0) (byte 0) (byte 0) (alphaOf tables h.depth [sample 0])
  | .rgb => .rgba (byte 0) (byte 1) (byte 2) (alphaOf tables h.depth [sample 0, sample 1, sample 2])
  | .indexed => indexedPixel tables (sample 0)
  | .grayAlpha => .rgba (byte 0) (byte 0) (byte 0) (byte 1)
  | .rgba => .rgba (byte 0) (byte 1) (byte 2) (byte 3)

end Koi.Png
