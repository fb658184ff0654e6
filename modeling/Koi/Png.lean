import Koi.Image.Codec
import Koi.Png.Envelope
import Koi.Png.Parts
import Koi.Png.Scanline

/-!
# Image files

* `Png.decode`: the image in a file.
* `Png.encode?`: the file of an image, with its pixels uncompressed. An image without pixels has
  no file.
* `Png.codec`: both directions as a codec.
-/

namespace Koi.Png

/-- The rows of the passes that have pixels in row `y` of the image. -/
def rowsAt (passes : List (Pass × Array ByteArray)) (y : Nat) : List (Pass × ByteArray) :=
  passes.filterMap fun (pass, rows) =>
    if pass.hasRow y then some (pass, rows.getD ((y - pass.row) / pass.rowStep) .empty) else none

/-- The pixel in column `x`, from the rows of the passes that have pixels in its row. -/
def pixelOf (parts : Parts) (x : Nat) : (rows : List (Pass × ByteArray)) → Pixel
  | [] => .clear
  | (pass, row) :: rows =>
    if pass.hasColumn x then
      pixelAt parts.header parts.tables row ((x - pass.column) / pass.columnStep)
    else pixelOf parts x rows

/-- Whether the first row of an image can be read. -/
def hasFirstRow (h : Header) (compressed : Arrival) : Bool :=
  match h.passes.head? with
  | none => false
  | some pass =>
    let part := pass.header h
    ((decompress? h.dataSize (1 + part.rowBytes) compressed).bind fun data =>
      rowsFrom? part data 1 0 .empty).isSome

/-- The image of some parts and compressed data, which has to be intact. -/
def assemble? (parts : Parts) (compressed : Arrival) : Option Image := do
  if compressed.ending ≠ .other then none
  let h := parts.header
  let data ← decompress? h.dataSize h.dataSize compressed
  let passes ← passRows? h data h.passes 0
  return Image.ofRows h.width h.height fun y =>
    let rows := rowsAt passes y
    fun x => pixelOf parts x rows

/-- The image in a file. A palette that ends within a color makes the decoder panic; it is looked
    at when the first row has been read. -/
def decode (file : ByteArray) : Except DecodeFault Image :=
  match Parts.collect? file with
  | none => .error .refused
  | some (parts, compressed) =>
    if parts.hasCutPalette && hasFirstRow parts.header compressed then .error .panic
    else
      match assemble? parts compressed with
      | some image => .ok image
      | none => .error .refused

/-- Appends the bytes of a pixel. -/
def appendPixel (bytes : ByteArray) (p : Pixel) : ByteArray :=
  bytes.push p.red |>.push p.green |>.push p.blue |>.push p.alpha

/-- The rows of an image, each behind the byte for no filter. -/
def scanlines (image : Image) : ByteArray :=
  Nat.fold image.pixels.size
    (fun i h bytes =>
      let bytes := if i % image.width = 0 then bytes.push 0 else bytes
      appendPixel bytes image.pixels[i])
    .empty

/-- The file of an image. -/
def encode? (image : Image) : Option ByteArray :=
  if image.isEmpty then none
  else
    let file := append .empty signature
    let file := Chunk.append file
      ⟨ChunkKind.header, Header.bytesOfSize image.width image.height⟩
    let file := Chunk.append file ⟨ChunkKind.data, compress (scanlines image)⟩
    some (Chunk.append file ⟨ChunkKind.last, .empty⟩)

/-- The codec for these files. -/
def codec : ImageCodec where
  encode? := encode?
  decode := decode

@[simp] theorem decode_codec : codec.decode = decode := rfl

end Koi.Png
