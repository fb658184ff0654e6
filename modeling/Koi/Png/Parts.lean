import Koi.Png.Chunk
import Koi.Png.Envelope
import Koi.Png.Sample

/-!
# The parts of a file

In front of the image data stand the header and maybe tables. Most other chunks there are passed
over, but some of them make a file unreadable if they are wrong.

* `Parts.allows`: the kinds and sizes of chunks that can stand there at all.
* `Parts.add?`: what a chunk says.
* `Parts.collect?`: the parts of a file, and its compressed data.
-/

namespace Koi.Png

/-- What a file says before its image data. -/
structure Parts where
  header : Header
  tables : Tables := {}
  /-- Whether the meaning of the colors has been given by code points. -/
  codePoints : Bool := false
  /-- The number of the last frame of an animation that has been announced. -/
  frame : Option UInt32 := none

namespace Parts

/-! ## Sizes -/

/-- Whether a palette may have this size. It may end in an incomplete color. -/
def isPaletteSize (size : Nat) : Bool := 3 ≤ size ∧ size ≤ 768

/-- The size of the chunk that announces a frame. -/
def frameControlSize : Nat := 26

/-- Whether a chunk, damaged or not, can stand in front of the image data. A second header, the data
    of a frame, and chunks that are not known but cannot be left out are in the wrong place. -/
def allows (kind : ChunkKind) (size : Nat) : Bool :=
  if kind = ChunkKind.palette then isPaletteSize size
  else if kind = ChunkKind.frameControl then size = frameControlSize
  else kind.isAncillary && kind ≠ ChunkKind.frameData

/-! ## Single chunks -/

/-- There is one palette at most. -/
def addPalette? (p : Parts) (content : ByteArray) : Option Parts :=
  if p.tables.palette.isSome then none
  else some { p with tables := { p.tables with palette := some content } }

/-- Whether transparency of this size makes sense for the image. -/
def acceptsTransparency (p : Parts) (size : Nat) : Bool :=
  p.tables.transparency.isNone && 1 ≤ size && size ≤ 256 &&
    match p.header.colorType with
    | .gray => 2 ≤ size
    | .rgb => 6 ≤ size
    | .indexed => p.tables.palette.isSome
    | .grayAlpha | .rgba => false

/-- Transparency that makes no sense is passed over. -/
def addTransparency (p : Parts) (content : ByteArray) : Parts :=
  if p.acceptsTransparency content.size then
    { p with tables := { p.tables with transparency := some content } }
  else p

/-- Code points count once, in front of the palette. They have to be those of red, green and blue,
    and the last byte is a truth value. -/
def addCodePoints? (p : Parts) (content : ByteArray) : Option Parts :=
  if content.size ≠ 4 ∨ p.codePoints ∨ p.tables.palette.isSome then some p
  else if byteAt content 2 = 0 ∧ byteAt content 3 ≤ 1 then some { p with codePoints := true }
  else none

/-- A background color of an indexed image needs the palette. -/
def addBackground? (p : Parts) (content : ByteArray) : Option Parts :=
  if 1 ≤ content.size ∧ content.size ≤ 6 ∧ p.header.colorType = .indexed ∧
      p.tables.palette.isNone then none
  else some p

/-- The number that the next frame has. -/
def nextFrame (p : Parts) : UInt32 :=
  match p.frame with
  | none => 0
  | some n => n + 1

/-- Whether a chunk announces the next frame, which has to be as large as the image: after the
    number come width, height and position, a duration, and two codes. -/
def announces (p : Parts) (content : ByteArray) : Bool :=
  bigEndianAt? content 0 = some p.nextFrame ∧
    bigEndianAt? content 4 = some p.header.width.toUInt32 ∧
    bigEndianAt? content 8 = some p.header.height.toUInt32 ∧
    bigEndianAt? content 12 = some 0 ∧ bigEndianAt? content 16 = some 0 ∧
    byteAt content 24 ≤ 2 ∧ byteAt content 25 ≤ 1

/-- A frame that is announced has to be the next one. -/
def addFrame? (p : Parts) (content : ByteArray) : Option Parts :=
  if p.announces content then some { p with frame := some p.nextFrame } else none

/-- Takes in a chunk that stands before the image data. -/
def add? (p : Parts) (chunk : Chunk) : Option Parts :=
  if chunk.kind = ChunkKind.palette then p.addPalette? chunk.content
  else if chunk.kind = ChunkKind.transparency then some (p.addTransparency chunk.content)
  else if chunk.kind = ChunkKind.codePoints then p.addCodePoints? chunk.content
  else if chunk.kind = ChunkKind.background then p.addBackground? chunk.content
  else if chunk.kind = ChunkKind.frameControl then p.addFrame? chunk.content
  else some p

/-! ## The file -/

/-- The chunks before the image data, and the position of the data. A damaged chunk that can be left
    out is left out. Every chunk takes some bytes, so `fuel` is as large as the file. -/
def tables? (file : ByteArray) : (fuel position : Nat) → Parts → Option (Parts × Nat)
  | 0, _, _ => none
  | fuel + 1, position, p => do
    let kind ← Chunk.kindAt? file position
    if kind = ChunkKind.data then return (p, position)
    let (chunk, intact, next) ← Chunk.at? file position
    if !allows kind chunk.content.size then none
    else if intact then tables? file fuel next (← p.add? chunk)
    else if kind.isAncillary then tables? file fuel next p
    else none

/-- A file is read in sections of this size. -/
def sectionSize : Nat := 8192

/-- The ends of the sections inside the part of a file between two positions, and of the part. -/
def stopsBetween (start stop : Nat) : List Nat :=
  ((List.range (stop / sectionSize + 1)).map (sectionSize * ·)).filter
    (fun s => start < s ∧ s < stop) ++ [stop]

/-- The compressed data in consecutive chunks, after what has been read of it already. Of a chunk
    that is cut off, all that is there can be read. The kind of the chunk after the data has to be
    there. -/
def data (file : ByteArray) : (fuel position : Nat) → Arrival → Arrival
  | 0, _, arrival => arrival.endingIn .nothing
  | fuel + 1, position, arrival =>
    match bigEndianAt? file position, Chunk.kindAt? file position with
    | some length, some kind =>
      if kind ≠ ChunkKind.data then arrival
      else
        let start := position + 8
        let stop := min (start + length.toNat) file.size
        let stops := (stopsBetween start stop).map (· - start)
        let arrival := arrival.append (file.extract start stop) stops
        match Chunk.at? file position with
        | some (_, true, next) => data file fuel next arrival
        | some (_, false, _) => arrival.endingIn .damage
        | none => arrival.endingIn .nothing
    | _, _ => arrival.endingIn .nothing

/-- The largest image, in bytes. -/
def maxImageSize : Nat := 512 * 1024 * 1024

/-- The number of bytes of the image when every sample has a whole number of bytes, and colors stand
    in the place of their numbers in the palette. Transparency adds a sample to each pixel. -/
def imageSize (p : Parts) : Nat :=
  let samples := if p.header.colorType = .indexed then 3 else p.header.colorType.samples
  let samples := if p.tables.transparency.isSome then samples + 1 else samples
  p.header.width * p.header.height * samples * (if p.header.depth = 16 then 2 else 1)

/-- The parts of a file, and its compressed data. -/
def collect? (file : ByteArray) : Option (Parts × Arrival) := do
  if (file.extract 0 8).data.toList ≠ signature then none
  let (chunk, intact, position) ← Chunk.at? file 8
  if chunk.kind ≠ ChunkKind.header ∨ !intact then none
  let header ← Header.ofBytes? chunk.content
  let (parts, position) ← tables? file file.size position { header }
  if parts.header.colorType = .indexed ∧ parts.tables.palette = none then none
  if maxImageSize < parts.imageSize then none
  return (parts, data file file.size position .none)

/-- Whether the palette of an indexed image ends within a color. -/
def hasCutPalette (p : Parts) : Bool :=
  p.header.colorType = .indexed ∧ (p.tables.palette.getD .empty).size % 3 ≠ 0

end Parts

end Koi.Png
