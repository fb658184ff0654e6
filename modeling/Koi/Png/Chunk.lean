import Koi.Png.Bytes
import Koi.Png.Checksum

/-!
# Chunks

After its signature a file consists of chunks: a length, four letters for the kind, the content,
and a check value over kind and content.

* `Chunk.at?`: the chunk at a position of a file.
* `Chunk.append`: writing a chunk.
-/

namespace Koi.Png

/-- The eight bytes at the beginning of every file. -/
def signature : List UInt8 := [0x89, 0x50, 0x4E, 0x47, 0x0D, 0x0A, 0x1A, 0x0A]

/-- A kind of chunk, given by its four letters. -/
abbrev ChunkKind := UInt32

namespace ChunkKind

def header : ChunkKind := 0x49484452
def palette : ChunkKind := 0x504C5445
def transparency : ChunkKind := 0x74524E53
def data : ChunkKind := 0x49444154
def last : ChunkKind := 0x49454E44
def codePoints : ChunkKind := 0x63494350
def background : ChunkKind := 0x624B4744
def frameControl : ChunkKind := 0x6663544C
def frameData : ChunkKind := 0x66644154

/-- An ancillary chunk, whose first letter is lower-case, can be left out. -/
def isAncillary (kind : ChunkKind) : Bool := kind &&& 0x20000000 ≠ 0

end ChunkKind

/-- A chunk. -/
structure Chunk where
  kind : ChunkKind
  content : ByteArray

namespace Chunk

/-- The kind of the chunk at a position, if its length and kind are there. -/
def kindAt? (file : ByteArray) (position : Nat) : Option ChunkKind :=
  bigEndianAt? file (position + 4)

/-- The chunk at a position, whether its check value is right, and the position after it. -/
def at? (file : ByteArray) (position : Nat) : Option (Chunk × Bool × Nat) := do
  let length := (← bigEndianAt? file position).toNat
  let kind ← kindAt? file position
  let stop := position + 8 + length
  let check ← bigEndianAt? file stop
  let content := file.extract (position + 8) stop
  return (⟨kind, content⟩, check = crc32 (file.extract (position + 4) (position + 8)) content,
    stop + 4)

/-- Appends a chunk to a file. -/
def append (file : ByteArray) (chunk : Chunk) : ByteArray :=
  let kind := ByteArray.mk (bigEndian chunk.kind).toArray
  Png.append
    (Png.append file (bigEndian chunk.content.size.toUInt32) ++ kind ++ chunk.content)
    (bigEndian (crc32 kind chunk.content))

end Chunk

end Koi.Png
