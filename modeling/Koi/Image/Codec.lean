import Koi.Error
import Koi.Files
import Koi.Image

/-!
# Images in files

A codec turns images into the contents of files and back. The rest of the library works with any
codec.

* `ImageCodec`: the two directions. `ImageCodec.IsLossless` says that they undo each other on an
  image, and `ImageCodec.NeverPanics` that decoding is a partial function.
* `ImageCodec.decodeRead`: the image in a file that may not have been read.
* `ImageCodec.save`: writing the file of an image.
-/

namespace Koi

/-- Why a file gives no image. -/
inductive DecodeFault where
  /-- The file does not show an image. -/
  | refused
  /-- The decoder panics at the file. -/
  | panic
  deriving DecidableEq, Repr

/-- How loading a mask ends at a file that gives no image. -/
def DecodeFault.halt (path : String) : DecodeFault → Halt
  | .refused => .failure (.assetLoad path)
  | .panic => .panic

/-- A format of image files. -/
structure ImageCodec where
  /-- The content of the file of an image, if it has one. -/
  encode? : Image → Option ByteArray
  /-- The image in a file. -/
  decode : ByteArray → Except DecodeFault Image

namespace ImageCodec

/-- An image has a file, and the file shows it. -/
def IsLossless (codec : ImageCodec) (image : Image) : Prop :=
  ∃ file, codec.encode? image = some file ∧ codec.decode file = .ok image

/-- There is no file at which the decoder panics. -/
def NeverPanics (codec : ImageCodec) : Prop := ∀ file, codec.decode file ≠ .error .panic

/-- The image in a file that may not have been read. -/
def decodeRead (codec : ImageCodec) : Option ByteArray → Except DecodeFault Image
  | some file => codec.decode file
  | none => .error .refused

/-- Writes the file of an image (`write_png`). The file is there before the image is encoded, so an
    image without a file leaves an empty one. -/
def save {m : Type → Type} [Monad m] (codec : ImageCodec) (files : FileAccess m) (path : String)
    (image : Image) : ExceptT Halt m Unit := do
  let content := codec.encode? image
  let written ← files.write path (content.getD .empty)
  if !written || content.isNone then throw (.failure (.notWritten path))

end ImageCodec

end Koi
