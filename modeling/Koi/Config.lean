import Koi.Error
import Koi.Files
import Koi.Json.Value
import Koi.Json.Reading

/-!
# Configuration

The configuration is read from a JSON object. A value that is missing or unusable leaves its
default in place, and no value has influence on another.

* `Config.ofJson`: the configuration of any JSON value.
* `Config.load`: the configuration in a file, which must hold an object.
* `Config.toJson`: writing.
* `checkSize`: the edges that an image may have.
-/

namespace Koi

/-- Whether an image may have this edge. -/
def ValidSize (size : UInt32) : Prop := 1 ≤ size.toNat ∧ size.toNat ≤ maxEdge

instance (size : UInt32) : Decidable (ValidSize size) := by
  unfold ValidSize; infer_instance

/-- The edge itself, if an image may have it (`check_size`). -/
def checkSize (size : UInt32) : Except Error UInt32 :=
  if ValidSize size then .ok size else .error .invalidDimensions

/-- The settings of an engine (`EngineConfig`). -/
structure Config where
  /-- The directory with the masks. -/
  assetDir : String
  /-- The sizes that masks are scaled to in advance. -/
  warmSizes : List UInt32
  /-- The number of workers; zero leaves it to the machine. -/
  workerThreads : UInt64
  defaultSize : UInt32
  thumbnailSize : UInt32
  deriving DecidableEq, Repr

namespace Config

def default : Config where
  assetDir := "images/koi"
  warmSizes := [200, 350, 1024]
  workerThreads := 0
  defaultSize := 1024
  thumbnailSize := 200

instance : Inhabited Config := ⟨default⟩

/-! ## Reading -/

/-- A number that is the edge of an image (`param_u32`). -/
def size? (value : Json) : Option UInt32 := do
  let n ← value.unsigned?
  if n.toNat < UInt32.size ∧ ValidSize n.toUInt32 then some n.toUInt32 else none

/-- A list of edges (`param_u32_list`); one unusable item makes the whole list unusable. -/
def sizes? (value : Json) : Option (List UInt32) := do
  (← value.array?).mapM size?

/-- The configuration of a JSON value (`from_json`). -/
def ofJson (value : Json) : Config where
  assetDir := ((value.member? "asset_dir").bind Json.string?).getD default.assetDir
  warmSizes := ((value.member? "warm_sizes").bind sizes?).getD default.warmSizes
  workerThreads :=
    ((value.member? "worker_threads").bind Json.unsigned?).getD default.workerThreads
  defaultSize := ((value.member? "default_size").bind size?).getD default.defaultSize
  thumbnailSize := ((value.member? "thumbnail_size").bind size?).getD default.thumbnailSize

/-- The configuration of a file with the given content. -/
def ofContent (path : String) (content : ByteArray) : Except Error Config :=
  match String.fromUTF8? content with
  | none => .error (.config path .unreadable)
  | some text =>
    match Json.parse text with
    | none => .error (.config path .notJson)
    | some value =>
      if value.isObject then .ok (ofJson value) else .error (.config path .notAnObject)

/-- The configuration in a file (`from_file`). -/
def load {m : Type → Type} [Monad m] (files : FileAccess m) (path : String) :
    ExceptT Halt m Config := do
  match ← files.read path with
  | none => throw (.failure (.config path .unreadable))
  | some content => ofContent path content

/-! ## Writing -/

/-- The configuration as an object. -/
def toJson (c : Config) : Json :=
  .object
    [("asset_dir", .string c.assetDir),
      ("default_size", .ofNat c.defaultSize.toNat),
      ("thumbnail_size", .ofNat c.thumbnailSize.toNat),
      ("warm_sizes", .array (c.warmSizes.map fun size => .ofNat size.toNat)),
      ("worker_threads", .number (.unsigned c.workerThreads))]

end Config

end Koi
