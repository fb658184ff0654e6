import Koi.Config

/-!
# Commands

What the program can be asked to do.

* `Settings`: what holds for any command, with the configuration that follows from it.
* `Command`: one task.
-/

namespace Koi

/-- The options that go with any command (`Cli`). -/
structure Settings where
  /-- Whether reports and failures are written as JSON. -/
  json : Bool
  /-- The configuration file. -/
  config : Option String
  /-- The directory with the masks, instead of the configured one. -/
  assets : Option String
  deriving DecidableEq, Repr

/-- The configuration under some settings (`load_config`). -/
def Settings.configure {m : Type → Type} [Monad m] (settings : Settings) (files : FileAccess m) :
    ExceptT Halt m Config := do
  let config ← match settings.config with
    | some path => Config.load files path
    | none => pure Config.default
  return { config with assetDir := settings.assets.getD config.assetDir }

/-- A picture to make. -/
structure RenderOrder where
  token : String
  /-- The edge, instead of the configured one. -/
  size : Option UInt32
  /-- Whether the koi is painted over its primary color. -/
  thumbnail : Bool
  /-- The file to write. -/
  output : String
  deriving DecidableEq, Repr

/-- The edge of the picture. -/
def RenderOrder.edge (order : RenderOrder) (config : Config) : UInt32 :=
  order.size.getD (if order.thumbnail then config.thumbnailSize else config.defaultSize)

/-- What the program is asked to do (`Command`). -/
inductive Command where
  /-- Show the attributes of a token. -/
  | attributes (token : String)
  /-- Make a picture. -/
  | render (order : RenderOrder)
  /-- Show all varieties, or the patterns of one. -/
  | list (variety : Option String)
  /-- Check the masks and maybe scale them. -/
  | checkAssets (warm : Bool)
  deriving DecidableEq, Repr

end Koi
