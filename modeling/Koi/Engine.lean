import Koi.Generation
import Koi.Painting

/-!
# The engine

An engine is a configuration with a store that covers the catalogue. It makes the picture of any
token.

* `Engine.ofStore`, `Engine.load`: engines exist for complete stores only.
* `Engine.picture`, `Engine.thumbnail`: the picture of a token, over nothing or over the koi's
  primary color.
* `Engine.warm`, `Engine.warmConfigured`: scaling masks in advance.
-/

namespace Koi

/-- A configuration and the masks of all layers (`KoiEngine`). -/
structure Engine where
  config : Config
  store : Store
  complete : store.Complete

namespace Engine

/-- The engine with the given masks (`from_store`); some layer of the catalogue may be missing. -/
def ofStore (config : Config) (store : Store) : Except Error Engine :=
  match h : store.verify with
  | .ok () => .ok ⟨config, store, (store.verify_eq_ok_iff).1 h⟩
  | .error e => .error e

/-- The engine with the masks in the configured directory (`load_assets`). -/
def load {m : Type → Type} [Monad m] (codec : ImageCodec) (files : FileAccess m)
    (config : Config) : ExceptT Halt m Engine := do
  ofStore config (← Store.load codec files config.assetDir)

/-- The picture of a token (`render_image`). -/
def picture (engine : Engine) (token : String) (size : UInt32) : CacheM Image := do
  let attributes ← Attributes.generate token
  render engine.store attributes none size

/-- The picture of a token over its primary color (`render_thumbnail`). -/
def thumbnail (engine : Engine) (token : String) (size : UInt32) : CacheM Image := do
  let attributes ← Attributes.generate token
  render engine.store attributes (some attributes.primaryColor) size

/-- Scales all masks to the given sizes (`warm_cache`). -/
def warm (engine : Engine) (sizes : List UInt32) : CacheM WarmCounts :=
  Cache.warm engine.store sizes

/-- Scales all masks to the configured sizes (`warm_configured_sizes`). -/
def warmConfigured (engine : Engine) : CacheM WarmCounts :=
  engine.warm engine.config.warmSizes

end Engine

end Koi
