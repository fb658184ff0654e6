import Koi.Config
import Koi.Image.Resample
import Koi.Mask.Store

/-!
# The mask cache

Scaling a mask is slow, so a mask is scaled once for each size and kept. The cache also counts how
often a mask was scaled.

* `Cache.fetch`: a mask in a size, from the cache or newly scaled.
* `Cache.warm`: all masks in several sizes in advance.

Both run in `CacheM`: the cache outlives a failure as it was left.
-/

namespace Koi

/-- A mask in a size. -/
structure MaskKey where
  size : UInt32
  name : LayerName
  deriving DecidableEq, Repr

namespace MaskKey

/-- The place of a key in the order of keys: by size, then by name. -/
def rank (key : MaskKey) : Nat := 1024 * key.size.toNat + key.name.rank

theorem rank_injective {a b : MaskKey} (h : a.rank = b.rank) : a = b := by
  have ha := a.name.rank_lt
  have hb := b.name.rank_lt
  obtain ⟨sa, na⟩ := a
  obtain ⟨sb, nb⟩ := b
  simp only [rank] at h ha hb
  have hs : sa = sb := UInt32.toNat_inj.1 (by omega)
  have hn : na = nb := LayerName.rank_injective (by omega)
  rw [hs, hn]

instance : Ord MaskKey := ⟨compareRank rank⟩

instance : Std.TransOrd MaskKey := inferInstanceAs (Std.TransCmp (compareRank rank))

instance : Std.LawfulEqOrd MaskKey := lawfulEqCmp_compareRank rank_injective

end MaskKey

/-- The scaled masks, and how often a mask was scaled (`MaskCache`). -/
structure Cache where
  images : Std.ExtTreeMap MaskKey Image
  scaleCount : Nat

/-- Work on a cache that may fail. -/
abbrev CacheM := ExceptT Error (StateM Cache)

/-- What warming did: the number of different sizes, and the number of masks that were scaled
    (`WarmStats`). -/
structure WarmCounts where
  sizes : Nat
  scaled : Nat
  deriving DecidableEq, Repr

namespace Cache

def empty : Cache := ⟨∅, 0⟩

/-- The number of images in the cache. -/
def size (cache : Cache) : Nat := cache.images.size

def contains (cache : Cache) (key : MaskKey) : Bool := cache.images.contains key

/-- Keeps an image that has just been scaled. -/
def add (cache : Cache) (key : MaskKey) (image : Image) : Cache :=
  ⟨cache.images.insert key image, cache.scaleCount + 1⟩

theorem getElem?_add (cache : Cache) (key other : MaskKey) (image : Image) :
    (cache.add key image).images[other]? =
      if key = other then some image else cache.images[other]? := by
  simp [add, Std.ExtTreeMap.getElem?_insert]

/-- A layer's mask in a size (`get_image`). The size is checked first, and a layer without mask is
    noticed only if the cache has no image. -/
def fetch (store : Store) (name : LayerName) (size : UInt32) : CacheM Image := do
  let size ← checkSize size
  match (← get).images[MaskKey.mk size name]? with
  | some image => return image
  | none =>
    let image := (← store.get name).resize size.toNat
    modify fun cache => cache.add ⟨size, name⟩ image
    return image

/-- Scales a layer's mask unless its image is in the cache (`build_cache_for_size`). `scaled` counts
    the images that were not. -/
def warmKey (store : Store) (key : MaskKey) (scaled : Nat) : CacheM Nat := do
  if (← get).contains key then return scaled
  let image := (← store.get key.name).resize key.size.toNat
  modify fun cache => cache.add key image
  return scaled + 1

/-- The keys of all masks in all sizes. -/
def warmKeys (store : Store) (sizes : List UInt32) : List MaskKey :=
  sizes.flatMap fun size => store.names.map fun name => ⟨size, name⟩

/-- Scales all masks to all sizes (`build_caches_for_sizes`). If some size is out of bounds nothing
    is scaled. -/
def warm (store : Store) (sizes : List UInt32) : CacheM WarmCounts := do
  sizes.forM fun size => discard (checkSize size)
  let sizes := sizes.eraseDups
  let scaled ← (warmKeys store sizes).foldlM (fun scaled key => warmKey store key scaled) 0
  return ⟨sizes.length, scaled⟩

end Cache

end Koi
