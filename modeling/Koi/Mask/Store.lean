import Koi.Catalog
import Koi.Image.Codec

/-!
# The mask store

The store holds one mask, an image, for each layer that has one. It is filled once, from memory or
from a directory of image files, and only read after that.

* `Store.get`, `Store.get?`: the mask of a layer; `get?_insert` and `get?_erase` say what the other
  operations do to it.
* `Store.verify`: whether the catalogue is covered.
* `Store.load`: the store of a directory.
-/

namespace Koi

/-- Masks by the name of their layer (`AssetStore`). -/
structure Store where
  masks : Std.ExtTreeMap LayerName Image

namespace Store

def empty : Store := ⟨∅⟩

/-- Puts a mask into the store, in the place of an older one of the same layer. -/
def insert (store : Store) (name : LayerName) (mask : Image) : Store :=
  ⟨store.masks.insert name mask⟩

/-- Takes a mask out of the store. -/
def erase (store : Store) (name : LayerName) : Store :=
  ⟨store.masks.erase name⟩

/-- The mask of a layer, if there is one. -/
def get? (store : Store) (name : LayerName) : Option Image := store.masks[name]?

/-- The mask of a layer (`get`); a layer without one is unknown. -/
def get (store : Store) (name : LayerName) : Except Error Image :=
  match store.get? name with
  | some mask => .ok mask
  | none => .error (.unknownAsset name.render)

def contains (store : Store) (name : LayerName) : Bool := store.masks.contains name

/-- The layers that have a mask, in the order of names. -/
def names (store : Store) : List LayerName := store.masks.keys

def size (store : Store) : Nat := store.masks.size

@[simp] theorem get?_empty (name : LayerName) : empty.get? name = none := by
  simp [empty, get?]

@[simp] theorem get?_insert (store : Store) (name other : LayerName) (mask : Image) :
    (store.insert name mask).get? other = if name = other then some mask else store.get? other := by
  simp [insert, get?, Std.ExtTreeMap.getElem?_insert]

@[simp] theorem get?_erase (store : Store) (name other : LayerName) :
    (store.erase name).get? other = if name = other then none else store.get? other := by
  simp [erase, get?, Std.ExtTreeMap.getElem?_erase]

theorem get_eq_ok_iff (store : Store) (name : LayerName) (mask : Image) :
    store.get name = .ok mask ↔ store.get? name = some mask := by
  unfold get
  split <;> simp_all

theorem contains_eq_isSome (store : Store) (name : LayerName) :
    store.contains name = (store.get? name).isSome := by
  simp [contains, get?]

theorem mem_names_iff (store : Store) (name : LayerName) :
    name ∈ store.names ↔ store.contains name = true := by
  simp [names, contains]

/-! ## The catalogue -/

/-- Every layer of the catalogue has a mask. -/
def Complete (store : Store) : Prop := ∀ name ∈ Catalog.names, store.contains name = true

/-- Fails with the first layer of the catalogue that has no mask (`verify_catalog`). -/
def verify (store : Store) : Except Error Unit :=
  match Catalog.names.find? fun name => !store.contains name with
  | some missing => .error (.unknownAsset missing.render)
  | none => .ok ()

theorem verify_eq_ok_iff (store : Store) : store.verify = .ok () ↔ store.Complete := by
  unfold verify Complete
  split
  · next missing h =>
    have hm := List.mem_of_find?_eq_some h
    have hp := List.find?_some h
    simp only [reduceCtorEq, false_iff]
    intro hall
    rw [hall missing hm] at hp
    exact absurd hp (by decide)
  · next h =>
    simp only [true_iff]
    intro name hn
    simpa using List.find?_eq_none.1 h name hn

/-! ## Directories -/

section

variable {m : Type → Type} [Monad m] (codec : ImageCodec) (files : FileAccess m) (dir : String)

/-- Takes in one entry of a directory. Only a regular file with the name of a layer's file counts;
    it has to hold an image. -/
def loadEntry (store : Store) (entry : DirEntry) : ExceptT Halt m Store := do
  if !entry.isFile then return store
  match LayerName.ofFileName? entry.name with
  | none => return store
  | some name =>
    let path := joinPath dir entry.name
    match codec.decodeRead (← files.read path) with
    | .ok mask => return store.insert name mask
    | .error fault => throw (fault.halt path)

/-- The masks in a directory (`load`). The entries are taken in the order of their names, and the
    first one that gives no image ends the work. -/
def load : ExceptT Halt m Store := do
  match ← files.list dir with
  | none => throw (.failure (.assetLoad dir))
  | some entries =>
    (entries.mergeSort fun a b => decide (a.name ≤ b.name)).foldlM (loadEntry codec files dir) empty

end

end Store

end Koi
