import Koi.Mask.Store
import Koi.Proofs.Files

/-!
# Loading masks

Loading reads a directory and the files of masks in it. It depends on what can be read and on the
codec alone. Entries without a layer do not matter, and the first mask without an image ends the
work.

* `FileView.takeIn`: one more entry of the directory.
* `FileView.masks`: the masks in a directory; `perform_load` says that they are what is loaded.
-/

namespace Koi

/-! ## The masks in a directory -/

/-- The layer whose mask an entry of a directory holds. -/
def DirEntry.layer? (entry : DirEntry) : Option LayerName :=
  if entry.isFile then LayerName.ofFileName? entry.name else none

namespace FileView

variable {view : FileView} {codec : ImageCodec} {dir : String}

/-- The mask in a file. -/
def mask (view : FileView) (codec : ImageCodec) (path : String) : Except Halt Image :=
  (codec.decodeRead (view.read path)).mapError (DecodeFault.halt path)

/-- Masks with that of one more entry of a directory. -/
def takeIn (view : FileView) (codec : ImageCodec) (dir : String) (store : Store)
    (entry : DirEntry) : Except Halt Store :=
  match entry.layer? with
  | none => .ok store
  | some name => (view.mask codec (joinPath dir entry.name)).map (store.insert name)

/-- The masks in a directory. -/
def masks (view : FileView) (codec : ImageCodec) (dir : String) : Except Halt Store :=
  match view.list dir with
  | none => .error (.failure (.assetLoad dir))
  | some entries =>
    (entries.mergeSort fun a b => decide (a.name ≤ b.name)).foldlM (view.takeIn codec dir) .empty

theorem masks_of_singleton {entry : DirEntry} (listed : view.list dir = some [entry]) :
    view.masks codec dir = view.takeIn codec dir .empty entry := by
  simp only [masks, listed, List.mergeSort_singleton, List.foldlM_cons]
  cases view.takeIn codec dir .empty entry <;> rfl

end FileView

/-! ## Loading them -/

variable {σ : Type} {files : FileAccess (StateM σ)}

theorem perform_loadEntry (passive : files.IsPassive) (codec : ImageCodec) (dir : String)
    (world : σ) (store : Store) (entry : DirEntry) :
    perform world (Store.loadEntry codec files dir store entry) =
      ((files.view world).takeIn codec dir store entry, world) := by
  unfold Store.loadEntry FileView.takeIn DirEntry.layer? FileView.mask
  cases entry.isFile with
  | false => rfl
  | true =>
    cases LayerName.ofFileName? entry.name with
    | none => rfl
    | some name =>
      simp only [Bool.not_true, Bool.false_eq_true, if_false, if_true]
      refine (perform_bind_ok (perform_read passive (joinPath dir entry.name) world) _).trans ?_
      cases codec.decodeRead ((files.view world).read (joinPath dir entry.name)) <;> rfl

theorem perform_foldlM_loadEntry (passive : files.IsPassive) (codec : ImageCodec) (dir : String)
    (world : σ) (entries : List DirEntry) (store : Store) :
    perform world (entries.foldlM (Store.loadEntry codec files dir) store) =
      (entries.foldlM ((files.view world).takeIn codec dir) store, world) := by
  induction entries generalizing store with
  | nil => rfl
  | cons entry rest ih =>
    have first := perform_loadEntry passive codec dir world store entry
    rw [List.foldlM_cons, List.foldlM_cons]
    cases taken : (files.view world).takeIn codec dir store entry with
    | error halt =>
      rw [taken] at first
      rw [perform_bind_error first]
      rfl
    | ok next =>
      rw [taken] at first
      rw [perform_bind_ok first, ih]
      rfl

/-- Loading comes to the masks of the directory and leaves the world as it is. -/
theorem perform_load (passive : files.IsPassive) (codec : ImageCodec) (dir : String) (world : σ) :
    perform world (Store.load codec files dir) = ((files.view world).masks codec dir, world) := by
  unfold Store.load FileView.masks
  refine (perform_bind_ok (perform_list passive dir world) _).trans ?_
  cases (files.view world).list dir with
  | none => rfl
  | some entries => exact perform_foldlM_loadEntry passive codec dir world _ _

end Koi
