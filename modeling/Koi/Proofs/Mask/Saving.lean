import Koi.Proofs.Mask.Directory
import Koi.Proofs.Png.RoundTrip

/-!
# Saving masks and loading them

Masks that are written into an empty directory, in any order, are the masks that are loaded from it.

* `FileTree.saveMasks`: writes masks into a directory.
* `FileTree.Stocked`: a directory holds the files of some masks and nothing else. `Stocked.save`
  says what one more mask does to it, and `Stocked.saveMasks` what many do.
* `FileTree.Stocked.isStoreOf`: the store that such a directory holds.
* `FileTree.load_directory`: what loading a directory comes to.
-/

namespace Koi

namespace ImageCodec

/-- The codec that refuses a file where the decoder panics. -/
def refusing (codec : ImageCodec) : ImageCodec where
  encode? := codec.encode?
  decode file := (codec.decode file).mapError fun _ => .refused

theorem neverPanics_refusing (codec : ImageCodec) : codec.refusing.NeverPanics := by
  intro file
  show (codec.decode file).mapError (fun _ => DecodeFault.refused) ≠ .error .panic
  cases codec.decode file <;> rintro ⟨⟩

theorem IsLossless.refusing {codec : ImageCodec} {image : Image} (h : codec.IsLossless image) :
    codec.refusing.IsLossless image := by
  obtain ⟨file, encoded, decoded⟩ := h
  exact ⟨file, encoded, congrArg (Except.mapError _) decoded⟩

end ImageCodec

namespace FileTree

variable {tree saved : FileTree} {codec : ImageCodec} {dir : String} {place : Place}
  {name : LayerName} {mask : Image} {file : ByteArray} {masks done : List (LayerName × Image)}
  {store : Store}

/-- Writes masks into a directory, each under the file name of its layer. -/
def saveMasks {m : Type → Type} [Monad m] (codec : ImageCodec) (files : FileAccess m) (dir : String)
    (masks : List (LayerName × Image)) : ExceptT Halt m Unit :=
  masks.forM fun (name, mask) => codec.save files (joinPath dir name.fileName) mask

/-- A mask whose name can be read back, and whose pixels can. -/
structure Storable (codec : ImageCodec) (entry : LayerName × Image) : Prop where
  readable : entry.1.IsReadable
  lossless : codec.IsLossless entry.2

/-- The file of a mask is where a path to the directory and the name of the layer lead. -/
structure Stored (tree : FileTree) (codec : ImageCodec) (dir : String) (place : Place)
    (entry : LayerName × Image) : Prop where
  short : (joinPath dir entry.1.fileName).utf8ByteSize ≤ maxPathSize
  shows : ∃ file, codec.decode file = .ok entry.2 ∧
    tree.node? (entry.1.fileName :: place) = some (.file file)

/-- A directory holds the files of some masks and nothing else. -/
structure Stocked (tree : FileTree) (codec : ImageCodec) (dir : String) (place : Place)
    (masks : List (LayerName × Image)) : Prop where
  leads : tree.LeadsTo dir place
  entries : tree.nodes.filterMap (childOf? dir place) =
    masks.map fun entry => ⟨entry.1.fileName, true⟩
  storable : ∀ entry ∈ masks, Storable codec entry
  stored : ∀ entry ∈ masks, tree.Stored codec dir place entry

theorem stocked_nil (codec : ImageCodec) (listed : tree.list dir = some []) :
    ∃ place, tree.Stocked codec dir place [] := by
  obtain ⟨place, leads, entries⟩ := list_eq_some_iff.1 listed
  exact ⟨place, leads, entries, by simp, by simp⟩

/-- A path that is too long leads nowhere. -/
theorem short_of_perform_save (encoded : codec.encode? mask = some file) {path : String}
    (h : perform tree (codec.save access path mask) = (.ok (), saved)) :
    path.utf8ByteSize ≤ maxPathSize := by
  rw [perform_save encoded] at h
  cases target : tree.target? path with
  | none =>
    rw [target] at h
    cases congrArg Prod.fst h
  | some place =>
    obtain ⟨-, -, -, -, leads, -⟩ := exists_of_target? target
    exact (isPath_iff.1 leads).2

/-- Masks are only written to paths that are not too long. -/
theorem short_of_perform_saveMasks (storable : ∀ entry ∈ masks, Storable codec entry)
    (h : perform tree (saveMasks codec access dir masks) = (.ok (), saved)) :
    ∀ entry ∈ masks, (joinPath dir entry.1.fileName).utf8ByteSize ≤ maxPathSize := by
  induction masks generalizing tree with
  | nil => simp
  | cons entry rest ih =>
    obtain ⟨first, storable⟩ := List.forall_mem_cons.1 storable
    obtain ⟨file, encoded, -⟩ := first.lossless
    unfold saveMasks at h
    rw [List.forM_eq_forM, List.forM_cons] at h
    cases put : perform tree (codec.save access (joinPath dir entry.1.fileName) entry.2) with
    | mk result next =>
      cases result with
      | error halt =>
        rw [perform_bind_error put] at h
        cases congrArg Prod.fst h
      | ok done =>
        rw [perform_bind_ok put] at h
        exact List.forall_mem_cons.2 ⟨short_of_perform_save encoded put, ih storable h⟩

namespace Stocked

/-- Writing one more mask puts its file into the directory. -/
theorem save (h : tree.Stocked codec dir place done) (storable : Storable codec (name, mask))
    (fresh : ∀ entry ∈ done, entry.1 ≠ name)
    (short : (joinPath dir name.fileName).utf8ByteSize ≤ maxPathSize) :
    ∃ saved, perform tree (codec.save access (joinPath dir name.fileName) mask) = (.ok (), saved) ∧
      saved.Stocked codec dir place ((name, mask) :: done) := by
  obtain ⟨file, encoded, decoded⟩ := storable.lossless
  have new_name : ∀ entry ∈ tree.nodes.filterMap (childOf? dir place),
      entry.name ≠ name.fileName := by
    rw [h.entries]
    intro entry he same
    obtain ⟨other, ho, rfl⟩ := List.mem_map.1 he
    exact fresh other ho
      (LayerName.fileName_injective (h.storable other ho).readable storable.readable same)
  have free : tree.isDirectory (name.fileName :: place) = false := by
    rw [isDirectory, node?_eq_none new_name]
    rfl
  have plain := LayerName.isPlain_fileName name
  have target := h.leads.target?_joinPath plain.no_slash (LayerName.isFileName_fileName name) short
    free
  refine ⟨tree.set (name.fileName :: place) (.file file), ?_, ?_⟩
  · rw [perform_save encoded, target]
  · refine ⟨h.leads.set_file free file, ?_, List.forall_mem_cons.2 ⟨storable, h.storable⟩,
      List.forall_mem_cons.2 ⟨⟨short, file, decoded, tree.node?_set_self _ _ _⟩, ?_⟩⟩
    · rw [filterMap_childOf?_set_file short new_name, h.entries]
      rfl
    · intro entry he
      obtain ⟨short', file', decoded', there⟩ := h.stored entry he
      refine ⟨short', file', decoded', ?_⟩
      rw [node?_set_of_ne, there]
      intro same
      exact fresh entry he (LayerName.fileName_injective (h.storable entry he).readable
        storable.readable (List.cons.inj same).1)

/-- Writing masks that the directory does not hold yet puts their files into it. -/
theorem saveMasks (h : tree.Stocked codec dir place done)
    (storable : ∀ entry ∈ masks, Storable codec entry) (distinct : (masks.map Prod.fst).Nodup)
    (fresh : ∀ entry ∈ masks, ∀ other ∈ done, other.1 ≠ entry.1)
    (short : ∀ entry ∈ masks, (joinPath dir entry.1.fileName).utf8ByteSize ≤ maxPathSize) :
    ∃ saved, perform tree (FileTree.saveMasks codec access dir masks) = (.ok (), saved) ∧
      saved.Stocked codec dir place (masks.reverse ++ done) := by
  induction masks generalizing tree done with
  | nil => exact ⟨tree, rfl, h⟩
  | cons entry rest ih =>
    obtain ⟨name, mask⟩ := entry
    obtain ⟨first, storable⟩ := List.forall_mem_cons.1 storable
    obtain ⟨fresh_here, fresh⟩ := List.forall_mem_cons.1 fresh
    obtain ⟨short_here, short⟩ := List.forall_mem_cons.1 short
    obtain ⟨other_names, distinct⟩ := List.nodup_cons.1 distinct
    obtain ⟨next, put, stocked⟩ := h.save first fresh_here short_here
    have fresh_next : ∀ entry ∈ rest, ∀ other ∈ (name, mask) :: done, other.1 ≠ entry.1 := by
      intro entry he
      refine List.forall_mem_cons.2 ⟨fun same => ?_, fresh entry he⟩
      exact other_names (List.mem_map.2 ⟨entry, he, same.symm⟩)
    obtain ⟨saved, performed, all⟩ := ih stocked storable distinct fresh_next short
    refine ⟨saved, ?_, ?_⟩
    · exact (perform_bind_ok put _).trans performed
    · rwa [List.reverse_cons, List.append_assoc, List.singleton_append]

theorem hasMask_iff (h : tree.Stocked codec dir place masks) (name : LayerName) :
    tree.view.HasMask dir name ↔ ∃ mask, (name, mask) ∈ masks := by
  have listed : tree.view.list dir = some _ := list_eq_some_iff.2 ⟨place, h.leads, h.entries⟩
  constructor
  · rintro ⟨readable, entries, ho, hm⟩
    obtain rfl := Option.some.inj (listed.symm.trans ho)
    obtain ⟨⟨other, mask⟩, he, same⟩ := List.mem_map.1 hm
    obtain rfl := LayerName.fileName_injective (h.storable _ he).readable readable
      (congrArg DirEntry.name same)
    exact ⟨mask, he⟩
  · rintro ⟨mask, he⟩
    exact ⟨(h.storable _ he).readable, _, listed, List.mem_map.2 ⟨_, he, rfl⟩⟩

theorem picture_eq (h : tree.Stocked codec dir place masks) (he : (name, mask) ∈ masks) :
    tree.view.picture codec dir name = .ok mask := by
  obtain ⟨short, file, decoded, there⟩ := h.stored _ he
  rw [FileView.picture, read_view, h.leads.read_joinPath (LayerName.isPlain_fileName name) short,
    there]
  exact decoded

/-- The store of the masks whose files the directory holds. -/
theorem isStoreOf (h : tree.Stocked codec dir place masks) (same : masks.Perm store.masks.toList) :
    tree.view.IsStoreOf codec dir store where
  listed := by
    rw [list_view, list_eq_some_iff.2 ⟨place, h.leads, h.entries⟩]
    rintro ⟨⟩
  shows name has := by
    obtain ⟨mask, he⟩ := (h.hasMask_iff name).1 has
    exact ⟨mask, h.picture_eq he,
      Std.ExtTreeMap.mem_toList_iff_getElem?_eq_some.1 (same.mem_iff.1 he)⟩
  nothing_else name absent := by
    refine Option.eq_none_iff_forall_ne_some.2 fun mask held => absent ?_
    have he := same.mem_iff.2 (Std.ExtTreeMap.mem_toList_iff_getElem?_eq_some.2 held)
    exact (h.hasMask_iff name).2 ⟨mask, he⟩

end Stocked

/-! ## Saving and loading -/

theorem nodup_of_perm (same : masks.Perm store.masks.toList) : (masks.map Prod.fst).Nodup := by
  rw [(same.map Prod.fst).nodup_iff, Std.ExtTreeMap.map_fst_toList_eq_keys]
  exact Std.ExtTreeMap.nodup_keys

/-- Masks can be written into an empty directory if no path is too long. -/
theorem exists_saveMasks (listed : tree.list dir = some []) (distinct : (masks.map Prod.fst).Nodup)
    (storable : ∀ entry ∈ masks, Storable codec entry)
    (short : ∀ entry ∈ masks, (joinPath dir entry.1.fileName).utf8ByteSize ≤ maxPathSize) :
    ∃ place saved, perform tree (saveMasks codec access dir masks) = (.ok (), saved) ∧
      saved.Stocked codec dir place masks.reverse := by
  obtain ⟨place, empty⟩ := stocked_nil codec listed
  obtain ⟨saved, performed, stocked⟩ := empty.saveMasks storable distinct (by simp) short
  rw [List.append_nil] at stocked
  exact ⟨place, saved, performed, stocked⟩

/-- The masks that were written are the masks that are loaded. -/
theorem masks_of_perform_saveMasks (listed : tree.list dir = some [])
    (same : masks.Perm store.masks.toList) (storable : ∀ entry ∈ masks, Storable codec entry)
    (h : perform tree (saveMasks codec access dir masks) = (.ok (), saved)) :
    saved.view.masks codec dir = .ok store := by
  obtain ⟨place, written, performed, stocked⟩ := exists_saveMasks listed (nodup_of_perm same)
    storable (short_of_perform_saveMasks storable h)
  obtain rfl : saved = written := congrArg Prod.snd (h.symm.trans performed)
  exact FileView.masks_eq_ok_iff.2 (stocked.isStoreOf (masks.reverse_perm.trans same))

/-- Loading a directory is halted exactly if the directory cannot be read or a regular file with the
    name of a layer's file in it shows no image. If decoding is a partial function, this is a
    failure; it names the directory or the first of these files. A decoder that panics at the first
    of them is the only other way. Otherwise the store has a mask for each layer with a file, and it
    is what this file shows. A layer has one file name, so no two files compete; nothing else in the
    directory has an effect, and no file is changed. So what is loaded from an empty directory after
    masks were written into it, in any order, is the store of these masks. -/
theorem load_directory (codec : ImageCodec) (tree : FileTree) (dir : String) :
    (perform tree (Store.load codec access dir)).2 = tree ∧
    ((∃ halt, (perform tree (Store.load codec access dir)).1 = .error halt) ↔
      tree.list dir = none ∨ ∃ name, tree.view.HasMask dir name ∧
        ∃ fault, tree.view.picture codec dir name = .error fault) ∧
    (codec.NeverPanics →
      ((∃ e, (perform tree (Store.load codec access dir)).1 = .error (.failure e)) ↔
        tree.list dir = none ∨ ∃ name, tree.view.HasMask dir name ∧
          tree.view.picture codec dir name = .error .refused)) ∧
    (∀ e, (perform tree (Store.load codec access dir)).1 = .error (.failure e) ↔
      tree.list dir = none ∧ e = .assetLoad dir ∨
      ∃ name, tree.view.FirstBroken codec dir name .refused ∧
        e = .assetLoad (joinPath dir name.fileName)) ∧
    ((perform tree (Store.load codec access dir)).1 = .error .panic ↔
      ∃ name, tree.view.FirstBroken codec dir name .panic) ∧
    (∀ store, (perform tree (Store.load codec access dir)).1 = .ok store → ∀ name,
      (store.contains name = true ↔ tree.view.HasMask dir name) ∧
      ∀ mask, store.get? name = some mask → tree.view.picture codec dir name = .ok mask) ∧
    (∀ file name, LayerName.ofFileName? file = some name ↔
      file = name.fileName ∧ name.IsReadable) ∧
    (∀ other : FileTree, tree.view.SameMasks other.view codec dir →
      (perform other (Store.load codec access dir)).1 =
        (perform tree (Store.load codec access dir)).1) ∧
    ∀ (store : Store) (masks : List (LayerName × Image)), tree.list dir = some [] →
      masks.Perm store.masks.toList → (∀ entry ∈ masks, Storable codec entry) →
      (∀ saved, perform tree (saveMasks codec access dir masks) = (.ok (), saved) →
        perform saved (Store.load codec access dir) = (.ok store, saved)) ∧
      ((∀ entry ∈ masks, (joinPath dir entry.1.fileName).utf8ByteSize ≤ maxPathSize) →
        ∃ saved, perform tree (saveMasks codec access dir masks) = (.ok (), saved)) := by
  simp only [perform_load isPassive_access]
  refine ⟨trivial, FileView.exists_masks_eq_error_iff, FileView.exists_masks_eq_failure_iff,
    fun e => FileView.masks_eq_failure_iff, FileView.masks_eq_panic_iff, ?_,
    LayerName.ofFileName?_eq_some_iff, fun other same => same.masks_eq.symm, ?_⟩
  · intro store loaded name
    have holds := FileView.masks_eq_ok_iff.1 loaded
    exact ⟨holds.contains_iff name, holds.picture_of_get? name⟩
  · intro store masks listed same storable
    refine ⟨fun saved performed => ?_, fun short => ?_⟩
    · exact congrArg (·, saved) (masks_of_perform_saveMasks listed same storable performed)
    · obtain ⟨-, saved, performed, -⟩ :=
        exists_saveMasks listed (nodup_of_perm same) storable short
      exact ⟨saved, performed⟩

/-- The store with one mask, of two pixels. -/
def pairStore : Store :=
  Store.empty.insert .body (.pair (.rgba 1 2 3 128) (.rgba 250 40 9 255))

theorem eq_of_mem_pairStore {entry : LayerName × Image} (h : entry ∈ pairStore.masks.toList) :
    entry = (.body, .pair (.rgba 1 2 3 128) (.rgba 250 40 9 255)) := by
  obtain ⟨name, mask⟩ := entry
  have held : pairStore.get? name = some mask :=
    Std.ExtTreeMap.mem_toList_iff_getElem?_eq_some.1 h
  by_cases same : LayerName.body = name
  · subst same
    simpa [pairStore] using held.symm
  · simp [pairStore, same] at held

/-- The directory of the trees here. -/
theorem leadsTo_folder_m (files : List (String × ByteArray)) :
    (folder "m" files).LeadsTo "/m" ["m"] :=
  leadsTo_folder ⟨by decide, by decide⟩ (by decide +kernel) files

/-- Two files of layers without an image, and a text file; the files are not in order. -/
def brokenFolder : FileTree :=
  folder "m" [("fin.png", .empty), ("notes.txt", .empty), ("body.png", .empty)]

theorem firstBroken_brokenFolder :
    brokenFolder.view.FirstBroken Png.codec.refusing "/m" .body .refused := by
  have listed : brokenFolder.list "/m" =
      some [⟨"fin.png", true⟩, ⟨"notes.txt", true⟩, ⟨"body.png", true⟩] :=
    list_folder (leadsTo_folder_m _) (by decide +kernel)
  have content : brokenFolder.read (joinPath "/m" "body.png") = some .empty :=
    read_folder (leadsTo_folder_m _) ⟨by decide, by decide⟩ (by decide +kernel)
  refine ⟨⟨fun region => by simp, _, listed, by decide⟩, ?_, fun other has _ => ?_⟩
  · show Png.codec.refusing.decodeRead (brokenFolder.read (joinPath "/m" "body.png")) = _
    rw [content]
    rfl
  · obtain ⟨entry, he, layer⟩ := (FileView.hasMask_iff listed).1 has
    obtain ⟨rfl, -⟩ := (DirEntry.layer?_eq_some_iff entry).1 layer
    have first : ∀ entry ∈ ([⟨"fin.png", true⟩, ⟨"notes.txt", true⟩, ⟨"body.png", true⟩] :
        List DirEntry), LayerName.body.fileName ≤ entry.name := by decide
    exact first _ he

/-- A mask is written into an empty directory, a text file does not count as one, and of two files
    without an image the first one in order is named. -/
theorem load_directory_saved :
    (∃ saved, perform (folder "m" []) (saveMasks Png.codec.refusing access "/m"
        pairStore.masks.toList) = (.ok (), saved) ∧
      perform saved (Store.load Png.codec.refusing access "/m") = (.ok pairStore, saved)) ∧
    (perform (folder "m" [("notes.txt", .empty)]) (Store.load Png.codec.refusing access "/m")).1 =
      (perform (folder "m" []) (Store.load Png.codec.refusing access "/m")).1 ∧
    (∃ e, (perform brokenFolder (Store.load Png.codec.refusing access "/m")).1 =
      .error (.failure e)) ∧
    (perform brokenFolder (Store.load Png.codec.refusing access "/m")).1 =
      .error (.failure (.assetLoad "/m/body.png")) := by
  have empty : (folder "m" []).list "/m" = some [] :=
    list_folder (leadsTo_folder_m _) (by simp)
  have noted : (folder "m" [("notes.txt", .empty)]).list "/m" = some [⟨"notes.txt", true⟩] :=
    list_folder (leadsTo_folder_m _) (by decide +kernel)
  have nothing (name : LayerName) : ¬ (folder "m" []).view.HasMask "/m" name := by
    rw [FileView.hasMask_iff empty]
    simp
  have nothing_noted (name : LayerName) :
      ¬ (folder "m" [("notes.txt", .empty)]).view.HasMask "/m" name := by
    have foreign : DirEntry.layer? ⟨"notes.txt", true⟩ = none := by decide
    rw [FileView.hasMask_iff noted]
    simp [foreign]
  have lossless : Png.codec.refusing.IsLossless (.pair (.rgba 1 2 3 128) (.rgba 250 40 9 255)) :=
    (Png.isLossless (by decide) (by unfold Png.IsSmall; decide)).refusing
  obtain ⟨-, -, -, -, -, -, -, others, saving⟩ :=
    load_directory Png.codec.refusing (folder "m" []) "/m"
  obtain ⟨loaded, written⟩ := saving pairStore pairStore.masks.toList empty (.refl _)
    (fun entry he => by
      rw [eq_of_mem_pairStore he]
      exact ⟨fun region => by simp, lossless⟩)
  obtain ⟨saved, performed⟩ := written fun entry he => by
    rw [eq_of_mem_pairStore he]
    decide +kernel
  have path : joinPath "/m" LayerName.body.fileName = "/m/body.png" := by decide +kernel
  have broken := firstBroken_brokenFolder
  obtain ⟨-, -, fails, named, -⟩ := load_directory Png.codec.refusing brokenFolder "/m"
  refine ⟨⟨saved, performed, loaded saved performed⟩, others _ ⟨?_, ?_, ?_⟩,
    (fails (Png.codec.neverPanics_refusing)).2 (.inr ⟨.body, broken.has_mask, broken.broken⟩),
    (named _).2 (.inr ⟨.body, broken, by rw [path]⟩)⟩
  · rw [list_view, list_view, empty, noted]
    simp
  · exact fun name => iff_of_false (nothing name) (nothing_noted name)
  · exact fun name has => absurd has (nothing name)

end FileTree

end Koi
