import Koi.Proofs.Files.Directory
import Koi.Proofs.Layer
import Koi.Proofs.Mask.Loading
import Mathlib.Data.Nat.Digits.Defs
import Mathlib.Data.String.Basic

/-!
# The masks of a directory

Each layer has one file in a directory, so no two files compete for a layer. The files of layers
decide what is loaded, and nothing else in the directory does.

* `FileView.HasMask`, `FileView.picture`: whether a layer has a file in a directory, and what the
  file shows.
* `FileView.masks_eq_ok_iff`: what is loaded if every such file shows an image.
* `FileView.masks_eq_error_iff`: loading is halted by the first file that shows none;
  `masks_eq_failure_iff` and `masks_eq_panic_iff` say in which way.
* `FileView.exists_masks`: when loading succeeds.
* `FileView.SameMasks.masks_eq`: other entries are without effect.
-/

namespace Koi

variable {view other : FileView} {codec : ImageCodec} {dir : String} {name : LayerName}
  {store : Store} {halt : Halt}

/-! ## The files of layers -/

theorem utf8Len_le (chars : List Char) : String.utf8Len chars ≤ 4 * chars.length := by
  induction chars with
  | nil => exact le_rfl
  | cons c rest ih =>
    have first := c.utf8Size_le_four
    rw [String.utf8Len_cons, List.length_cons]
    omega

namespace LayerName

/-- The characters that no file name may have in a path. -/
theorem not_mem_fileName : ∀ c ∈ ['/', '\x00'], c ∉ name.fileName.toList := by
  intro c hc
  have common : c ∉ '_' :: fileEnding.toList ∧ ¬ '0' ≤ c ∧
      (∀ region : Region, c ∉ region.name.toList) ∧
      ∀ name ∈ [body, fin, outline], c ∉ name.render.toList := by
    simp only [List.mem_cons, List.not_mem_nil, or_false] at hc
    obtain rfl | rfl := hc
    all_goals exact ⟨by decide, by decide, fun region => by cases region <;> decide, by decide⟩
  obtain ⟨other, digit, word, plain⟩ := common
  rw [List.mem_cons, not_or] at other
  rw [toList_fileName, List.mem_append, not_or]
  refine ⟨?_, other.2⟩
  cases name with
  | body | fin | outline => exact plain _ (by simp)
  | pattern region number =>
    rw [toList_render_pattern, List.mem_append, List.mem_cons, not_or, not_or]
    exact ⟨word region, other.1, fun h => digit (Decimal.isNumeral_toDigits number.toNat c h).1⟩

theorem length_render_le (name : LayerName) : name.render.toList.length ≤ 8 := by
  cases name with
  | body | fin | outline => decide
  | pattern region number =>
    have small : number.toNat < 10 ^ 3 := number.toNat_lt.trans (by decide)
    have digits := Nat.toDigits_length 10 number.toNat 3 (by decide) small
    have letters : region.name.toList.length ≤ 4 := by cases region <;> decide
    rw [toList_render_pattern, List.length_append, List.length_cons]
    omega

theorem length_fileName (name : LayerName) :
    4 ≤ name.fileName.toList.length ∧ name.fileName.toList.length ≤ 12 := by
  have short := length_render_le name
  have ending : fileEnding.toList.length = 4 := by decide
  rw [toList_fileName, List.length_append]
  omega

theorem leadsDown_fileName (name : LayerName) : FileTree.LeadsDown name.fileName := by
  have long := (length_fileName name).1
  refine ⟨?_, ?_, ?_⟩ <;> intro h <;> rw [h] at long <;> exact absurd long (by decide)

theorem isPlain_fileName (name : LayerName) : FileTree.IsPlain name.fileName where
  down := leadsDown_fileName name
  no_slash := not_mem_fileName '/' (by simp)

/-- A file can have the name that is written for a layer. -/
theorem isFileName_fileName (name : LayerName) : FileTree.isFileName name.fileName = true := by
  obtain ⟨not_empty, not_dot, not_up⟩ := leadsDown_fileName name
  have short : name.fileName.utf8ByteSize ≤ FileTree.maxNameSize := by
    have length := (length_fileName name).2
    have bytes := utf8Len_le name.fileName.toList
    rw [String.utf8Len_toList] at bytes
    simp only [FileTree.maxNameSize]
    omega
  have zero : '\x00' ∉ name.fileName.toList := not_mem_fileName '\x00' (by simp)
  simp [FileTree.isFileName, not_empty, not_dot, not_up, short, zero]

end LayerName

theorem DirEntry.layer?_eq_some_iff (entry : DirEntry) :
    entry.layer? = some name ↔ entry = ⟨name.fileName, true⟩ ∧ name.IsReadable := by
  obtain ⟨file, isFile⟩ := entry
  cases isFile with
  | false => simp [layer?]
  | true => simp [layer?, LayerName.ofFileName?_eq_some_iff]

/-! ## What a directory holds -/

namespace FileView

/-- A regular file in the directory has the name that is written for this layer. -/
structure HasMask (view : FileView) (dir : String) (name : LayerName) : Prop where
  readable : name.IsReadable
  listed : ∃ entries, view.list dir = some entries ∧ ⟨name.fileName, true⟩ ∈ entries

/-- What the file of a layer shows. -/
def picture (view : FileView) (codec : ImageCodec) (dir : String) (name : LayerName) :
    Except DecodeFault Image :=
  codec.decodeRead (view.read (joinPath dir name.fileName))

theorem picture_ne_panic (calm : codec.NeverPanics) :
    view.picture codec dir name ≠ .error .panic := by
  unfold picture
  cases view.read (joinPath dir name.fileName) with
  | none => rintro ⟨⟩
  | some file => exact calm file

/-- The first file of a layer, in the order of names, that does not show an image. -/
structure FirstBroken (view : FileView) (codec : ImageCodec) (dir : String) (name : LayerName)
    (fault : DecodeFault) : Prop where
  has_mask : view.HasMask dir name
  broken : view.picture codec dir name = .error fault
  first : ∀ other, view.HasMask dir other → (∃ fault, view.picture codec dir other = .error fault) →
    name.fileName ≤ other.fileName

/-- The store has the images that the files of layers show, each under its layer. -/
structure IsStoreOf (view : FileView) (codec : ImageCodec) (dir : String) (store : Store) :
    Prop where
  listed : view.list dir ≠ none
  shows : ∀ name, view.HasMask dir name →
    ∃ mask, view.picture codec dir name = .ok mask ∧ store.get? name = some mask
  nothing_else : ∀ name, ¬ view.HasMask dir name → store.get? name = none

/-! ## One entry after the other -/

theorem takeIn_of_layer {entry : DirEntry} (h : entry.layer? = some name) :
    view.takeIn codec dir store entry =
      ((view.picture codec dir name).map (store.insert name)).mapError
        (DecodeFault.halt (joinPath dir name.fileName)) := by
  have layer := h
  obtain ⟨rfl, -⟩ := (DirEntry.layer?_eq_some_iff entry).1 h
  rw [takeIn, layer, mask, picture]
  cases codec.decodeRead (view.read (joinPath dir name.fileName)) <;> rfl

/-- If the work goes to its end, each layer has the image that its file shows. -/
theorem get?_of_foldlM_takeIn {entries : List DirEntry} {result : Store}
    (h : entries.foldlM (view.takeIn codec dir) store = .ok result) :
    (∀ entry ∈ entries, ∀ name, entry.layer? = some name →
      ∃ mask, view.picture codec dir name = .ok mask ∧ result.get? name = some mask) ∧
    ∀ name, (∀ entry ∈ entries, entry.layer? ≠ some name) →
      result.get? name = store.get? name := by
  induction entries generalizing store with
  | nil =>
    obtain rfl := Except.ok.inj h
    exact ⟨by simp, fun _ _ => rfl⟩
  | cons entry rest ih =>
    rw [List.foldlM_cons] at h
    cases layer : entry.layer? with
    | none =>
      rw [takeIn, layer] at h
      obtain ⟨shown, kept⟩ := ih h
      refine ⟨fun other ho => ?_, fun name absent => kept name (List.forall_mem_cons.1 absent).2⟩
      obtain rfl | later := List.mem_cons.1 ho
      · simp [layer]
      · exact shown other later
    | some first =>
      rw [takeIn_of_layer layer] at h
      cases decoded : view.picture codec dir first with
      | error fault =>
        rw [decoded] at h
        cases h
      | ok mask =>
        rw [decoded] at h
        obtain ⟨shown, kept⟩ := ih h
        refine ⟨fun other ho name hn => ?_, fun name absent => ?_⟩
        · obtain rfl | later := List.mem_cons.1 ho
          · obtain rfl : first = name := Option.some.inj (layer.symm.trans hn)
            -- A later entry of the same layer has the same file.
            by_cases again : ∃ entry ∈ rest, entry.layer? = some first
            · obtain ⟨entry, he, hl⟩ := again
              exact shown entry he first hl
            · refine ⟨mask, decoded, ?_⟩
              rw [kept first fun entry he hl => again ⟨entry, he, hl⟩, Store.get?_insert,
                if_pos rfl]
          · exact shown other later name hn
        · obtain ⟨here, later⟩ := List.forall_mem_cons.1 absent
          rw [kept name later, Store.get?_insert, if_neg]
          rintro rfl
          exact here layer

/-- If the work fails, it has come to an entry whose file shows no image, and all files before show
    one. -/
theorem exists_of_foldlM_takeIn_error {entries : List DirEntry}
    (h : entries.foldlM (view.takeIn codec dir) store = .error halt) :
    ∃ before entry after name fault, entries = before ++ entry :: after ∧
      entry.layer? = some name ∧ view.picture codec dir name = .error fault ∧
      halt = fault.halt (joinPath dir name.fileName) ∧
      ∀ entry ∈ before, ∀ name, entry.layer? = some name →
        ∃ mask, view.picture codec dir name = .ok mask := by
  induction entries generalizing store with
  | nil => cases h
  | cons entry rest ih =>
    rw [List.foldlM_cons] at h
    cases layer : entry.layer? with
    | none =>
      rw [takeIn, layer] at h
      obtain ⟨before, broken, after, name, fault, rfl, hl, hp, he, shown⟩ := ih h
      refine ⟨entry :: before, broken, after, name, fault, rfl, hl, hp, he, ?_⟩
      exact List.forall_mem_cons.2 ⟨by simp [layer], shown⟩
    | some first =>
      rw [takeIn_of_layer layer] at h
      cases decoded : view.picture codec dir first with
      | error fault =>
        rw [decoded] at h
        exact ⟨[], entry, rest, first, fault, rfl, layer, decoded, (Except.error.inj h).symm,
          by simp⟩
      | ok mask =>
        rw [decoded] at h
        obtain ⟨before, broken, after, name, fault, rfl, hl, hp, he, shown⟩ := ih h
        refine ⟨entry :: before, broken, after, name, fault, rfl, hl, hp, he, ?_⟩
        refine List.forall_mem_cons.2 ⟨fun name hn => ?_, shown⟩
        obtain rfl : first = name := Option.some.inj (layer.symm.trans hn)
        exact ⟨mask, decoded⟩

/-! ## The whole directory -/

theorem hasMask_iff {entries : List DirEntry} (listed : view.list dir = some entries) :
    view.HasMask dir name ↔ ∃ entry ∈ entries, entry.layer? = some name := by
  constructor
  · rintro ⟨readable, others, ho, hm⟩
    obtain rfl := Option.some.inj (listed.symm.trans ho)
    exact ⟨_, hm, (DirEntry.layer?_eq_some_iff _).2 ⟨rfl, readable⟩⟩
  · rintro ⟨entry, hm, layer⟩
    obtain ⟨rfl, readable⟩ := (DirEntry.layer?_eq_some_iff entry).1 layer
    exact ⟨readable, entries, listed, hm⟩

theorem pairwise_mergeSort_name (entries : List DirEntry) :
    (entries.mergeSort fun a b => decide (a.name ≤ b.name)).Pairwise
      fun a b => a.name ≤ b.name := by
  have trans (a b c : DirEntry) (hab : decide (a.name ≤ b.name) = true)
      (hbc : decide (b.name ≤ c.name) = true) : decide (a.name ≤ c.name) = true :=
    decide_eq_true (String.le_trans (of_decide_eq_true hab) (of_decide_eq_true hbc))
  have total (a b : DirEntry) : (decide (a.name ≤ b.name) || decide (b.name ≤ a.name)) = true := by
    simpa using String.le_total a.name b.name
  exact (List.pairwise_mergeSort trans total entries).imp of_decide_eq_true

theorem isStoreOf_of_masks (h : view.masks codec dir = .ok store) :
    view.IsStoreOf codec dir store := by
  unfold masks at h
  cases listed : view.list dir with
  | none =>
    rw [listed] at h
    cases h
  | some entries =>
    rw [listed] at h
    obtain ⟨shown, kept⟩ := get?_of_foldlM_takeIn h
    refine ⟨by simp [listed], fun name has => ?_, fun name absent => ?_⟩
    · obtain ⟨entry, he, layer⟩ := (hasMask_iff listed).1 has
      exact shown entry (List.mem_mergeSort.2 he) name layer
    · rw [kept name, Store.get?_empty]
      intro entry he layer
      exact absent ((hasMask_iff listed).2 ⟨entry, List.mem_mergeSort.1 he, layer⟩)

/-- The entries are taken in the order of their names, so a failure comes from the first file that
    shows no image. -/
theorem firstBroken_of_masks (h : view.masks codec dir = .error halt) :
    view.list dir = none ∧ halt = .failure (.assetLoad dir) ∨
    ∃ name fault, view.FirstBroken codec dir name fault ∧
      halt = fault.halt (joinPath dir name.fileName) := by
  unfold masks at h
  cases listed : view.list dir with
  | none =>
    rw [listed] at h
    exact .inl ⟨rfl, (Except.error.inj h).symm⟩
  | some entries =>
    rw [listed] at h
    obtain ⟨before, entry, after, name, fault, split, layer, broken, he, shown⟩ :=
      exists_of_foldlM_takeIn_error h
    have mem_iff : ∀ other, other ∈ entries ↔ other ∈ before ++ entry :: after := fun other => by
      rw [← split, List.mem_mergeSort]
    have has : view.HasMask dir name :=
      (hasMask_iff listed).2 ⟨entry, (mem_iff entry).2 (by simp), layer⟩
    refine .inr ⟨name, fault, ⟨has, broken, fun other has_other ⟨fault', broken'⟩ => ?_⟩, he⟩
    obtain ⟨entry', hm, layer'⟩ := (hasMask_iff listed).1 has_other
    have ordered := pairwise_mergeSort_name entries
    rw [split, List.pairwise_append, List.pairwise_cons] at ordered
    obtain ⟨-, ⟨le_after, -⟩, -⟩ := ordered
    rw [((DirEntry.layer?_eq_some_iff entry).1 layer).1] at le_after
    rw [mem_iff, List.mem_append, List.mem_cons] at hm
    obtain early | rfl | late := hm
    · obtain ⟨mask, decoded⟩ := shown entry' early other layer'
      rw [decoded] at broken'
      cases broken'
    · obtain rfl : name = other := Option.some.inj (layer.symm.trans layer')
      exact String.le_refl _
    · have le := le_after entry' late
      rwa [((DirEntry.layer?_eq_some_iff entry').1 layer').1] at le

/-! ## Which store and which failure -/

theorem IsStoreOf.unique {one two : Store} (h : view.IsStoreOf codec dir one)
    (h' : view.IsStoreOf codec dir two) : one = two := by
  have same : ∀ name : LayerName, one.masks[name]? = two.masks[name]? := fun name => by
    show one.get? name = two.get? name
    by_cases has : view.HasMask dir name
    · obtain ⟨mask, decoded, held⟩ := h.shows name has
      obtain ⟨mask', decoded', held'⟩ := h'.shows name has
      rw [held, held', Except.ok.inj (decoded.symm.trans decoded')]
    · rw [h.nothing_else name has, h'.nothing_else name has]
  obtain ⟨masks⟩ := one
  obtain ⟨masks'⟩ := two
  exact congrArg Store.mk (Std.ExtTreeMap.ext_getElem? same)

theorem FirstBroken.unique {name' : LayerName} {fault fault' : DecodeFault}
    (h : view.FirstBroken codec dir name fault) (h' : view.FirstBroken codec dir name' fault') :
    name = name' ∧ fault = fault' := by
  have same : name.fileName = name'.fileName :=
    String.le_antisymm (h.first name' h'.has_mask ⟨fault', h'.broken⟩)
      (h'.first name h.has_mask ⟨fault, h.broken⟩)
  obtain rfl := LayerName.fileName_injective h.has_mask.readable h'.has_mask.readable same
  exact ⟨rfl, Except.error.inj (h.broken.symm.trans h'.broken)⟩

theorem IsStoreOf.not_broken (h : view.IsStoreOf codec dir store) (has : view.HasMask dir name)
    (fault : DecodeFault) : view.picture codec dir name ≠ .error fault := by
  obtain ⟨mask, decoded, -⟩ := h.shows name has
  rw [decoded]
  rintro ⟨⟩

/-- The store has a mask exactly for the layers with a file. -/
theorem IsStoreOf.contains_iff (h : view.IsStoreOf codec dir store) (name : LayerName) :
    store.contains name = true ↔ view.HasMask dir name := by
  rw [Store.contains_eq_isSome]
  by_cases has : view.HasMask dir name
  · obtain ⟨mask, -, held⟩ := h.shows name has
    simp [has, held]
  · simp [has, h.nothing_else name has]

theorem IsStoreOf.picture_of_get? (h : view.IsStoreOf codec dir store) (name : LayerName)
    (mask : Image) (held : store.get? name = some mask) :
    view.picture codec dir name = .ok mask := by
  have holds : store.contains name = true := by rw [Store.contains_eq_isSome, held, Option.isSome]
  obtain ⟨shown, decoded, held'⟩ := h.shows name ((h.contains_iff name).1 holds)
  rw [decoded, Option.some.inj (held.symm.trans held')]

/-- Loading succeeds with the store of the directory, and only with this one. -/
theorem masks_eq_ok_iff : view.masks codec dir = .ok store ↔ view.IsStoreOf codec dir store := by
  refine ⟨isStoreOf_of_masks, fun h => ?_⟩
  cases loaded : view.masks codec dir with
  | ok other => rw [(isStoreOf_of_masks loaded).unique h]
  | error halt =>
    obtain ⟨unlisted, -⟩ | ⟨name, fault, broken, -⟩ := firstBroken_of_masks loaded
    · exact absurd unlisted h.listed
    · exact absurd broken.broken (h.not_broken broken.has_mask fault)

/-- Loading fails with the directory or the first file without an image, and only with this one. -/
theorem masks_eq_error_iff : view.masks codec dir = .error halt ↔
    view.list dir = none ∧ halt = .failure (.assetLoad dir) ∨
    ∃ name fault, view.FirstBroken codec dir name fault ∧
      halt = fault.halt (joinPath dir name.fileName) := by
  refine ⟨firstBroken_of_masks, ?_⟩
  rintro (⟨unlisted, rfl⟩ | ⟨name, fault, broken, rfl⟩)
  · rw [masks, unlisted]
  · cases loaded : view.masks codec dir with
    | ok store =>
      have holds := isStoreOf_of_masks loaded
      exact absurd broken.broken (holds.not_broken broken.has_mask fault)
    | error halt =>
      obtain ⟨unlisted, -⟩ | ⟨other, fault', broken', rfl⟩ := firstBroken_of_masks loaded
      · obtain ⟨entries, listed, -⟩ := broken.has_mask.listed
        rw [unlisted] at listed
        cases listed
      · obtain ⟨rfl, rfl⟩ := broken'.unique broken
        rfl

/-- Loading fails exactly if the directory or the file of a layer in it cannot be read. -/
theorem exists_masks_eq_error_iff :
    (∃ halt, view.masks codec dir = .error halt) ↔ view.list dir = none ∨
      ∃ name, view.HasMask dir name ∧ ∃ fault, view.picture codec dir name = .error fault := by
  constructor
  · rintro ⟨halt, failed⟩
    obtain ⟨unlisted, -⟩ | ⟨name, fault, broken, -⟩ := masks_eq_error_iff.1 failed
    · exact .inl unlisted
    · exact .inr ⟨name, broken.has_mask, fault, broken.broken⟩
  · intro h
    cases loaded : view.masks codec dir with
    | error halt => exact ⟨halt, rfl⟩
    | ok store =>
      have holds := masks_eq_ok_iff.1 loaded
      obtain unlisted | ⟨name, has, fault, broken⟩ := h
      · exact absurd unlisted holds.listed
      · exact absurd broken (holds.not_broken has fault)

/-- Loading fails for the directory or for the first file without an image if it is refused, and
    panics if the decoder panics at this file. -/
theorem masks_eq_failure_iff {e : Error} : view.masks codec dir = .error (.failure e) ↔
    view.list dir = none ∧ e = .assetLoad dir ∨
    ∃ name, view.FirstBroken codec dir name .refused ∧
      e = .assetLoad (joinPath dir name.fileName) := by
  rw [masks_eq_error_iff]
  constructor
  · rintro (⟨unlisted, same⟩ | ⟨name, fault, broken, same⟩)
    · exact .inl ⟨unlisted, Halt.failure.inj same⟩
    · cases fault with
      | refused => exact .inr ⟨name, broken, Halt.failure.inj same⟩
      | panic => cases same
  · rintro (⟨unlisted, rfl⟩ | ⟨name, broken, rfl⟩)
    · exact .inl ⟨unlisted, rfl⟩
    · exact .inr ⟨name, .refused, broken, rfl⟩

theorem masks_eq_panic_iff : view.masks codec dir = .error .panic ↔
    ∃ name, view.FirstBroken codec dir name .panic := by
  rw [masks_eq_error_iff]
  constructor
  · rintro (⟨-, same⟩ | ⟨name, fault, broken, same⟩)
    · cases same
    · cases fault with
      | refused => cases same
      | panic => exact ⟨name, broken⟩
  · rintro ⟨name, broken⟩
    exact .inr ⟨name, .panic, broken, rfl⟩

/-- A decoder that never panics makes every file without an image a failure. -/
theorem exists_masks_eq_failure_iff (calm : codec.NeverPanics) :
    (∃ e, view.masks codec dir = .error (.failure e)) ↔ view.list dir = none ∨
      ∃ name, view.HasMask dir name ∧ view.picture codec dir name = .error .refused := by
  constructor
  · rintro ⟨e, failed⟩
    obtain ⟨unlisted, -⟩ | ⟨name, broken, -⟩ := masks_eq_failure_iff.1 failed
    · exact .inl unlisted
    · exact .inr ⟨name, broken.has_mask, broken.broken⟩
  · intro h
    obtain ⟨halt, failed⟩ := exists_masks_eq_error_iff.2
      (h.imp_right fun ⟨name, has, refused⟩ => ⟨name, has, .refused, refused⟩)
    cases halt with
    | failure e => exact ⟨e, failed⟩
    | panic =>
      obtain ⟨name, broken⟩ := masks_eq_panic_iff.1 failed
      exact absurd broken.broken (picture_ne_panic calm)

/-- If every file of a layer shows an image, the masks are those of these layers. -/
theorem exists_masks (listed : view.list dir ≠ none)
    (shown : ∀ name, view.HasMask dir name → ∃ mask, view.picture codec dir name = .ok mask) :
    ∃ store, view.masks codec dir = .ok store ∧
      ∀ name, store.contains name = true ↔ view.HasMask dir name := by
  cases loaded : view.masks codec dir with
  | ok store => exact ⟨store, rfl, (masks_eq_ok_iff.1 loaded).contains_iff⟩
  | error halt =>
    obtain unlisted | ⟨name, has, fault, broken⟩ := exists_masks_eq_error_iff.1 ⟨halt, loaded⟩
    · exact absurd unlisted listed
    · obtain ⟨mask, decoded⟩ := shown name has
      rw [decoded] at broken
      cases broken

/-! ## All other entries -/

/-- The same files of layers are seen in a directory. -/
structure SameMasks (view other : FileView) (codec : ImageCodec) (dir : String) : Prop where
  listed : view.list dir = none ↔ other.list dir = none
  files : ∀ name, view.HasMask dir name ↔ other.HasMask dir name
  pictures : ∀ name, view.HasMask dir name →
    view.picture codec dir name = other.picture codec dir name

namespace SameMasks

theorem isStoreOf (h : view.SameMasks other codec dir) (loaded : view.IsStoreOf codec dir store) :
    other.IsStoreOf codec dir store where
  listed := fun unlisted => loaded.listed (h.listed.2 unlisted)
  shows name has := by
    have here := (h.files name).2 has
    rw [← h.pictures name here]
    exact loaded.shows name here
  nothing_else name absent := loaded.nothing_else name fun has => absent ((h.files name).1 has)

theorem firstBroken {fault : DecodeFault} (h : view.SameMasks other codec dir)
    (broken : view.FirstBroken codec dir name fault) : other.FirstBroken codec dir name fault where
  has_mask := (h.files name).1 broken.has_mask
  broken := by rw [← h.pictures name broken.has_mask, broken.broken]
  first name' has := by
    have here := (h.files name').2 has
    rw [← h.pictures name' here]
    exact broken.first name' here

/-- Whatever else the directories hold is without effect. -/
theorem masks_eq (h : view.SameMasks other codec dir) :
    view.masks codec dir = other.masks codec dir := by
  symm
  cases loaded : view.masks codec dir with
  | ok store => exact masks_eq_ok_iff.2 (h.isStoreOf (masks_eq_ok_iff.1 loaded))
  | error halt =>
    refine masks_eq_error_iff.2 ?_
    obtain ⟨unlisted, rfl⟩ | ⟨name, fault, broken, rfl⟩ := masks_eq_error_iff.1 loaded
    · exact .inl ⟨h.listed.1 unlisted, rfl⟩
    · exact .inr ⟨name, fault, h.firstBroken broken, rfl⟩

end SameMasks

end FileView

end Koi
