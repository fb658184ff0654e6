import Koi.Proofs.Config
import Mathlib.Data.List.Forall2

/-!
# What a configuration is read from

Each setting comes from the value under its own key: it is what the value means, if it means
something that can be used, and the default otherwise.

* `Config.IsText`, `Config.IsCount`, `Config.IsEdge`, `Config.AreEdges`: the values that are used.
* `Config.Settled`: how one setting comes from a value that may be missing.
* `Config.IsReadFrom`: how all settings come from a value; `isReadFrom_iff` says that reading finds
  the one configuration of this kind.
* `Config.isReadFrom_toJson`: a written configuration with valid sizes is found again.
-/

namespace Koi

namespace Json

theorem unsigned?_eq_some_iff {value : Json} {n : UInt64} :
    value.unsigned? = some n ↔ value = .number (.unsigned n) := by
  constructor
  · intro h
    unfold unsigned? at h
    split at h
    · rw [Option.some.inj h]
    · cases h
  · rintro rfl
    rfl

theorem string?_eq_some_iff {value : Json} {s : String} :
    value.string? = some s ↔ value = .string s := by
  constructor
  · intro h
    unfold string? at h
    split at h
    · rw [Option.some.inj h]
    · cases h
  · rintro rfl
    rfl

theorem array?_eq_some_iff {value : Json} {items : List Json} :
    value.array? = some items ↔ value = .array items := by
  constructor
  · intro h
    unfold array? at h
    split at h
    · rw [Option.some.inj h]
    · cases h
  · rintro rfl
    rfl

end Json

namespace Config

/-! ## Values that are used -/

/-- The value is a text. -/
def IsText (value : Json) (text : String) : Prop := value = .string text

/-- The value is a count, written in plain digits. -/
def IsCount (value : Json) (n : UInt64) : Prop := value = .number (.unsigned n)

/-- The value is the edge of an image, written in plain digits. -/
def IsEdge (value : Json) (size : UInt32) : Prop :=
  value = .number (.unsigned size.toUInt64) ∧ ValidSize size

/-- The value is a list of edges, one for each item. -/
def AreEdges (value : Json) (sizes : List UInt32) : Prop :=
  ∃ items, value = .array items ∧ List.Forall₂ IsEdge items sizes

theorem toUInt64_toUInt32 {n : UInt64} (small : n.toNat < UInt32.size) :
    n.toUInt32.toUInt64 = n := by
  apply UInt64.toNat_inj.1
  rw [UInt32.toNat_toUInt64, UInt64.toNat_toUInt32]
  exact Nat.mod_eq_of_lt small

theorem size?_eq_some_iff {value : Json} {size : UInt32} :
    size? value = some size ↔ IsEdge value size := by
  constructor
  · intro h
    obtain ⟨n, hn, h⟩ := Option.bind_eq_some_iff.1 h
    split at h
    · next valid =>
      obtain rfl := Option.some.inj h
      exact ⟨by rw [toUInt64_toUInt32 valid.1, Json.unsigned?_eq_some_iff.1 hn], valid.2⟩
    · cases h
  · rintro ⟨rfl, valid⟩
    have small : size.toUInt64.toNat < UInt32.size := by
      rw [UInt32.toNat_toUInt64]
      exact size.toNat_lt
    show (if _ then _ else none) = _
    rw [UInt32.toUInt32_toUInt64, if_pos ⟨small, valid⟩]

theorem mapM_size?_eq_some_iff {items : List Json} {sizes : List UInt32} :
    items.mapM size? = some sizes ↔ List.Forall₂ IsEdge items sizes := by
  induction items generalizing sizes with
  | nil => cases sizes <;> simp
  | cons item items ih =>
    simp only [List.mapM_cons, Option.bind_eq_bind, Option.bind_eq_some_iff, size?_eq_some_iff, ih,
      Option.pure_def, Option.some.injEq, List.forall₂_cons_left_iff]
    simp only [eq_comm, exists_and_left]

theorem sizes?_eq_some_iff {value : Json} {sizes : List UInt32} :
    sizes? value = some sizes ↔ AreEdges value sizes := by
  simp only [sizes?, AreEdges, Option.bind_eq_bind, Option.bind_eq_some_iff,
    Json.array?_eq_some_iff, mapM_size?_eq_some_iff]

/-- One item that is not an edge spoils the list. -/
theorem not_areEdges_of_mem {items : List Json} {item : Json} (hm : item ∈ items)
    (unusable : ∀ size, ¬ IsEdge item size) (sizes : List UInt32) :
    ¬ AreEdges (.array items) sizes := by
  rintro ⟨other, heq, all⟩
  obtain rfl := Json.array.inj heq
  induction all with
  | nil => cases hm
  | @cons first size rest sizes edge _ ih =>
    rcases List.mem_cons.1 hm with rfl | hm
    · exact unusable size edge
    · exact ih hm rfl

/-! ## Settings -/

/-- A setting comes from a value that may be missing: it is what the value means, or a fallback if
    there is no value or it does not mean anything. -/
inductive Settled {α : Type} (Means : Json → α → Prop) (fallback : α) : Option Json → α → Prop
  | taken {value : Json} {a : α} : Means value a → Settled Means fallback (some value) a
  | unusable {member : Option Json} : (∀ value ∈ member, ∀ a, ¬ Means value a) →
    Settled Means fallback member fallback

theorem settled_iff {α : Type} (Means : Json → α → Prop) {read : Json → Option α}
    (reads : ∀ value a, read value = some a ↔ Means value a) (fallback : α)
    (member : Option Json) (a : α) :
    Settled Means fallback member a ↔ a = (member.bind read).getD fallback := by
  constructor
  · rintro (⟨means⟩ | ⟨unusable⟩)
    · rw [Option.bind_some, (reads _ _).2 means, Option.getD_some]
    · have nothing : member.bind read = none := by
        refine Option.bind_eq_none_iff.2 fun value hv => Option.eq_none_iff_forall_ne_some.2 ?_
        exact fun a ha => unusable value hv a ((reads value a).1 ha)
      rw [nothing, Option.getD_none]
  · rintro rfl
    cases taken : member.bind read with
    | none =>
      refine .unusable fun value hv a means => ?_
      have read_some := (reads value a).2 means
      rw [Option.mem_def.1 hv, Option.bind_some, read_some] at taken
      cases taken
    | some a =>
      obtain ⟨value, rfl, read_some⟩ := Option.bind_eq_some_iff.1 taken
      exact .taken ((reads value a).1 read_some)

/-- How the settings of a configuration come from a value. -/
structure IsReadFrom (json : Json) (c : Config) : Prop where
  assetDir : Settled IsText "images/koi" (json.member? "asset_dir") c.assetDir
  warmSizes : Settled AreEdges [200, 350, 1024] (json.member? "warm_sizes") c.warmSizes
  workerThreads : Settled IsCount 0 (json.member? "worker_threads") c.workerThreads
  defaultSize : Settled IsEdge 1024 (json.member? "default_size") c.defaultSize
  thumbnailSize : Settled IsEdge 200 (json.member? "thumbnail_size") c.thumbnailSize

/-- Reading finds the one configuration whose settings come from the value. -/
theorem isReadFrom_iff {json : Json} {c : Config} : c.IsReadFrom json ↔ c = ofJson json := by
  have assetDir := settled_iff IsText (fun _ _ => Json.string?_eq_some_iff) "images/koi"
    (json.member? "asset_dir") c.assetDir
  have warmSizes := settled_iff AreEdges (fun _ _ => sizes?_eq_some_iff) [200, 350, 1024]
    (json.member? "warm_sizes") c.warmSizes
  have workerThreads := settled_iff IsCount (fun _ _ => Json.unsigned?_eq_some_iff) 0
    (json.member? "worker_threads") c.workerThreads
  have defaultSize := settled_iff IsEdge (fun _ _ => size?_eq_some_iff) 1024
    (json.member? "default_size") c.defaultSize
  have thumbnailSize := settled_iff IsEdge (fun _ _ => size?_eq_some_iff) 200
    (json.member? "thumbnail_size") c.thumbnailSize
  constructor
  · rintro ⟨h₁, h₂, h₃, h₄, h₅⟩
    cases c
    rw [ofJson, Config.mk.injEq]
    exact ⟨assetDir.1 h₁, warmSizes.1 h₂, workerThreads.1 h₃, defaultSize.1 h₄,
      thumbnailSize.1 h₅⟩
  · rintro rfl
    exact ⟨assetDir.2 rfl, warmSizes.2 rfl, workerThreads.2 rfl, defaultSize.2 rfl,
      thumbnailSize.2 rfl⟩

/-! ## Written configurations -/

theorem isEdge_ofNat {size : UInt32} (valid : ValidSize size) :
    IsEdge (.ofNat size.toNat) size := by
  refine ⟨?_, valid⟩
  rw [Json.ofNat]
  congr 2
  apply UInt64.toNat_inj.1
  rw [UInt32.toNat_toUInt64, Nat.toUInt64_eq, UInt64.toNat_ofNat']
  exact Nat.mod_eq_of_lt (Nat.lt_trans size.toNat_lt (by decide))

theorem areEdges_map_ofNat {sizes : List UInt32} (valid : ValidSizes sizes) :
    AreEdges (.array (sizes.map fun size => .ofNat size.toNat)) sizes :=
  ⟨_, rfl, List.forall₂_map_left_iff.2
    (List.forall₂_same.2 fun size hs => isEdge_ofNat (valid size hs))⟩

/-- A configuration with valid sizes comes from the object that is written for it. -/
theorem isReadFrom_toJson {c : Config} (h : c.HasValidSizes) : c.IsReadFrom c.toJson where
  assetDir := .taken (show IsText (.string c.assetDir) c.assetDir from rfl)
  warmSizes := .taken (areEdges_map_ofNat h.warm)
  workerThreads := .taken (show IsCount (.number (.unsigned c.workerThreads)) _ from rfl)
  defaultSize := .taken (isEdge_ofNat h.picture)
  thumbnailSize := .taken (isEdge_ofNat h.thumbnail)

end Config

end Koi
