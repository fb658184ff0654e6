import Koi.Mask.Store
import Mathlib.Data.List.Sort

/-!
# What the catalogue holds

The catalogue is computed with the palettes of one seed. The names in the pools of a palette depend
on its variety only, so the catalogue serves every palette.

* `Catalog.mem_names_iff`: a name is in the catalogue iff it is common or in the pool of some
  palette.
* `Catalog.pairwise_names`: the catalogue is in the order of names.
* `Store.verify_eq_error_iff`: the failure of `Store.verify` names the least missing layer.
-/

namespace Koi

/-! ## Sorting names -/

namespace LayerName

/-- The order of names, as a relation. -/
def Precedes : LayerName → LayerName → Prop := InvImage (· ≤ ·) rank

instance : DecidableRel Precedes := fun a b => inferInstanceAs (Decidable (a.rank ≤ b.rank))

instance : Std.Total Precedes := ⟨fun a b => Nat.le_total a.rank b.rank⟩

instance : IsTrans LayerName Precedes := ⟨fun _ _ _ => Nat.le_trans⟩

theorem insertSorted_eq_orderedInsert (name : LayerName) (names : List LayerName) :
    insertSorted name names = names.orderedInsert Precedes name := by
  induction names with
  | nil => rfl
  | cons other rest ih =>
    simp only [insertSorted, List.orderedInsert_cons, ih]
    rfl

theorem sort_eq_insertionSort (names : List LayerName) :
    sort names = names.insertionSort Precedes := by
  induction names with
  | nil => rfl
  | cons name rest ih =>
    rw [sort, ih, insertSorted_eq_orderedInsert, List.insertionSort_cons]

@[simp] theorem mem_sort_iff (name : LayerName) (names : List LayerName) :
    name ∈ sort names ↔ name ∈ names := by
  rw [sort_eq_insertionSort, List.mem_insertionSort]

theorem pairwise_sort (names : List LayerName) : (sort names).Pairwise Precedes := by
  rw [sort_eq_insertionSort]
  exact List.pairwise_insertionSort Precedes names

end LayerName

/-! ## The names in the pools of a palette -/

theorem Layer.map_name_numbered (region : Region) (first last : Nat) (color : Color) :
    (Layer.numbered region first last color).map Layer.name =
      (List.range' first (last + 1 - first)).map fun i => .pattern region i.toUInt8 := by
  simp [Layer.numbered, Function.comp_def]

/-- The colors of a palette have no influence on the names in its pools. -/
theorem Palette.map_name_candidates {p q : Palette} (h : p.variety = q.variety) (region : Region) :
    (p.candidates region).map Layer.name = (q.candidates region).map Layer.name := by
  cases p <;> cases q <;> simp only [variety, reduceCtorEq] at h <;> cases region <;>
    simp only [candidates, List.map_append, Layer.map_name_numbered, List.map_nil]

@[simp] theorem Palette.variety_pick (variety : Variety) (seed : UInt64) :
    (Palette.pick variety seed).variety = variety := by
  cases variety <;> rfl

theorem Variety.mem_all (variety : Variety) : variety ∈ Variety.all := by
  cases variety <;> decide

theorem Region.mem_all (region : Region) : region ∈ Region.all := by
  cases region <;> decide

namespace Catalog

theorem mem_poolNames_iff (palette : Palette) (name : LayerName) :
    name ∈ poolNames palette.variety ↔
      ∃ region, ∃ layer ∈ palette.candidates region, layer.name = name := by
  have hnames : ∀ region, ((Palette.pick palette.variety 0).candidates region).map Layer.name =
      (palette.candidates region).map Layer.name := fun region =>
    Palette.map_name_candidates (Palette.variety_pick palette.variety 0) region
  simp only [poolNames, List.mem_flatMap, hnames, List.mem_map]
  constructor
  · rintro ⟨region, -, layer, hl, rfl⟩
    exact ⟨region, layer, hl, rfl⟩
  · rintro ⟨region, layer, hl, rfl⟩
    exact ⟨region, Region.mem_all region, layer, hl, rfl⟩

/-- The catalogue is made of the common layers and of all layers in all pools of all palettes,
    whatever their colors. -/
theorem mem_names_iff (name : LayerName) :
    name ∈ names ↔ name ∈ common ∨
      ∃ (palette : Palette) (region : Region), ∃ layer ∈ palette.candidates region,
        layer.name = name := by
  simp only [names, LayerName.mem_sort_iff, List.mem_eraseDups, List.mem_append, List.mem_flatMap]
  apply or_congr_right
  constructor
  · rintro ⟨variety, -, hn⟩
    rw [← Palette.variety_pick variety 0, mem_poolNames_iff] at hn
    exact ⟨Palette.pick variety 0, hn⟩
  · rintro ⟨palette, hn⟩
    exact ⟨palette.variety, Variety.mem_all _, (mem_poolNames_iff palette name).2 hn⟩

theorem pairwise_names : names.Pairwise LayerName.Precedes :=
  LayerName.pairwise_sort _

end Catalog

/-! ## The check of a store -/

/-- What is found first in a list that is in order comes before everything else that could have
    been found. -/
theorem LayerName.precedes_of_find? {names : List LayerName} {p : LayerName → Bool}
    {found other : LayerName} (sorted : names.Pairwise Precedes) (h : names.find? p = some found)
    (mem : other ∈ names) (ho : p other = true) : found.Precedes other := by
  obtain ⟨-, before, after, rfl, hb⟩ := List.find?_eq_some_iff_append.1 h
  obtain ⟨-, sorted, -⟩ := List.pairwise_append.1 sorted
  rcases List.mem_append.1 mem with hm | hm
  · exact absurd ho (by simpa using hb other hm)
  · rcases List.mem_cons.1 hm with rfl | hm
    · exact Nat.le_refl _
    · exact (List.pairwise_cons.1 sorted).1 other hm

/-- A layer of the catalogue without mask, with no other such layer before it. -/
structure Store.FirstMissing (store : Store) (name : LayerName) : Prop where
  mem : name ∈ Catalog.names
  missing : store.contains name = false
  first : ∀ other ∈ Catalog.names, store.contains other = false → name.rank ≤ other.rank

theorem Store.verify_eq_error_iff (store : Store) (e : Error) :
    store.verify = .error e ↔
      ∃ name, store.FirstMissing name ∧ e = .unknownAsset name.render := by
  unfold verify
  constructor
  · intro h
    split at h
    · next name hf =>
      refine ⟨name, ⟨List.mem_of_find?_eq_some hf, ?_, ?_⟩, (Except.error.inj h).symm⟩
      · simpa using List.find?_some hf
      · intro other hm ho
        exact LayerName.precedes_of_find? Catalog.pairwise_names hf hm (by simpa using ho)
    · cases h
  · rintro ⟨name, hn, rfl⟩
    split
    · next found hf =>
      -- both are least, and a name is determined by its rank
      have h₁ := LayerName.precedes_of_find? Catalog.pairwise_names hf hn.mem
        (by simpa using hn.missing)
      have h₂ := hn.first found (List.mem_of_find?_eq_some hf) (by simpa using List.find?_some hf)
      rw [LayerName.rank_injective (Nat.le_antisymm h₁ h₂)]
    · next hf =>
      have := List.find?_eq_none.1 hf name hn.mem
      simp [hn.missing] at this

end Koi
