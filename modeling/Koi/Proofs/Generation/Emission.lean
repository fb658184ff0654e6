import Koi.Proofs.Engine
import Mathlib.Tactic.IntervalCases

/-!
# The patterns of generated koi

The pools of a palette hold more patterns than a koi can come to wear. A number of patterns below
one is zero, so that no koi wears a pattern on its fins, and only one variety wears one on its head.

* `Attributes.Wears`: how many patterns a variety wears, and which.
* `Attributes.wears_ofStreams`: every generated koi wears what its variety does.
* `Attributes.ofToken_emission`: the patterns that some token brings forth, and the layers of the
  catalogue that none does.
-/

namespace Koi

/-! ## Numbers of patterns -/

theorem CountRange.draw_bounds {range : CountRange} (h : range.least < range.bound)
    (g : Xorshift) : range.least ≤ (range.draw g).1 ∧ (range.draw g).1 < range.bound := by
  have hm := Nat.mod_lt (Xorshift.scramble g.state).toNat (Nat.sub_pos_of_lt h)
  simp only [draw, dif_pos h, Xorshift.below_fst_val]
  omega

theorem CountRange.draw_of_le {range : CountRange} (h : range.bound ≤ range.least)
    (g : Xorshift) : (range.draw g).1 = range.bound := by
  simp [draw, Nat.not_lt.2 h]

/-- A number of patterns is drawn from the range of its region, at some state of the stream. -/
theorem Palette.exists_numbers_eq (palette : Palette) (g : Xorshift) (region : Region) :
    ∃ g', palette.numbers g region = ((palette.counts region).draw g').1 := by
  cases region <;> exact ⟨_, rfl⟩

/-- Below one there is no number of patterns but zero. -/
theorem Palette.counts_fin (palette : Palette) :
    ∃ bound ≤ 1, palette.counts .fin = ⟨0, bound⟩ := by
  cases palette <;> exact ⟨_, by decide, rfl⟩

theorem Palette.counts_head {palette : Palette} (h : palette.variety ≠ .shigure) :
    ∃ bound ≤ 1, palette.counts .head = ⟨0, bound⟩ := by
  cases palette with
  | shigure => exact absurd rfl h
  | kohaku | showa | utsuri | monochrome => exact ⟨_, by decide, rfl⟩

/-! ## Pools -/

@[simp] theorem Layer.length_numbered (region : Region) (first last : Nat) (color : Color) :
    (Layer.numbered region first last color).length = last + 1 - first := by
  simp [Layer.numbered]

theorem Layer.mem_numbered_iff {region : Region} {first last : Nat} {color : Color}
    {layer : Layer} : layer ∈ Layer.numbered region first last color ↔
      ∃ i, first ≤ i ∧ i ≤ last ∧ layer = ⟨.pattern region i.toUInt8, color⟩ := by
  simp only [Layer.numbered, List.mem_map, List.mem_range'_1]
  constructor
  · rintro ⟨i, ⟨h₁, h₂⟩, rfl⟩
    exact ⟨i, h₁, by omega, rfl⟩
  · rintro ⟨i, h₁, h₂, rfl⟩
    exact ⟨i, ⟨h₁, by omega⟩, rfl⟩

/-- A layer is one of the patterns of a region with the numbers up to `last`. -/
def Layer.IsPattern (layer : Layer) (region : Region) (last : Nat) : Prop :=
  ∃ number : UInt8, layer.name = .pattern region number ∧ 1 ≤ number.toNat ∧ number.toNat ≤ last

theorem Layer.isPattern_of_mem_numbered {region : Region} {last : Nat} {color : Color}
    {layer : Layer} (small : last < 256) (h : layer ∈ Layer.numbered region 1 last color) :
    layer.IsPattern region last := by
  obtain ⟨i, h₁, h₂, rfl⟩ := Layer.mem_numbered_iff.1 h
  have hi : i.toUInt8.toNat = i := by
    rw [Nat.toUInt8_eq, UInt8.toNat_ofNat']
    omega
  exact ⟨i.toUInt8, rfl, by omega, by omega⟩

namespace Attributes

/-! ## What a variety wears -/

/-- Between `least` and `most` patterns on the body, with numbers up to `last`. -/
def WearsOnBody (a : Attributes) (least most last : Nat) : Prop :=
  least ≤ a.bodyLayers.length ∧ a.bodyLayers.length ≤ most ∧
    ∀ layer ∈ a.bodyLayers, layer.IsPattern .body last

/-- The numbers and names of a koi's patterns are those of its variety. -/
def Wears (a : Attributes) : Prop :=
  a.finLayers = [] ∧
  match a.variety with
  | .kohaku => a.headLayers = [] ∧ a.WearsOnBody 1 3 10
  | .showa | .utsuri => a.headLayers = [] ∧ a.WearsOnBody 1 3 8
  | .monochrome => a.headLayers = [] ∧ a.bodyLayers = []
  | .shigure =>
    (∃ layer, a.headLayers = [layer] ∧
      (layer.name = .pattern .head 6 ∨ layer.name = .pattern .head 7)) ∧
    a.WearsOnBody 0 1 8

variable {streams : Quarters Xorshift} {region : Region}

/-- No more patterns than the number that is drawn. -/
theorem length_layersOf_le (streams : Quarters Xorshift) (region : Region) :
    ∃ g, ((ofStreams streams).layersOf region).length ≤
      (((Palette.draw streams.variety).counts region).draw g).1 := by
  obtain ⟨g, hg⟩ := (Palette.draw streams.variety).exists_numbers_eq streams.counts region
  refine ⟨g, ?_⟩
  rw [length_layersOf_ofStreams, hg]
  split <;> omega

theorem length_layersOf_of_pool
    (nonempty : 0 < ((Palette.draw streams.variety).candidates region).length) :
    ∃ g, ((ofStreams streams).layersOf region).length =
      (((Palette.draw streams.variety).counts region).draw g).1 := by
  obtain ⟨g, hg⟩ := (Palette.draw streams.variety).exists_numbers_eq streams.counts region
  exact ⟨g, by rw [length_layersOf_ofStreams, if_pos nonempty, hg]⟩

/-- A region that gets no more than no pattern. -/
theorem layersOf_eq_nil
    (h : ∃ bound ≤ 1, (Palette.draw streams.variety).counts region = ⟨0, bound⟩) :
    (ofStreams streams).layersOf region = [] := by
  obtain ⟨bound, hb, hc⟩ := h
  obtain ⟨g, hg⟩ := length_layersOf_le streams region
  apply List.length_eq_zero_iff.1
  rw [hc] at hg
  rcases Nat.eq_zero_or_pos bound with rfl | hpos
  · rw [CountRange.draw_of_le (Nat.le_refl _)] at hg
    exact Nat.le_zero.1 hg
  · have hlt := (@CountRange.draw_bounds ⟨0, bound⟩ hpos g).2
    exact Nat.lt_one_iff.1 (Nat.lt_of_le_of_lt hg (Nat.lt_of_lt_of_le hlt hb))

theorem finLayers_ofStreams (streams : Quarters Xorshift) : (ofStreams streams).finLayers = [] :=
  show (ofStreams streams).layersOf .fin = [] from layersOf_eq_nil (Palette.counts_fin _)

theorem headLayers_ofStreams (h : (Palette.draw streams.variety).variety ≠ .shigure) :
    (ofStreams streams).headLayers = [] :=
  show (ofStreams streams).layersOf .head = [] from layersOf_eq_nil (Palette.counts_head h)

/-- The one pattern on the head of the variety that has one there. -/
theorem headLayers_ofStreams_shigure {black red : Color}
    (hp : Palette.draw streams.variety = .shigure black red) :
    ∃ layer, (ofStreams streams).headLayers = [layer] ∧
      (layer.name = .pattern .head 6 ∨ layer.name = .pattern .head 7) := by
  have nonempty : 0 < ((Palette.draw streams.variety).candidates .head).length := by
    simp [hp, Palette.candidates]
  obtain ⟨g, hg⟩ := length_layersOf_of_pool nonempty
  rw [hp, CountRange.draw_of_le (by exact Nat.le_refl 1)] at hg
  obtain ⟨layer, hl⟩ := List.length_eq_one_iff.1 hg
  have hm : layer ∈ (Palette.draw streams.variety).candidates .head := by
    apply mem_candidates_of_ofStreams
    rw [hl]
    exact List.mem_singleton_self layer
  rw [hp] at hm
  -- The pool for the head of this variety has the numbers six and seven only.
  obtain ⟨i, h₆, h₇, rfl⟩ := Layer.mem_numbered_iff.1 hm
  obtain rfl | rfl : i = 6 ∨ i = 7 := by omega
  · exact ⟨_, hl, .inl rfl⟩
  · exact ⟨_, hl, .inr rfl⟩

theorem wearsOnBody_ofStreams {least bound last : Nat}
    (hc : (Palette.draw streams.variety).counts .body = ⟨least, bound⟩) (hlt : least < bound)
    (nonempty : 0 < ((Palette.draw streams.variety).candidates .body).length)
    (pool : ∀ layer ∈ (Palette.draw streams.variety).candidates .body,
      layer.IsPattern .body last) :
    (ofStreams streams).WearsOnBody least (bound - 1) last := by
  obtain ⟨g, hg⟩ := length_layersOf_of_pool nonempty
  rw [hc] at hg
  have hb := @CountRange.draw_bounds ⟨least, bound⟩ hlt g
  rw [← hg] at hb
  exact ⟨hb.1, Nat.le_sub_one_of_lt hb.2,
    fun layer hl => pool layer (mem_candidates_of_ofStreams hl)⟩

theorem wears_ofStreams (streams : Quarters Xorshift) : (ofStreams streams).Wears := by
  refine ⟨finLayers_ofStreams streams, ?_⟩
  have hv : (ofStreams streams).variety = (Palette.draw streams.variety).variety := rfl
  rw [hv]
  cases hp : Palette.draw streams.variety with
  | kohaku color =>
    refine ⟨headLayers_ofStreams (by simp [hp, Palette.variety]), ?_⟩
    have counts : (Palette.draw streams.variety).counts .body = ⟨1, 4⟩ := by rw [hp]; rfl
    apply wearsOnBody_ofStreams counts (by decide)
    · simp [hp, Palette.candidates]
    · rw [hp]
      exact fun layer => Layer.isPattern_of_mem_numbered (by decide)
  | showa red black base =>
    refine ⟨headLayers_ofStreams (by simp [hp, Palette.variety]), ?_⟩
    have counts : (Palette.draw streams.variety).counts .body = ⟨1, 4⟩ := by rw [hp]; rfl
    apply wearsOnBody_ofStreams counts (by decide)
    · simp [hp, Palette.candidates]
    · rw [hp]
      intro layer hl
      rcases List.mem_append.1 hl with hl | hl
      · exact Layer.isPattern_of_mem_numbered (by decide) hl
      · exact Layer.isPattern_of_mem_numbered (by decide) hl
  | utsuri color =>
    refine ⟨headLayers_ofStreams (by simp [hp, Palette.variety]), ?_⟩
    have counts : (Palette.draw streams.variety).counts .body = ⟨1, 4⟩ := by rw [hp]; rfl
    apply wearsOnBody_ofStreams counts (by decide)
    · simp [hp, Palette.candidates]
    · rw [hp]
      exact fun layer => Layer.isPattern_of_mem_numbered (by decide)
  | monochrome color =>
    refine ⟨headLayers_ofStreams (by simp [hp, Palette.variety]), ?_⟩
    show (ofStreams streams).layersOf .body = []
    exact layersOf_eq_nil ⟨0, by decide, by rw [hp]; rfl⟩
  | shigure black red =>
    refine ⟨headLayers_ofStreams_shigure hp, ?_⟩
    have counts : (Palette.draw streams.variety).counts .body = ⟨0, 2⟩ := by rw [hp]; rfl
    apply wearsOnBody_ofStreams counts (by decide)
    · simp [hp, Palette.candidates]
    · rw [hp]
      exact fun layer => Layer.isPattern_of_mem_numbered (by decide)

/-! ## Patterns that occur -/

/-- A name that some token brings forth as the name of a pattern. -/
def Occurs (name : LayerName) : Prop :=
  ∃ token : TokenId, ∃ a, generate token.text = .ok a ∧ ∃ layer ∈ a.patterns, layer.name = name

theorem occurs_iff_ofToken (name : LayerName) :
    Occurs name ↔ ∃ token, ∃ layer ∈ (ofToken token).patterns, layer.name = name := by
  unfold Occurs
  constructor
  · rintro ⟨token, a, ha, h⟩
    rw [generate_text] at ha
    obtain rfl := Except.ok.inj ha
    exact ⟨token, h⟩
  · rintro ⟨token, h⟩
    exact ⟨token, _, generate_text token, h⟩

theorem Wears.name_of_mem_patterns {a : Attributes} (h : a.Wears) {layer : Layer}
    (hl : layer ∈ a.patterns) : layer.IsPattern .body 10 ∨
      layer.name = .pattern .head 6 ∨ layer.name = .pattern .head 7 := by
  obtain ⟨fin, h⟩ := h
  have widen : ∀ {last}, last ≤ 10 → layer.IsPattern .body last → layer.IsPattern .body 10 := by
    rintro last hle ⟨number, hn, h₁, h₂⟩
    exact ⟨number, hn, h₁, by omega⟩
  rw [patterns_eq, fin, List.append_nil, List.mem_append] at hl
  cases hv : a.variety <;> simp only [hv] at h
  case kohaku =>
    rw [h.1] at hl
    exact .inl (h.2.2.2 layer (by simpa using hl))
  case showa | utsuri =>
    rw [h.1] at hl
    exact .inl (widen (by decide) (h.2.2.2 layer (by simpa using hl)))
  case monochrome =>
    rw [h.1, h.2] at hl
    simp at hl
  case shigure =>
    obtain ⟨⟨head, hh, hn⟩, hb⟩ := h
    rcases hl with hl | hl
    · exact .inl (widen (by decide) (hb.2.2 layer hl))
    · rw [hh, List.mem_singleton] at hl
      exact .inr (hl ▸ hn)

/-- Eight tokens that bring forth all patterns that occur. -/
def samples : List TokenId :=
  [⟨"1000", by decide⟩, ⟨"1020", by decide⟩, ⟨"1040", by decide⟩, ⟨"1090", by decide⟩,
    ⟨"4000", by decide⟩, ⟨"4010", by decide⟩, ⟨"5040", by decide⟩, ⟨"5050", by decide⟩]

theorem exists_sample_body : ∀ i ∈ List.range' 1 10, ∃ token ∈ samples,
    ∃ layer ∈ (ofToken token).patterns, layer.name = .pattern .body i.toUInt8 := by
  decide +kernel

theorem exists_sample_head : ∀ i ∈ List.range' 6 2, ∃ token ∈ samples,
    ∃ layer ∈ (ofToken token).patterns, layer.name = .pattern .head i.toUInt8 := by
  decide +kernel

theorem occurs_iff (name : LayerName) : Occurs name ↔
    (∃ number : UInt8, name = .pattern .body number ∧ 1 ≤ number.toNat ∧ number.toNat ≤ 10) ∨
      name = .pattern .head 6 ∨ name = .pattern .head 7 := by
  rw [occurs_iff_ofToken]
  constructor
  · rintro ⟨token, layer, hl, rfl⟩
    exact (wears_ofStreams token.streams).name_of_mem_patterns hl
  · rintro (⟨number, rfl, h₁, h₂⟩ | rfl | rfl)
    · obtain ⟨token, -, h⟩ := exists_sample_body number.toNat
        (List.mem_range'_1.2 ⟨h₁, by omega⟩)
      have hn : number.toNat.toUInt8 = number := by simp
      exact ⟨token, by rwa [hn] at h⟩
    · obtain ⟨token, -, h⟩ := exists_sample_head 6 (by decide)
      exact ⟨token, h⟩
    · obtain ⟨token, -, h⟩ := exists_sample_head 7 (by decide)
      exact ⟨token, h⟩

/-! ## What the catalogue asks for in vain -/

/-- The patterns of the pools that no koi wears. -/
def idleNames : List LayerName :=
  (List.range' 1 5).map (fun i => .pattern .head i.toUInt8) ++
    (List.range' 1 2).map fun i => .pattern .fin i.toUInt8

theorem contains_of_mem_idleNames {store : Store} (h : store.verify = .ok ()) :
    ∀ name ∈ idleNames, store.contains name = true := by
  have hm : ∀ name ∈ idleNames, name ∈ Catalog.names := by decide +kernel
  exact fun name hn => (store.verify_eq_ok_iff).1 h name (hm name hn)

theorem not_occurs_of_mem_idleNames : ∀ name ∈ idleNames, ¬ Occurs name := by
  intro name hn
  rw [occurs_iff]
  simp only [idleNames, List.mem_append, List.mem_map, List.mem_range'_1] at hn
  rcases hn with ⟨i, hi, rfl⟩ | ⟨i, hi, rfl⟩
  · have other : i.toUInt8 ≠ 6 ∧ i.toUInt8 ≠ 7 := by
      obtain ⟨h₁, h₂⟩ := hi
      interval_cases i <;> decide
    simp [other]
  · simp

/-- Every token brings forth a koi that wears what its variety does, each pattern with its color
    from the pool of its region. The patterns that occur are ten of the body and two of the head;
    the other seven patterns of the catalogue, without which no store passes the check, never do. -/
theorem ofToken_emission :
    (∀ token : TokenId, ∃ a, generate token.text = .ok a ∧ a.Wears ∧
      (Palette.draw token.streams.variety).variety = a.variety ∧
      ∀ region, ∀ layer ∈ a.layersOf region,
        layer ∈ (Palette.draw token.streams.variety).candidates region) ∧
    (∀ name, Occurs name ↔
      (∃ number : UInt8, name = .pattern .body number ∧ 1 ≤ number.toNat ∧ number.toNat ≤ 10) ∨
        name = .pattern .head 6 ∨ name = .pattern .head 7) ∧
    (∀ name ∈ idleNames, ¬ Occurs name ∧
      ∀ store : Store, store.verify = .ok () → store.contains name = true) := by
  refine ⟨fun token => ?_, occurs_iff, fun name hn => ?_⟩
  · exact ⟨_, generate_text token, wears_ofStreams token.streams, rfl,
      fun region layer hl => mem_candidates_of_ofStreams hl⟩
  · exact ⟨not_occurs_of_mem_idleNames name hn,
      fun store h => contains_of_mem_idleNames h name hn⟩

/-- A koi with a pattern on its head, and a pattern of the head that no koi wears. -/
theorem ofToken_emission_head :
    (∃ a, generate "4010" = .ok a ∧ a.Wears ∧ a.variety = .shigure) ∧
      ¬ Occurs (.pattern .head 1) := by
  obtain ⟨emitted, -, idle⟩ := ofToken_emission
  obtain ⟨a, ha, wears, variety, -⟩ := emitted ⟨"4010", by decide⟩
  exact ⟨⟨a, ha, wears, by rw [← variety]; decide⟩, (idle (.pattern .head 1) (by decide)).1⟩

end Attributes

end Koi
