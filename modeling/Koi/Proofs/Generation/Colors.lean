import Koi.Proofs.Color.Range
import Koi.Proofs.Generation.Emission

/-!
# The colors of generated koi

A palette is picked with one seed, and all patterns are painted in its few colors. The body and the
fins take colors of the palette or seeds of their own, by variety. The ranges of the dark and the
bright colors are apart, and so are those of red and of the colors with more green; this decides
where a pattern can be seen on the body.

* `Palette.InRange`, `Palette.inRange_pick`: the ranges of a palette's colors.
* `Palette.color_mem_patternColors`: the colors of the patterns in a palette's pools.
* `Attributes.DrawnFrom`: what a palette says about the attributes of a koi.
* `Attributes.Colored`, `Attributes.ofToken_colored`: the colors of every generated koi.
* `Attributes.ofToken_color_eq_bodyColor_iff`: when a pattern has the very color of the body.
-/

namespace Koi

open ColorRange

theorem Layer.color_of_mem_numbered {region : Region} {first last : Nat} {color : Color}
    {layer : Layer} (h : layer ∈ Layer.numbered region first last color) : layer.color = color := by
  obtain ⟨i, -, -, rfl⟩ := Layer.mem_numbered_iff.1 h
  rfl

/-! ## Ranges that are apart -/

namespace ColorRange

variable {c d : Color}

/-- A black is no color that a body can have. -/
theorem ne_of_black (hc : blackRange.Contains c)
    (hd : redRange.Contains d ∨ orangeRange.Contains d ∨ whiteRange.Contains d) : c ≠ d := by
  rcases hd with hd | hd | hd
  · exact ne_of_apart (by decide : blackRange.Apart redRange) hc hd
  · exact ne_of_apart (by decide : blackRange.Apart orangeRange) hc hd
  · exact ne_of_apart (by decide : blackRange.Apart whiteRange) hc hd

theorem ne_of_red (hc : redRange.Contains c)
    (hd : orangeRange.Contains d ∨ whiteRange.Contains d) : c ≠ d := by
  rcases hd with hd | hd
  · exact ne_of_apart (by decide : redRange.Apart orangeRange) hc hd
  · exact ne_of_apart (by decide : redRange.Apart whiteRange) hc hd

end ColorRange

namespace Palette

/-! ## Palettes -/

/-- The seed of the palette that a stream draws, after it has drawn the variety. -/
def seed (g : Xorshift) : UInt64 :=
  (g.below Variety.all.length DrawM.length_varieties_pos).2.nextHalf.1

/-- The place, among red, orange and white, of the range that a base color is picked from. -/
def baseChoice (seed : UInt64) : Fin 3 :=
  ((Xorshift.ofSeed seed).below 3 (by decide)).1

theorem exists_draw_eq (g : Xorshift) : ∃ variety, draw g = pick variety (seed g) :=
  ⟨_, rfl⟩

/-- The colors of a palette lie in the ranges of its variety. -/
def InRange : Palette → Prop
  | kohaku color => redRange.Contains color
  | showa red black base => redRange.Contains red ∧ blackRange.Contains black ∧
    (redRange.Contains base ∨ orangeRange.Contains base ∨ whiteRange.Contains base)
  | utsuri color => blackRange.Contains color
  | monochrome color => whiteRange.Contains color ∨ orangeRange.Contains color ∨
    redRange.Contains color ∨ yellowRange.Contains color
  | shigure black red => blackRange.Contains black ∧ redRange.Contains red

theorem inRange_pick (variety : Variety) (seed : UInt64) : (pick variety seed).InRange := by
  cases variety with
  | kohaku => exact redRange.contains_sample seed
  | showa =>
    refine ⟨redRange.contains_sample seed, blackRange.contains_sample seed, ?_⟩
    simpa using exists_contains_choose [redRange, orangeRange, whiteRange] (by decide) seed
  | utsuri => exact blackRange.contains_sample seed
  | monochrome =>
    simpa [pick, InRange] using
      exists_contains_choose [whiteRange, orangeRange, redRange, yellowRange] (by decide) seed
  | shigure => exact ⟨blackRange.contains_sample seed, redRange.contains_sample seed⟩

/-- The body of this variety is of any of three ranges. -/
theorem contains_bodyColor_utsuri (color : Color) (seed : UInt64) :
    redRange.Contains ((utsuri color).bodyColor seed) ∨
      orangeRange.Contains ((utsuri color).bodyColor seed) ∨
      whiteRange.Contains ((utsuri color).bodyColor seed) := by
  have h := exists_contains_choose [whiteRange, orangeRange, redRange] (by decide) seed
  simp only [List.mem_cons, List.not_mem_nil, or_false, exists_eq_or_imp, exists_eq_left] at h
  rcases h with h | h | h
  · exact .inr (.inr h)
  · exact .inr (.inl h)
  · exact .inl h

theorem choose_base_eq (seed : UInt64) :
    choose [redRange, orangeRange, whiteRange] (by decide) seed =
      ([redRange, orangeRange, whiteRange][baseChoice seed]).sample seed :=
  rfl

/-- A base that is picked from the reds is picked by the seed of the palette's red. -/
theorem choose_base_of_eq_zero {seed : UInt64} (h : baseChoice seed = 0) :
    choose [redRange, orangeRange, whiteRange] (by decide) seed = redRange.sample seed := by
  rw [choose_base_eq, h]
  rfl

theorem contains_choose_base_of_ne_zero {seed : UInt64} (h : baseChoice seed ≠ 0) :
    orangeRange.Contains (choose [redRange, orangeRange, whiteRange] (by decide) seed) ∨
      whiteRange.Contains (choose [redRange, orangeRange, whiteRange] (by decide) seed) := by
  have other : ∀ i : Fin 3, i ≠ 0 → i = 1 ∨ i = 2 := by decide
  rw [choose_base_eq]
  rcases other _ h with h | h
  · rw [h]
    exact .inl (orangeRange.contains_sample seed)
  · rw [h]
    exact .inr (whiteRange.contains_sample seed)

/-! ## The colors of patterns -/

/-- The colors that a palette has for patterns. -/
def patternColors : Palette → List Color
  | kohaku color | utsuri color => [color]
  | showa red black _ => [red, black]
  | monochrome _ => []
  | shigure black red => [black, red]

theorem color_mem_patternColors {palette : Palette} {region : Region} {layer : Layer}
    (h : layer ∈ palette.candidates region) : layer.color ∈ palette.patternColors := by
  cases palette with
  | kohaku color | utsuri color =>
    cases region <;> exact List.mem_singleton.2 (Layer.color_of_mem_numbered h)
  | showa red black base =>
    have of_append : ∀ {region first last},
        layer ∈ Layer.numbered region first last red ++ Layer.numbered region first last black →
          layer.color ∈ [red, black] := by
      intro region first last h
      rcases List.mem_append.1 h with h | h
      · simp [Layer.color_of_mem_numbered h]
      · simp [Layer.color_of_mem_numbered h]
    cases region with
    | body => exact of_append h
    | head => simp [patternColors, Layer.color_of_mem_numbered h]
    | fin => exact of_append h
  | monochrome color => cases h
  | shigure black red =>
    cases region <;> simp [patternColors, Layer.color_of_mem_numbered h]

end Palette

namespace Attributes

/-! ## Koi of a palette -/

/-- The colors of a koi and the pools of its patterns are those of a palette. -/
structure DrawnFrom (a : Attributes) (palette : Palette) : Prop where
  variety_eq : a.variety = palette.variety
  bodyColor_eq : ∃ seed, a.bodyColor = palette.bodyColor seed
  finColor_eq : ∃ seed, a.finColor = palette.finColor seed
  primaryColor_eq : a.primaryColor = palette.primaryColor
  mem_candidates : ∀ {region layer}, layer ∈ a.layersOf region →
    layer ∈ palette.candidates region

theorem drawnFrom_ofStreams (streams : Quarters Xorshift) :
    (ofStreams streams).DrawnFrom (Palette.draw streams.variety) where
  variety_eq := rfl
  bodyColor_eq := ⟨_, rfl⟩
  finColor_eq := ⟨_, rfl⟩
  primaryColor_eq := rfl
  mem_candidates := mem_candidates_of_ofStreams

theorem DrawnFrom.color_mem {a : Attributes} {palette : Palette} (h : a.DrawnFrom palette)
    {layer : Layer} (hl : layer ∈ a.patterns) : layer.color ∈ palette.patternColors := by
  obtain ⟨region, -, hl⟩ := List.mem_flatMap.1 hl
  exact Palette.color_mem_patternColors (h.mem_candidates hl)

/-! ## The colors of a variety -/

/-- The colors of a koi are those of its variety, and patterns share them. -/
def Colored (a : Attributes) : Prop :=
  match a.variety with
  | .kohaku =>
    (∀ layer ∈ a.patterns, layer.color = a.primaryColor) ∧ redRange.Contains a.primaryColor ∧
    whiteRange.Contains a.bodyColor ∧ whiteRange.Contains a.finColor
  | .showa =>
    redRange.Contains a.primaryColor ∧
    (∃ black, blackRange.Contains black ∧
      ∀ layer ∈ a.patterns, layer.color = a.primaryColor ∨ layer.color = black) ∧
    a.bodyColor = a.finColor ∧ (redRange.Contains a.bodyColor ∨
      orangeRange.Contains a.bodyColor ∨ whiteRange.Contains a.bodyColor)
  | .utsuri =>
    (∀ layer ∈ a.patterns, layer.color = a.primaryColor) ∧ blackRange.Contains a.primaryColor ∧
    (redRange.Contains a.bodyColor ∨ orangeRange.Contains a.bodyColor ∨
      whiteRange.Contains a.bodyColor) ∧ whiteRange.Contains a.finColor
  | .monochrome =>
    a.patterns = [] ∧ a.bodyColor = a.primaryColor ∧ a.finColor = a.primaryColor ∧
    (whiteRange.Contains a.primaryColor ∨ orangeRange.Contains a.primaryColor ∨
      redRange.Contains a.primaryColor ∨ yellowRange.Contains a.primaryColor)
  | .shigure =>
    (∃ black, blackRange.Contains black ∧ ∀ layer ∈ a.bodyLayers, layer.color = black) ∧
    (∃ layer, a.headLayers = [layer] ∧ layer.color = a.primaryColor) ∧
    redRange.Contains a.primaryColor ∧
    whiteRange.Contains a.bodyColor ∧ whiteRange.Contains a.finColor

theorem DrawnFrom.colored {a : Attributes} {palette : Palette} (h : a.DrawnFrom palette)
    (inRange : palette.InRange) (wears : a.Wears) : a.Colored := by
  obtain ⟨bodySeed, body⟩ := h.bodyColor_eq
  obtain ⟨finSeed, fin⟩ := h.finColor_eq
  have primary := h.primaryColor_eq
  have patterns := fun layer (hl : layer ∈ a.patterns) => h.color_mem hl
  have noFins := wears.1
  have worn := wears.2
  unfold Colored
  rw [h.variety_eq] at worn ⊢
  cases palette with
  | kohaku color =>
    rw [primary, body, fin]
    exact ⟨fun layer hl => List.mem_singleton.1 (patterns layer hl), inRange,
      whiteRange.contains_sample bodySeed, whiteRange.contains_sample finSeed⟩
  | showa red black base =>
    obtain ⟨hr, hb, ranges⟩ := inRange
    simp only [Palette.patternColors, List.mem_cons, List.not_mem_nil, or_false] at patterns
    rw [primary, body, fin]
    exact ⟨hr, ⟨black, hb, patterns⟩, rfl, ranges⟩
  | utsuri color =>
    rw [primary, fin]
    refine ⟨fun layer hl => List.mem_singleton.1 (patterns layer hl), inRange, ?_,
      whiteRange.contains_sample finSeed⟩
    rw [body]
    exact Palette.contains_bodyColor_utsuri color bodySeed
  | monochrome color =>
    rw [primary, body, fin]
    refine ⟨?_, rfl, rfl, inRange⟩
    rw [patterns_eq, worn.1, worn.2, noFins]
    rfl
  | shigure black red =>
    obtain ⟨hb, hr⟩ := inRange
    obtain ⟨⟨head, heads, -⟩, -⟩ := worn
    have hh : head ∈ a.layersOf .head := List.mem_of_mem_head? (congrArg List.head? heads)
    rw [primary, body, fin]
    refine ⟨⟨black, hb, fun layer hl => ?_⟩, ⟨head, heads, ?_⟩, hr,
      whiteRange.contains_sample bodySeed, whiteRange.contains_sample finSeed⟩
    · have hm : layer ∈ a.layersOf .body := hl
      exact Layer.color_of_mem_numbered (h.mem_candidates hm)
    · exact Layer.color_of_mem_numbered (h.mem_candidates hh)

/-- Every token brings forth a koi in the colors of its variety. -/
theorem ofToken_colored (token : TokenId) :
    ∃ a, generate token.text = .ok a ∧ a.Colored := by
  obtain ⟨variety, hp⟩ := Palette.exists_draw_eq token.streams.variety
  have drawn := drawnFrom_ofStreams token.streams
  refine ⟨_, generate_text token, drawn.colored ?_ (wears_ofStreams token.streams)⟩
  rw [hp]
  exact Palette.inRange_pick variety _

/-! ## Patterns in the color of the body -/

/-- A pattern has the color of the body only on a red base, if it is red as well. -/
theorem DrawnFrom.color_eq_bodyColor_iff {a : Attributes} {variety : Variety} {seed : UInt64}
    (h : a.DrawnFrom (Palette.pick variety seed)) {layer : Layer} (hl : layer ∈ a.patterns) :
    layer.color = a.bodyColor ↔ a.variety = .showa ∧ Palette.baseChoice seed = 0 ∧
      layer.color = a.primaryColor := by
  have hv : a.variety = variety := h.variety_eq.trans (Palette.variety_pick variety seed)
  have color := h.color_mem hl
  have primary := h.primaryColor_eq
  obtain ⟨bodySeed, body⟩ := h.bodyColor_eq
  rw [hv, body, primary]
  have red := redRange.contains_sample seed
  have black := blackRange.contains_sample seed
  have white := whiteRange.contains_sample bodySeed
  cases variety with
  | kohaku =>
    have hc : layer.color = redRange.sample seed := List.mem_singleton.1 color
    rw [hc]
    exact iff_of_false (ne_of_red red (.inr white)) (by simp)
  | showa =>
    have hc : layer.color = redRange.sample seed ∨ layer.color = blackRange.sample seed := by
      simpa [Palette.pick, Palette.patternColors] using color
    have ranges := (Palette.inRange_pick .showa seed).2.2
    -- Red and base are picked with one seed, so a base from the reds is the very red.
    constructor
    · intro same
      rcases hc with hc | hc
      · refine ⟨rfl, ?_, hc⟩
        by_contra other
        exact ne_of_red red (Palette.contains_choose_base_of_ne_zero other) (hc.symm.trans same)
      · exact absurd (hc.symm.trans same) (ne_of_black black ranges)
    · rintro ⟨-, zero, hp⟩
      exact hp.trans (Palette.choose_base_of_eq_zero zero).symm
  | utsuri =>
    have hc : layer.color = blackRange.sample seed := List.mem_singleton.1 color
    rw [hc]
    exact iff_of_false (ne_of_black black (Palette.contains_bodyColor_utsuri _ bodySeed)) (by simp)
  | monochrome => cases color
  | shigure =>
    have hc : layer.color = blackRange.sample seed ∨ layer.color = redRange.sample seed := by
      simpa [Palette.pick, Palette.patternColors] using color
    refine iff_of_false ?_ (by simp)
    rcases hc with hc | hc
    · rw [hc]
      exact ne_of_black black (.inr (.inr white))
    · rw [hc]
      exact ne_of_red red (.inr white)

/-- A pattern of a token's koi has the very color of the body exactly if the variety is the one with
    a base color, the seed of the palette picks this base from the reds, and the pattern is of the
    main color. So on the other varieties, in black, and on a base of orange or white, a pattern has
    another color than the body. -/
theorem ofToken_color_eq_bodyColor_iff (token : TokenId) :
    ∃ a, generate token.text = .ok a ∧ ∀ layer ∈ a.patterns,
      (layer.color = a.bodyColor ↔ a.variety = .showa ∧
        ((Xorshift.ofSeed (Palette.seed token.streams.variety)).below 3 (by decide)).1 = 0 ∧
        layer.color = a.primaryColor) ∧
      (a.variety = .kohaku ∨ a.variety = .utsuri ∨ a.variety = .shigure →
        layer.color ≠ a.bodyColor) ∧
      (a.variety = .showa → blackRange.Contains layer.color → layer.color ≠ a.bodyColor) ∧
      (a.variety = .showa → orangeRange.Contains a.bodyColor ∨ whiteRange.Contains a.bodyColor →
        layer.color ≠ a.bodyColor) := by
  obtain ⟨variety, hp⟩ := Palette.exists_draw_eq token.streams.variety
  have drawn : (ofToken token).DrawnFrom (Palette.pick variety _) :=
    hp ▸ drawnFrom_ofStreams token.streams
  refine ⟨_, generate_text token, fun layer hl => ?_⟩
  have visible := drawn.color_eq_bodyColor_iff hl
  have colored : (ofToken token).Colored :=
    drawn.colored (Palette.inRange_pick variety _) (wears_ofStreams token.streams)
  refine ⟨visible, ?_, ?_, ?_⟩
  · intro hv same
    rw [(visible.1 same).1] at hv
    simp at hv
  · intro hv black
    rw [Colored, hv] at colored
    exact ne_of_black black colored.2.2.2
  · intro hv bright same
    rw [Colored, hv] at colored
    have main : redRange.Contains (ofToken token).bodyColor := by
      rw [← same, (visible.1 same).2.2]
      exact colored.1
    exact ne_of_red main bright rfl

/-- A red and a black pattern on a red base, a red one on a white base, and another variety. -/
theorem ofToken_color_eq_bodyColor_iff_three_koi :
    (∃ a, generate "1040" = .ok a ∧ a.variety = .showa ∧
      (∃ layer ∈ a.patterns, layer.color = a.bodyColor) ∧
      ∃ layer ∈ a.patterns, blackRange.Contains layer.color ∧ layer.color ≠ a.bodyColor) ∧
    (∃ a, generate "114005040030" = .ok a ∧ a.variety = .showa ∧
      ∃ layer ∈ a.patterns, layer.color = a.primaryColor ∧ layer.color ≠ a.bodyColor) ∧
    ∃ a, generate "4010" = .ok a ∧ a.variety = .shigure ∧
      ∃ layer ∈ a.patterns, layer.color = a.primaryColor ∧ layer.color ≠ a.bodyColor := by
  let red : Color := ⟨237, 2, 20⟩
  let onRed : Attributes := ⟨.showa, [⟨.pattern .body 2, red⟩, ⟨.pattern .body 1, ⟨20, 20, 20⟩⟩],
    [], [], red, red, red⟩
  let onWhite : Attributes := ⟨.showa, [⟨.pattern .body 5, ⟨252, 47, 41⟩⟩], [], [],
    ⟨242, 242, 242⟩, ⟨242, 242, 242⟩, ⟨252, 47, 41⟩⟩
  let other : Attributes := ⟨.shigure, [⟨.pattern .body 5, ⟨15, 15, 15⟩⟩],
    [⟨.pattern .head 6, ⟨234, 39, 15⟩⟩], [], ⟨238, 238, 238⟩, ⟨243, 243, 243⟩, ⟨234, 39, 15⟩⟩
  refine ⟨?_, ?_, ?_⟩
  · obtain ⟨a, ha, h⟩ := ofToken_color_eq_bodyColor_iff ⟨"1040", by decide⟩
    have hg : generate "1040" = .ok onRed := by decide +kernel
    obtain rfl : a = onRed := Except.ok.inj (ha.symm.trans hg)
    exact ⟨onRed, hg, rfl,
      ⟨_, by decide, (h ⟨.pattern .body 2, red⟩ (by decide)).1.2 (by decide +kernel)⟩,
      ⟨_, by decide, by decide,
        (h ⟨.pattern .body 1, ⟨20, 20, 20⟩⟩ (by decide)).2.2.1 rfl (by decide)⟩⟩
  · obtain ⟨a, ha, h⟩ := ofToken_color_eq_bodyColor_iff ⟨"114005040030", by decide⟩
    have hg : generate "114005040030" = .ok onWhite := by decide +kernel
    obtain rfl : a = onWhite := Except.ok.inj (ha.symm.trans hg)
    exact ⟨onWhite, hg, rfl, _, by decide, rfl,
      (h ⟨.pattern .body 5, ⟨252, 47, 41⟩⟩ (by decide)).2.2.2 rfl (by decide)⟩
  · obtain ⟨a, ha, h⟩ := ofToken_color_eq_bodyColor_iff ⟨"4010", by decide⟩
    have hg : generate "4010" = .ok other := by decide +kernel
    obtain rfl : a = other := Except.ok.inj (ha.symm.trans hg)
    exact ⟨other, hg, rfl, _, by decide, rfl,
      (h ⟨.pattern .head 6, ⟨234, 39, 15⟩⟩ (by decide)).2.1 (by decide)⟩

end Attributes

end Koi
