import Koi.Proofs.Layering

/-!
# The alpha of pictures

Where a picture shows something, and how much of it, is decided by the masks alone. Two koi with the
same layers in different colors, over two different backgrounds or both over nothing, have the same
alpha at every position.

* `Image.SameAlpha`: images of one size with the same alphas; `SameAlpha.overlay` and
  `sameAlpha_tint` say that painting keeps this.
* `paint_eq`: the masks are fetched by their names before a color is looked at.
* `Cache.render_alpha`: two paintings that differ in colors end alike, on any cache.
-/

namespace Koi

namespace Pixel

/-- The alpha of a blend is decided by the two alphas. -/
theorem alpha_onto_congr {front front' back back' : Pixel} (hf : front.alpha = front'.alpha)
    (hb : back.alpha = back'.alpha) : (front.onto back).alpha = (front'.onto back').alpha := by
  unfold onto
  rw [hf]
  split
  · exact hb
  · split
    · exact hf
    · rw [alpha_rgba, alpha_rgba, hb]

/-- What depends on alphas only is the same for pixels with the same alphas. -/
theorem map_congr_of_alpha {α : Type} {f g : Pixel → α} {o o' : Option Pixel}
    (h : o.map alpha = o'.map alpha) (congr : ∀ p q, p.alpha = q.alpha → f p = g q) :
    o.map f = o'.map g := by
  match o, o', h with
  | none, none, _ => rfl
  | some p, some q, h => exact Option.some_inj.2 (congr p q (Option.some.inj h))

end Pixel

/-! ## Images with the same alphas -/

namespace Image

/-- Images of one size that have the same alpha at every position, whatever they show there. -/
structure SameAlpha (a b : Image) : Prop where
  width : a.width = b.width
  height : a.height = b.height
  alpha : ∀ x y, (a.pixel? x y).map Pixel.alpha = (b.pixel? x y).map Pixel.alpha

theorem SameAlpha.refl (a : Image) : a.SameAlpha a := ⟨rfl, rfl, fun _ _ => rfl⟩

/-- The color of a layer has no influence on its alphas. -/
theorem sameAlpha_tint (mask : Image) (color color' : Color) :
    (mask.tint color).SameAlpha (mask.tint color') where
  width := rfl
  height := rfl
  alpha x y := by
    have keeps (color : Color) : Pixel.alpha ∘ Pixel.tint color = Pixel.alpha :=
      funext (Pixel.alpha_tint color)
    rw [tint, tint, pixel?_map, pixel?_map, Option.map_map, Option.map_map, keeps, keeps]

theorem SameAlpha.overlay {canvas canvas' layer layer' : Image} (hc : canvas.SameAlpha canvas')
    (hl : layer.SameAlpha layer') : (canvas.overlay layer).SameAlpha (canvas'.overlay layer') where
  width := by
    rw [Image.overlay, Image.overlay, width_overlayWith, width_overlayWith, hc.width]
  height := by
    rw [Image.overlay, Image.overlay, height_overlayWith, height_overlayWith, hc.height]
  alpha x y := by
    have front := hl.alpha x y
    rw [pixel?_overlay, pixel?_overlay, Option.map_map, Option.map_map]
    refine Pixel.map_congr_of_alpha (hc.alpha x y) fun p q back => ?_
    -- Where the layers have no pixel, the canvases are seen.
    generalize layer.pixel? x y = o at front
    generalize layer'.pixel? x y = o' at front
    cases o with
    | none =>
      cases o' with
      | none => exact back
      | some _ => cases front
    | some _ =>
      cases o' with
      | none => cases front
      | some _ => exact Pixel.alpha_onto_congr (Option.some.inj front) back

theorem SameAlpha.stamp {canvas canvas' : Image} (h : canvas.SameAlpha canvas')
    (color color' : Color) (mask : Image) :
    (canvas.stamp color mask).SameAlpha (canvas'.stamp color' mask) := by
  rw [stamp_eq_overlay_tint, stamp_eq_overlay_tint]
  exact h.overlay (mask.sameAlpha_tint color color')

/-- Masks in colors over canvases: only the number of the colors counts. -/
theorem SameAlpha.foldl_stamp {canvas canvas' : Image} (h : canvas.SameAlpha canvas')
    {colors colors' : List Color} (length : colors.length = colors'.length)
    (masks : List Image) :
    ((colors.zip masks).foldl (fun picture mask => picture.stamp mask.1 mask.2) canvas).SameAlpha
      ((colors'.zip masks).foldl (fun picture mask => picture.stamp mask.1 mask.2) canvas') := by
  induction masks generalizing canvas canvas' colors colors' with
  | nil => rwa [List.zip_nil_right, List.zip_nil_right]
  | cons mask rest ih =>
    match colors, colors', length with
    | [], [], _ => exact h
    | color :: colors, color' :: colors', length =>
      rw [List.zip_cons_cons, List.zip_cons_cons, List.foldl_cons, List.foldl_cons]
      exact ih (h.stamp color color' mask) (Nat.succ_inj.1 length)

theorem sameAlpha_filled (width height : Nat) {p q : Pixel} (h : p.alpha = q.alpha) :
    (filled width height p).SameAlpha (filled width height q) where
  width := rfl
  height := rfl
  alpha x y := by
    by_cases inside : x < width ∧ y < height
    · rw [pixel?_filled inside.1 inside.2, pixel?_filled inside.1 inside.2, Option.map_some,
        Option.map_some, h]
    · rw [(pixel?_eq_none_iff _ x y).2 inside, (pixel?_eq_none_iff _ x y).2 inside]

end Image

/-- A clear canvas has the alphas of a clear one, and a filled canvas those of a filled one. -/
theorem sameAlpha_canvas {background other : Option Color} (h : background.isSome = other.isSome)
    (size : Nat) : (canvas background size).SameAlpha (canvas other size) := by
  match background, other, h with
  | none, none, _ => exact .refl _
  | some color, some color', _ =>
    apply Image.sameAlpha_filled
    rw [Color.opaquePixel, Color.opaquePixel, Pixel.alpha_rgba, Pixel.alpha_rgba]

/-! ## Fetching before painting -/

/-- The masks of some layers and of the outline, in a size. -/
def fetchMasks (store : Store) (names : List LayerName) (size : UInt32) :
    CacheM (List Image × Image) := do
  let masks ← names.mapM fun name => Cache.fetch store name size
  return (masks, ← Cache.fetch store .outline size)

/-- Masks in colors over a canvas, and the outline over all. -/
def assemble (canvas : Image) (colors : List Color) (masks : List Image × Image) : Image :=
  ((colors.zip masks.1).foldl (fun picture mask => picture.stamp mask.1 mask.2) canvas).overlay
    masks.2

theorem mapM_fetchLayer (store : Store) (size : UInt32) (layers : List Layer) :
    layers.mapM (fetchLayer store size) = do
      let masks ← (layers.map Layer.name).mapM fun name => Cache.fetch store name size
      return (layers.map Layer.color).zip masks := by
  induction layers with
  | nil => rfl
  | cons layer rest ih =>
    simp only [List.mapM_cons, List.map_cons, ih, fetchLayer, bind_assoc, pure_bind,
      List.zip_cons_cons]

/-- The masks are fetched by their names; the colors come in afterwards. -/
theorem paint_eq (store : Store) (a : Attributes) (size : UInt32) (canvas : Image) :
    paint store a size canvas = do
      let masks ← fetchMasks store (a.paintedLayers.map Layer.name) size
      return assemble canvas (a.paintedLayers.map Layer.color) masks := by
  simp only [paint, mapM_fetchLayer, fetchMasks, assemble, bind_assoc, pure_bind]

theorem Image.SameAlpha.assemble {canvas canvas' : Image} (h : canvas.SameAlpha canvas')
    {colors colors' : List Color} (length : colors.length = colors'.length)
    (masks : List Image × Image) :
    (assemble canvas colors masks).SameAlpha (Koi.assemble canvas' colors' masks) :=
  (h.foldl_stamp length masks.1).overlay (.refl masks.2)

/-! ## Paintings that end alike -/

/-- Two paintings that end with one failure, or with pictures that have the same alphas. -/
inductive SameOutcome : Except Error Image → Except Error Image → Prop where
  | error (e : Error) : SameOutcome (.error e) (.error e)
  | ok {image other : Image} : image.SameAlpha other → SameOutcome (.ok image) (.ok other)

/-- The layers of two koi have the same names, in every region. -/
structure Attributes.SameNames (a b : Attributes) : Prop where
  body : a.bodyLayers.map Layer.name = b.bodyLayers.map Layer.name
  head : a.headLayers.map Layer.name = b.headLayers.map Layer.name
  fin : a.finLayers.map Layer.name = b.finLayers.map Layer.name

theorem Attributes.SameNames.paintedLayers {a b : Attributes} (h : a.SameNames b) :
    a.paintedLayers.map Layer.name = b.paintedLayers.map Layer.name := by
  simp only [Attributes.paintedLayers, Attributes.patterns_eq, List.map_cons, List.map_append,
    h.body, h.head, h.fin]

namespace Cache

variable {a b : Attributes} {background other : Option Color}

/-- On any cache, also one that no history leaves, two paintings fetch the same masks. -/
theorem sameOutcome_render (store : Store) (names : a.SameNames b)
    (backed : background.isSome = other.isSome) (size : UInt32) (cache : Cache) :
    SameOutcome ((render store a background size).runOn cache).1
      ((render store b other size).runOn cache).1 ∧
    ((render store a background size).runOn cache).2 =
      ((render store b other size).runOn cache).2 := by
  have painted := names.paintedLayers
  have length : (a.paintedLayers.map Layer.color).length =
      (b.paintedLayers.map Layer.color).length := by
    simpa using congrArg List.length painted
  unfold render
  by_cases valid : ValidSize size
  -- Both are one fetch of the same masks, and the colors come in after it.
  · rw [checkSize_of_valid valid, CacheM.runOn_bind_ok (CacheM.runOn_liftM _ _),
      CacheM.runOn_bind_ok (CacheM.runOn_liftM _ _), paint_eq, paint_eq, CacheM.runOn_map,
      CacheM.runOn_map, painted]
    refine ⟨?_, rfl⟩
    cases ((fetchMasks store (b.paintedLayers.map Layer.name) size).runOn cache).1 with
    | error e => exact .error e
    | ok masks => exact .ok ((sameAlpha_canvas backed size.toNat).assemble length masks)
  · rw [checkSize_of_not_valid valid]
    exact ⟨.error _, rfl⟩

/-- The alphas of a painting do not depend on colors. Two koi whose layers have the same names,
    with any colors and of any varieties, both over nothing or each over some color, are painted
    with the same alphas or fail for the same reason, and leave the same cache, whatever the cache
    holds. After any two histories of requests to one store they are also painted so. -/
theorem render_alpha (store : Store) (a b : Attributes) (names : a.SameNames b)
    (background other : Option Color) (backed : background.isSome = other.isSome)
    (size : UInt32) :
    (∀ cache : Cache,
      SameOutcome ((render store a background size).runOn cache).1
        ((render store b other size).runOn cache).1 ∧
      ((render store a background size).runOn cache).2 =
        ((render store b other size).runOn cache).2) ∧
    ∀ history otherHistory : List Request,
      SameOutcome ((render store a background size).runOn (after store history)).1
        ((render store b other size).runOn (after store otherHistory)).1 := by
  have alike := sameOutcome_render store names backed size
  refine ⟨alike, fun history otherHistory => ?_⟩
  rw [((after_transparent store history).2 a background size).1,
    ((after_transparent store otherHistory).2 b other size).1]
  exact (alike empty).1

/-- Two koi of different varieties and colors over different backgrounds, whose layers are half
    clear: one is painted on a warm cache, the other on an empty one. -/
theorem render_alpha_recolored :
    ∃ (store : Store) (a b : Attributes) (image other : Image), a.variety ≠ b.variety ∧
      a.bodyColor ≠ b.bodyColor ∧ a.headLayers ≠ b.headLayers ∧
      ((render store a (some ⟨1, 2, 3⟩) 2).runOn (after store [.warm [2]])).1 = .ok image ∧
      ((render store b (some ⟨9, 9, 9⟩) 2).runOn (after store [])).1 = .ok other ∧
      image.SameAlpha other := by
  let store := Store.empty.insert .body (.pair (.rgba 1 2 3 128) (.rgba 90 0 255 30))
    |>.insert .fin (Image.filled 1 1 .clear)
    |>.insert (.pattern .head 6) (.pair (.rgba 4 5 6 77) (.rgba 4 5 6 255))
    |>.insert .outline (Image.filled 1 1 (.rgba 7 7 7 200))
  let dressed (variety : Variety) (base spot : Color) : Attributes :=
    { variety := variety
      bodyLayers := []
      headLayers := [⟨.pattern .head 6, spot⟩, ⟨.pattern .head 6, base⟩, ⟨.outline, spot⟩]
      finLayers := []
      bodyColor := base
      finColor := base
      primaryColor := spot }
  let a := dressed .kohaku ⟨230, 230, 230⟩ ⟨200, 20, 20⟩
  let b := dressed .utsuri ⟨255, 140, 0⟩ ⟨30, 30, 30⟩
  have valid : ValidSize 2 := by decide
  obtain ⟨image, ha, -⟩ := Store.picture_eq_ok valid
    (by decide : ∀ name ∈ a.layerNames, store.contains name = true) (some ⟨1, 2, 3⟩)
  obtain ⟨other, hb, -⟩ := Store.picture_eq_ok valid
    (by decide : ∀ name ∈ b.layerNames, store.contains name = true) (some ⟨9, 9, 9⟩)
  have ha := (render_after_eq_ok_iff store [.warm [2]] a _ 2 image).2 ha
  have hb := (render_after_eq_ok_iff store [] b _ 2 other).2 hb
  have alike := (render_alpha store a b ⟨rfl, rfl, rfl⟩ (some ⟨1, 2, 3⟩) (some ⟨9, 9, 9⟩) rfl 2).2
    [.warm [2]] []
  rw [ha, hb] at alike
  cases alike with
  | ok same => exact ⟨store, a, b, image, other, by decide, by decide, by decide, ha, hb, same⟩

end Cache

end Koi
