import Koi.Proofs.Alpha

/-!
# The colors of masks

A mask is painted in the color of its layer, so its own colors are never seen, except those of the
outline. They are scaled and kept in the cache all the same; but a scaled alpha comes from the
alphas alone, and painting takes no more than the alpha.

* `Image.SameAlpha.tint_eq`: painted in one color, masks with the same alphas are the same.
* `Image.SameAlpha.resize`: scaling keeps the same alphas the same.
* `Store.SameCoverage`: stores whose masks differ in color at most.
* `Cache.render_of_sameCoverage`: pictures from such stores are the same, after every history.
-/

namespace Koi

namespace Pixel

theorem tint_eq_of_alpha {p q : Pixel} (h : p.alpha = q.alpha) (color : Color) :
    p.tint color = q.tint color := by
  rw [tint, tint, h]

end Pixel

namespace Image

variable {a b : Image}

/-! ## Painting in a color -/

/-- Only the alphas of a mask are seen when it is painted in a color. -/
theorem SameAlpha.tint_eq (h : a.SameAlpha b) (color : Color) : a.tint color = b.tint color := by
  refine ext_pixel? h.width h.height fun x y => ?_
  rw [tint, tint, pixel?_map, pixel?_map]
  exact Pixel.map_congr_of_alpha (h.alpha x y) fun p q alpha => Pixel.tint_eq_of_alpha alpha color

/-! ## Scaling -/

/-- The alphas in the rows of both images are the same, place by place. -/
theorem SameAlpha.alpha_getD (h : a.SameAlpha b) (i : Nat) :
    (a.pixels.getD i .clear).alpha = (b.pixels.getD i .clear).alpha := by
  have size : a.pixels.size = b.pixels.size := by
    rw [a.size_pixels, b.size_pixels, h.width, h.height]
  by_cases hi : i < a.pixels.size
  · have hw : 0 < b.width := by
      rw [size, b.size_pixels] at hi
      exact Nat.pos_of_mul_pos_right (Nat.zero_lt_of_lt hi)
    have alpha := h.alpha (i % b.width) (i / b.width)
    have hb : i < b.pixels.size := size ▸ hi
    simp only [pixel?, h.width, Nat.mod_lt i hw, if_true, Nat.div_add_mod'] at alpha
    rw [Array.getElem?_eq_getElem hi, Array.getElem?_eq_getElem hb] at alpha
    simpa [Array.getD, hi, hb] using alpha
  · simp [Array.getD, hi, size ▸ hi]

theorem SameAlpha.tallSamples (h : a.SameAlpha b) (size : Nat) :
    a.tallSamples size .alpha = b.tallSamples size .alpha := by
  have sample : a.sample .alpha = b.sample .alpha := by
    funext i
    rw [Image.sample, Image.sample, Pixel.get, Pixel.get, h.alpha_getD i]
  rw [Image.tallSamples, Image.tallSamples, sample, h.width, h.height]

/-- A scaled alpha is a sum of scaled alphas; the other channels have no part in it. -/
theorem alpha_pixelFrom (red green blue red' green' blue' alpha : Array Float32) (w : Window)
    (row n j : Nat) (r g b r' g' b' a : Float32) :
    (pixelFrom red green blue alpha w row n j r g b a).alpha =
      (pixelFrom red' green' blue' alpha w row n j r' g' b' a).alpha := by
  -- On the weights that are left: both runs add up the same alphas, whatever the other sums are.
  induction n generalizing j r g b r' g' b' a with
  | zero => simp only [pixelFrom, Pixel.alpha_rgba]
  | succ n ih => exact ih ..

theorem sameAlpha_ofRows {width height : Nat} {row row' : Nat → Nat → Pixel}
    (h : ∀ y x, (row y x).alpha = (row' y x).alpha) :
    (ofRows width height row).SameAlpha (ofRows width height row') where
  width := rfl
  height := rfl
  alpha x y := by
    rw [pixel?_ofRows, pixel?_ofRows]
    split
    · rw [Option.map_some, Option.map_some, h]
    · rfl

theorem SameAlpha.resize (h : a.SameAlpha b) (size : Nat) :
    (a.resize size).SameAlpha (b.resize size) := by
  have empty : a.isEmpty = b.isEmpty := by rw [isEmpty, isEmpty, h.width, h.height]
  unfold Image.resize
  rw [empty, h.width, h.height]
  split
  · exact .refl _
  · split
    · exact h
    · refine sameAlpha_ofRows fun y x => ?_
      rw [h.tallSamples]
      exact alpha_pixelFrom ..

end Image

/-! ## Stores and pictures -/

namespace Store

/-- Stores with masks for the same layers, whose masks have the same alphas. The mask of the
    outline is the same in both. -/
structure SameCoverage (store other : Store) : Prop where
  contains : ∀ name, store.contains name = other.contains name
  outline : store.get? .outline = other.get? .outline
  masks : ∀ name mask mask', name ≠ .outline → store.get? name = some mask →
    other.get? name = some mask' → mask.SameAlpha mask'

namespace SameCoverage

variable {store other : Store}

theorem refl (store : Store) : store.SameCoverage store where
  contains _ := rfl
  outline := rfl
  masks name mask mask' _ h h' := by
    obtain rfl := Option.some.inj (h.symm.trans h')
    exact .refl mask

/-- Masks of one layer that have the same alphas may be put into both stores. -/
theorem insert (h : store.SameCoverage other) {name : LayerName} (ne : name ≠ .outline)
    {mask mask' : Image} (same : mask.SameAlpha mask') :
    (store.insert name mask).SameCoverage (other.insert name mask') where
  contains key := by
    have hk := h.contains key
    rw [contains_eq_isSome, contains_eq_isSome] at hk ⊢
    rw [get?_insert, get?_insert]
    split
    · rfl
    · exact hk
  outline := by rw [get?_insert, get?_insert, if_neg ne, if_neg ne, h.outline]
  masks key image image' hne hi hi' := by
    rw [get?_insert] at hi hi'
    split at hi
    · next hk =>
      rw [if_pos hk] at hi'
      rwa [← Option.some.inj hi, ← Option.some.inj hi']
    · next hk =>
      rw [if_neg hk] at hi'
      exact h.masks key image image' hne hi hi'

theorem sameAlpha (h : store.SameCoverage other) {name : LayerName} {mask mask' : Image}
    (hm : store.get? name = some mask) (hm' : other.get? name = some mask') :
    mask.SameAlpha mask' := by
  by_cases hn : name = .outline
  · subst hn
    rw [h.outline, hm'] at hm
    obtain rfl := Option.some.inj hm
    exact .refl _
  · exact h.masks name mask mask' hn hm hm'

/-- Scaled masks differ in color at most. -/
theorem sameAlpha_scaled (h : store.SameCoverage other) {key : MaskKey} {image image' : Image}
    (hi : store.scaled? key = some image) (hi' : other.scaled? key = some image') :
    image.SameAlpha image' := by
  obtain ⟨mask, hm, rfl⟩ := Option.map_eq_some_iff.1 hi
  obtain ⟨mask', hm', rfl⟩ := Option.map_eq_some_iff.1 hi'
  exact (h.sameAlpha hm hm').resize key.size.toNat

/-- What is painted in the color of a layer is the same. -/
theorem tinted_eq (h : store.SameCoverage other) (size : UInt32) :
    store.tinted size = other.tinted size := by
  funext layer
  have hc := h.contains layer.name
  unfold tinted
  cases known : store.contains layer.name with
  | true =>
    rw [known] at hc
    obtain ⟨mask, hg, hm⟩ := get_of_contains known
    obtain ⟨mask', hg', hm'⟩ := get_of_contains hc.symm
    have painted := ((h.sameAlpha hm hm').resize size.toNat).tint_eq layer.color
    rw [hg, hg']
    exact congrArg Except.ok painted
  | false =>
    rw [known] at hc
    rw [get_of_not_contains known, get_of_not_contains hc.symm]

theorem picture_eq (h : store.SameCoverage other) (a : Attributes) (background : Option Color)
    (size : UInt32) : store.picture a background size = other.picture a background size := by
  have outline : store.get .outline = other.get .outline := by rw [get, get, h.outline]
  unfold picture
  rw [outline]
  simp only [h.tinted_eq]

end SameCoverage

end Store

namespace Cache

/-- The colors of masks are not seen. Over two stores with masks for the same layers, of the same
    sizes and with the same alphas, and with one mask for the outline, every painting comes to the
    same picture or fails for the same reason, after any two histories of requests. What is kept in
    the caches differs in color at most. -/
theorem render_of_sameCoverage (store other : Store) (h : store.SameCoverage other)
    (history otherHistory : List Request) :
    (∀ (a : Attributes) (background : Option Color) (size : UInt32),
      ((render store a background size).runOn (after store history)).1 =
        ((render other a background size).runOn (after other otherHistory)).1) ∧
    ∀ (key : MaskKey) (image image' : Image),
      (after store history).images[key]? = some image →
      (after other otherHistory).images[key]? = some image' → image.SameAlpha image' := by
  have coherent := coherent_after store history
  have coherent' := coherent_after other otherHistory
  constructor
  · intro a background size
    rw [coherent.runOn_render, coherent'.runOn_render, h.picture_eq]
  · intro key image image' hi hi'
    exact h.sameAlpha_scaled (coherent.image_eq hi) (coherent'.image_eq hi')

/-- Half clear masks in two colors, whose scaled pixels differ: one picture is painted on a warm
    cache, the same one on an empty cache. -/
theorem render_of_sameCoverage_half_clear :
    ∃ (store other : Store) (a : Attributes) (image : Image),
      store.get? .body ≠ other.get? .body ∧ store.SameCoverage other ∧
      ((render store a none 2).runOn (after store [.warm [2]])).1 = .ok image ∧
      ((render other a none 2).runOn (after other [])).1 = .ok image := by
  let base := Store.empty.insert .outline (Image.filled 1 1 (.rgba 7 7 7 200))
    |>.insert .fin (Image.filled 1 1 .clear)
  let mask := Image.pair (.rgba 0 0 0 128) (.rgba 0 0 0 30)
  let store := base.insert .body (mask.tint ⟨1, 2, 3⟩)
  let other := base.insert .body (mask.tint ⟨250, 200, 9⟩)
  let a : Attributes :=
    { variety := .kohaku
      bodyLayers := [⟨.body, ⟨200, 20, 20⟩⟩]
      headLayers := []
      finLayers := []
      bodyColor := ⟨230, 230, 230⟩
      finColor := ⟨215, 215, 215⟩
      primaryColor := ⟨200, 20, 20⟩ }
  have same : store.SameCoverage other :=
    (Store.SameCoverage.refl base).insert (by decide) (mask.sameAlpha_tint _ _)
  obtain ⟨image, hi, -⟩ := Store.picture_eq_ok (by decide : ValidSize 2)
    (by decide : ∀ name ∈ a.layerNames, store.contains name = true) none
  have hi := (render_after_eq_ok_iff store [.warm [2]] a none 2 image).2 hi
  have alike := (render_of_sameCoverage store other same [.warm [2]] []).1 a none 2
  exact ⟨store, other, a, image, by decide +kernel, same, hi, alike.symm.trans hi⟩

end Cache

end Koi
