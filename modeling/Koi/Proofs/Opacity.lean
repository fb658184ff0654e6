import Koi.Proofs.Layering
import Koi.Proofs.Single
import Mathlib.Data.List.Induction

/-!
# Koi over a background

A picture over a background is not quite opaque everywhere. Where a layer has one of some partial
alphas, the rounding of single precision makes the sum of the alphas a little less than one, and the
byte that is cut from it is 254. No layer but an opaque one makes up for this.

* `Pixel.Dulls`: the alphas that do this to an opaque pixel.
* `Pixel.alpha_onto_full`, `Pixel.alpha_onto_dulled`: the alpha of one pixel laid onto another.
* `Pixel.alpha_stack`: the alpha of pixels laid onto an opaque one.
* `Cache.alpha_render`: the alphas of a picture over a background, after every history of a cache.
-/

namespace Koi

namespace Pixel

/-! ## One pixel onto another -/

/-- An alpha that takes an opaque pixel to 254.

    The share of an alpha `a` from 128 on is `(65793 * a + 1) / 2 ^ 24`, since
    `2 ^ 24 = 65793 * 255 + 1`. The sum of one and this share has room for one bit less. If `a` is a
    multiple of four, this is a tie that is rounded down, so that `1 - 2 ^ (-24)` is left when the
    share is taken away again. -/
def Dulls (alpha : UInt8) : Prop := 128 ≤ alpha.toNat ∧ alpha.toNat < 255 ∧ 4 ∣ alpha.toNat

instance (alpha : UInt8) : Decidable (Dulls alpha) :=
  inferInstanceAs (Decidable (128 ≤ alpha.toNat ∧ alpha.toNat < 255 ∧ 4 ∣ alpha.toNat))

theorem not_dulls_full : ¬ Dulls 255 := by decide

/-- What holds of all bytes strictly between 0 and 255 can be looked up in a table. -/
theorem forall_partial {P : UInt8 → Prop} (table : ∀ n < 255, 0 < n → P (UInt8.ofNat n))
    {alpha : UInt8} (h0 : alpha ≠ 0) (h255 : alpha ≠ 255) : P alpha := by
  have hle := alpha.toNat_lt
  have hpos : alpha.toNat ≠ 0 := fun hz => h0 (UInt8.toNat_inj.1 hz)
  have hlt : alpha.toNat ≠ 255 := fun hz => h255 (UInt8.toNat_inj.1 hz)
  have h := table alpha.toNat (by omega) (by omega)
  rwa [UInt8.ofNat_toNat] at h

theorem blend?_full {front : UInt8} (h0 : front ≠ 0) (h255 : front ≠ 255) :
    Single.blend? 255 front = some (if Dulls front then 254 else 255) :=
  forall_partial
    (P := fun front => Single.blend? 255 front = some (if Dulls front then 254 else 255))
    (by decide +kernel) h0 h255

theorem blend?_dulled {front : UInt8} (h0 : front ≠ 0) (h255 : front ≠ 255) :
    Single.blend? 254 front = some 254 :=
  forall_partial (P := fun front => Single.blend? 254 front = some 254) (by decide +kernel) h0 h255

theorem toNat_alpha_onto {front : Pixel} (back : Pixel) (h0 : front.alpha ≠ 0)
    (h255 : front.alpha ≠ 255) {alpha : Nat}
    (h : Single.blend? back.alpha front.alpha = some alpha) :
    (front.onto back).alpha.toNat = alpha := by
  rw [onto, if_neg h0, if_neg h255, alpha_rgba, Single.toNat_shareByte_blendAlpha h]

theorem alpha_onto_full (front : Pixel) {back : Pixel} (hb : back.alpha = 255) :
    (front.onto back).alpha = if Dulls front.alpha then 254 else 255 := by
  by_cases h0 : front.alpha = 0
  · rw [onto_of_clear h0, hb, h0]
    rfl
  · by_cases h255 : front.alpha = 255
    · rw [onto_of_full h255, h255]
      rfl
    · have h := toNat_alpha_onto back h0 h255 (hb ▸ blend?_full h0 h255)
      apply UInt8.toNat_inj.1
      rw [h]
      split <;> rfl

theorem alpha_onto_dulled (front : Pixel) {back : Pixel} (hb : back.alpha = 254) :
    (front.onto back).alpha = if front.alpha = 255 then 255 else 254 := by
  by_cases h255 : front.alpha = 255
  · rw [onto_of_full h255, if_pos h255, h255]
  · rw [if_neg h255]
    by_cases h0 : front.alpha = 0
    · rw [onto_of_clear h0, hb]
    · have h := toNat_alpha_onto back h0 h255 (hb ▸ blend?_dulled h0 h255)
      exact UInt8.toNat_inj.1 h

/-! ## Pixels over an opaque one -/

/-- Some pixel has an alpha that takes an opaque one to 254, and no later one is opaque. -/
def Dulled (fronts : List Pixel) : Prop :=
  ∃ early top late, fronts = early ++ top :: late ∧ Dulls top.alpha ∧
    ∀ front ∈ late, front.alpha ≠ 255

theorem not_dulled_nil : ¬ Dulled [] := by
  rintro ⟨early, top, late, h, -⟩
  simp at h

theorem dulled_concat_iff (fronts : List Pixel) (last : Pixel) :
    Dulled (fronts ++ [last]) ↔ Dulls last.alpha ∨ Dulled fronts ∧ last.alpha ≠ 255 := by
  constructor
  · rintro ⟨early, top, late, h, hd, hl⟩
    rcases List.eq_nil_or_concat' late with rfl | ⟨late, other, rfl⟩
    · obtain ⟨-, hlast⟩ := List.append_inj' h rfl
      rw [(List.cons.inj hlast).1]
      exact .inl hd
    · rw [← List.cons_append, ← List.append_assoc] at h
      obtain ⟨rfl, hlast⟩ := List.append_inj' h rfl
      rw [(List.cons.inj hlast).1]
      exact .inr ⟨⟨early, top, late, rfl, hd, fun front hf => hl front (by simp [hf])⟩,
        hl other (by simp)⟩
  · rintro (hd | ⟨⟨early, top, late, rfl, hd, hl⟩, h255⟩)
    · exact ⟨fronts, last, [], rfl, hd, by simp⟩
    · refine ⟨early, top, late ++ [last], by simp, hd, ?_⟩
      intro front hf
      rcases List.mem_append.1 hf with hf | hf
      · exact hl front hf
      · rwa [List.mem_singleton.1 hf]

/-- Pixels laid onto an opaque one leave it opaque or take its alpha to 254. -/
theorem alpha_stack {back : Pixel} (hb : back.alpha = 255) (fronts : List Pixel) :
    (Dulled fronts ∧ (back.stack fronts).alpha = 254) ∨
      (¬ Dulled fronts ∧ (back.stack fronts).alpha = 255) := by
  induction fronts using List.reverseRecOn with
  | nil => exact .inr ⟨not_dulled_nil, hb⟩
  | append_singleton fronts last ih =>
    have hs : back.stack (fronts ++ [last]) = last.onto (back.stack fronts) := by
      rw [stack_append]
      rfl
    rw [hs, dulled_concat_iff]
    rcases ih with ⟨hd, h⟩ | ⟨hd, h⟩
    · rw [alpha_onto_dulled last h]
      by_cases h255 : last.alpha = 255
      · simp [h255, not_dulls_full]
      · simp [h255, hd]
    · rw [alpha_onto_full last h]
      by_cases hl : Dulls last.alpha
      · simp [hl]
      · simp [hl, hd]

end Pixel

/-! ## Pictures -/

namespace Store

variable {store : Store} {a : Attributes} {background : Color} {size : UInt32} {image : Image}
  {x y : Nat}

/-- The pixels of coats have the alphas of the scaled masks, where there are masks. -/
theorem dulled_coatPixels_iff (coats : List Coat) :
    Pixel.Dulled (store.coatPixels size x y coats) ↔ ∃ early top late q,
      coats = early ++ top :: late ∧ store.maskPixel? size x y top.name = some q ∧
      Pixel.Dulls q.alpha ∧ ∀ coat ∈ late, ∀ r,
        store.maskPixel? size x y coat.name = some r → r.alpha ≠ 255 := by
  constructor
  · rintro ⟨_, top, _, h, hd, hl⟩
    obtain ⟨early, rest, rfl, -, hrest⟩ := List.filterMap_eq_append_iff.1 h
    obtain ⟨skipped, coat, late, rfl, -, hcoat, rfl⟩ := List.filterMap_eq_cons_iff.1 hrest
    obtain ⟨q, hq, rfl⟩ := Option.map_eq_some_iff.1 hcoat
    rw [Pixel.alpha_coated] at hd
    refine ⟨early ++ skipped, coat, late, q, by simp, hq, hd, ?_⟩
    intro other ho r hr
    have hp : store.coatPixel? size x y other = some (r.coated other.color) := by
      rw [coatPixel?, hr, Option.map_some]
    rw [← r.alpha_coated other.color]
    exact hl _ (List.mem_filterMap.2 ⟨other, ho, hp⟩)
  · rintro ⟨early, top, late, q, rfl, hq, hd, hl⟩
    refine ⟨_, _, _, coatPixels_append_cons hq, by rwa [Pixel.alpha_coated], ?_⟩
    intro front hf
    obtain ⟨coat, hc, r, hr, rfl⟩ := mem_coatPixels hf
    rw [Pixel.alpha_coated]
    exact hl coat hc r hr

theorem alpha_picture (h : store.picture a (some background) size = .ok image)
    (hx : x < size.toNat) (hy : y < size.toNat) : ∃ p, image.pixel? x y = some p ∧
      ((Pixel.Dulled (store.coatPixels size x y a.coats) ∧ p.alpha = 254) ∨
        (¬ Pixel.Dulled (store.coatPixels size x y a.coats) ∧ p.alpha = 255)) := by
  have hb : background.opaquePixel.alpha = 255 := by rw [Color.opaquePixel, Pixel.alpha_rgba]
  exact ⟨_, pixel?_picture h hx hy, Pixel.alpha_stack hb _⟩

end Store

/-! ## A half clear body -/

/-- Masks of one pixel; that of the body has the alpha 128. -/
def Store.halfClear : Store :=
  Store.empty.insert .body (Image.filled 1 1 (.rgba 0 0 0 128))
    |>.insert .fin (Image.filled 1 1 .clear)
    |>.insert .outline (Image.filled 1 1 .clear)

/-- A koi without patterns. -/
def Attributes.plain : Attributes :=
  { variety := .kohaku
    bodyLayers := []
    headLayers := []
    finLayers := []
    bodyColor := ⟨230, 230, 230⟩
    finColor := ⟨215, 215, 215⟩
    primaryColor := ⟨200, 20, 20⟩ }

namespace Store

theorem dulled_halfClear : ∃ early top late q, Attributes.plain.coats = early ++ top :: late ∧
    halfClear.maskPixel? 1 0 0 top.name = some q ∧ Pixel.Dulls q.alpha ∧
    ∀ coat ∈ late, ∀ r, halfClear.maskPixel? 1 0 0 coat.name = some r → r.alpha ≠ 255 :=
  ⟨[], ⟨.body, some ⟨230, 230, 230⟩⟩, [⟨.fin, some ⟨215, 215, 215⟩⟩, ⟨.outline, none⟩],
    .rgba 0 0 0 128, rfl, by decide, by decide, by decide⟩

theorem exists_picture_halfClear : ∃ image,
    halfClear.picture .plain (some ⟨12, 34, 56⟩) 1 = .ok image ∧ 0 < image.width ∧
      0 < image.height := by
  have known : ∀ name ∈ Attributes.plain.layerNames, halfClear.contains name = true := by decide
  obtain ⟨image, h, hw, hh⟩ :=
    picture_eq_ok (by decide : ValidSize 1) known (some ⟨12, 34, 56⟩)
  refine ⟨image, h, ?_, ?_⟩
  · rw [hw]
    decide
  · rw [hh]
    decide

end Store

namespace Cache

/-- The alphas of a painting over a background, after every history of requests, are 255 or 254. An
    alpha is 254 exactly where the scaled mask of some layer has an alpha of at least 128 that is a
    multiple of four, and no later one is opaque. -/
theorem alpha_render (store : Store) (history : List Request) (a : Attributes)
    (background : Color) (size : UInt32) (image : Image)
    (h : ((render store a (some background) size).runOn (after store history)).1 = .ok image)
    (x y : Nat) (hx : x < image.width) (hy : y < image.height) :
    ∃ p, image.pixel? x y = some p ∧ (p.alpha = 254 ∨ p.alpha = 255) ∧
      (p.alpha = 254 ↔ ∃ early top late q, a.coats = early ++ top :: late ∧
        store.maskPixel? size x y top.name = some q ∧
        (128 ≤ q.alpha.toNat ∧ q.alpha.toNat < 255 ∧ 4 ∣ q.alpha.toNat) ∧
        ∀ coat ∈ late, ∀ r, store.maskPixel? size x y coat.name = some r → r.alpha ≠ 255) := by
  have hp := (render_after_eq_ok_iff store history a (some background) size image).1 h
  obtain ⟨hw, hh⟩ := Store.size_picture hp
  obtain ⟨p, hpixel, halpha⟩ := Store.alpha_picture hp (hw ▸ hx) (hh ▸ hy)
  rw [Store.dulled_coatPixels_iff] at halpha
  refine ⟨p, hpixel, ?_⟩
  rcases halpha with ⟨hd, halpha⟩ | ⟨hd, halpha⟩
  · exact ⟨.inl halpha, fun _ => hd, fun _ => halpha⟩
  · refine ⟨.inr halpha, fun h254 => ?_, fun hdulled => absurd hdulled hd⟩
    rw [halpha] at h254
    contradiction

/-- The only pixel of a plain koi with a half clear body, over a background. -/
theorem alpha_render_half_clear : ∃ image p,
    ((render .halfClear .plain (some ⟨12, 34, 56⟩) 1).runOn (after .halfClear [.warm [1]])).1 =
      .ok image ∧ image.pixel? 0 0 = some p ∧ p.alpha = 254 := by
  obtain ⟨image, h, hx, hy⟩ := Store.exists_picture_halfClear
  have h := (render_after_eq_ok_iff .halfClear [.warm [1]] .plain _ 1 image).2 h
  obtain ⟨p, hp, -, halpha⟩ := alpha_render .halfClear [.warm [1]] .plain _ 1 image h 0 0 hx hy
  exact ⟨image, p, h, hp, halpha.2 Store.dulled_halfClear⟩

/-- Not every picture over a background is opaque. -/
theorem not_forall_alpha_render_eq : ¬ ∀ (store : Store) (a : Attributes) (background : Color)
    (size : UInt32) (image : Image),
    ((render store a (some background) size).runOn empty).1 = .ok image →
      ∀ x y p, image.pixel? x y = some p → p.alpha = 255 := by
  intro hall
  obtain ⟨image, h, hx, hy⟩ := Store.exists_picture_halfClear
  have hrender := (render_after_eq_ok_iff .halfClear [] .plain _ 1 image).2 h
  obtain ⟨hw, hh⟩ := Store.size_picture h
  obtain ⟨p, hp, halpha⟩ := Store.alpha_picture h (hw ▸ hx) (hh ▸ hy)
  have hfull := hall .halfClear .plain _ 1 image hrender 0 0 p hp
  rcases halpha with ⟨-, halpha⟩ | ⟨hd, -⟩
  · rw [hfull] at halpha
    contradiction
  · exact hd ((Store.dulled_coatPixels_iff _).2 Store.dulled_halfClear)

end Cache

end Koi
