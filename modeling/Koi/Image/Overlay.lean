import Koi.Image

/-!
# Painting one image over another

The arithmetic is in single precision: each operation is rounded to the nearest number, and the
result is cut to a byte.

* `Pixel.onto`: one pixel laid onto another.
* `Image.overlay`: one image over another, from their common upper left corner.
* `Image.stamp`: a mask in a color over an image.
* `pixel?_overlay`, `pixel?_stamp`: what they show.
-/

namespace Koi

/-- The share of a byte in the full value. -/
def unitShare (b : UInt8) : Float32 := b.toFloat32 / 255.0

/-- The alpha of a blend of two alphas. -/
def blendAlpha (back front : Float32) : Float32 := (back + front) - back * front

/-- One color component of a blend whose alpha is `alpha`. -/
def blendComponent (back backAlpha front frontAlpha alpha : Float32) : Float32 :=
  ((front * frontAlpha) + (back * backAlpha) * (1.0 - frontAlpha)) / alpha

/-- The byte for a share of the full value, rounded down. -/
def shareByte (share : Float32) : UInt8 := (255.0 * share).toUInt8

/-- The pixel seen where `front` lies over `back` (`blend`). A clear front changes nothing and an
    opaque one hides all. -/
def Pixel.onto (front back : Pixel) : Pixel :=
  if front.alpha = 0 then back
  else if front.alpha = 255 then front
  else
    let frontAlpha := unitShare front.alpha
    let backAlpha := unitShare back.alpha
    let alpha := blendAlpha backAlpha frontAlpha
    let component (front back : UInt8) : UInt8 :=
      shareByte (blendComponent (unitShare back) backAlpha (unitShare front) frontAlpha alpha)
    .rgba (component front.red back.red) (component front.green back.green)
      (component front.blue back.blue) (shareByte alpha)

theorem Pixel.clear_onto (p : Pixel) : Pixel.clear.onto p = p := by
  simp [onto, clear]

/-! ## Runs of pixels -/

/-- Appends `n` pixels of a canvas, from the place `i` on, with those of a layer over them. The
    pixels of the layer are changed by `f` before. Equal neighbors are blended only once: `seen` is
    what the last pixels `front` and `back` came to. -/
@[specialize] def overlayRun (f : Pixel → Pixel) (canvas layer : Array Pixel) :
    (n i : Nat) → (front back seen : Pixel) → Array Pixel → Array Pixel
  | 0, _, _, _, _, out => out
  | n + 1, i, front, back, seen, out =>
    let p := canvas.getD i .clear
    let q := f (layer.getD i .clear)
    if q = front ∧ p = back then
      overlayRun f canvas layer n (i + 1) front back seen (out.push seen)
    else
      let seen := q.onto p
      overlayRun f canvas layer n (i + 1) q p seen (out.push seen)

theorem toList_overlayRun (f : Pixel → Pixel) (canvas layer : Array Pixel) (n i : Nat)
    (front back : Pixel) (out : Array Pixel) :
    (overlayRun f canvas layer n i front back (front.onto back) out).toList =
      out.toList ++ (List.range' i n).map fun k =>
        (f (layer.getD k .clear)).onto (canvas.getD k .clear) := by
  induction n generalizing i front back out with
  | zero => simp [overlayRun]
  | succ n ih =>
    rw [overlayRun]
    simp only
    split
    · next h =>
      rw [ih, List.range'_succ, List.map_cons, h.1, h.2, Array.toList_push, List.append_assoc]
      rfl
    · rw [ih, List.range'_succ, List.map_cons, Array.toList_push, List.append_assoc]
      rfl

/-- The pixels of a canvas with those of a layer over them, which are changed by `f` before. -/
@[inline] def overlayPixels (f : Pixel → Pixel) (canvas layer : Array Pixel) : Array Pixel :=
  overlayRun f canvas layer canvas.size 0 .clear .clear .clear
    (Array.emptyWithCapacity canvas.size)

theorem toList_overlayPixels (f : Pixel → Pixel) (canvas layer : Array Pixel) :
    (overlayPixels f canvas layer).toList = (List.range' 0 canvas.size).map fun k =>
      (f (layer.getD k .clear)).onto (canvas.getD k .clear) := by
  have h := toList_overlayRun f canvas layer canvas.size 0 .clear .clear
    (Array.emptyWithCapacity canvas.size)
  rw [Pixel.clear_onto] at h
  rw [overlayPixels, h]
  rfl

namespace Image

/-- The canvas with a layer over it, whose pixels are changed by `f` before. Where the layer has no
    pixel, the canvas remains. -/
@[inline] def overlayWith (f : Pixel → Pixel) (canvas layer : Image) : Image :=
  if layer.width = canvas.width ∧ layer.height = canvas.height then
    { canvas with
      pixels := overlayPixels f canvas.pixels layer.pixels
      size_pixels := by
        rw [← Array.length_toList, toList_overlayPixels, List.length_map, List.length_range',
          canvas.size_pixels] }
  else
    ofRows canvas.width canvas.height fun y x =>
      let p := canvas.pixels.getD (y * canvas.width + x) .clear
      match layer.pixel? x y with
      | some q => (f q).onto p
      | none => p

/-- The canvas with a layer over it (`overlay`). -/
def overlay (canvas layer : Image) : Image := canvas.overlayWith id layer

/-- The canvas with a mask over it that is painted in a color. -/
def stamp (canvas : Image) (color : Color) (mask : Image) : Image :=
  canvas.overlayWith (Pixel.tint color) mask

theorem pixel?_overlayWith (f : Pixel → Pixel) (canvas layer : Image) (x y : Nat) :
    (canvas.overlayWith f layer).pixel? x y = (canvas.pixel? x y).map fun p =>
      match layer.pixel? x y with
      | some q => (f q).onto p
      | none => p := by
  by_cases h : x < canvas.width ∧ y < canvas.height
  · have hi : y * canvas.width + x < canvas.pixels.size := by
      rw [canvas.size_pixels]
      exact index_lt h.1 h.2
    unfold overlayWith
    split
    · next hs =>
      have hl : y * canvas.width + x < layer.pixels.size := by
        rw [layer.size_pixels, hs.1, hs.2, ← canvas.size_pixels]
        exact hi
      have hg : (overlayPixels f canvas.pixels layer.pixels)[y * canvas.width + x]? =
          some ((f layer.pixels[y * canvas.width + x]).onto
            canvas.pixels[y * canvas.width + x]) := by
        rw [← Array.getElem?_toList, toList_overlayPixels, List.getElem?_map,
          List.getElem?_range' hi]
        simp [Array.getD, hi, hl]
      simp [pixel?, h.1, hs.1, hg, hi, hl]
    · rw [pixel?_ofRows]
      simp [h.1, h.2, pixel?, Array.getD, hi]
  · have hn := (pixel?_eq_none_iff canvas x y).2 h
    rw [hn, Option.map_none]
    apply (pixel?_eq_none_iff _ x y).2
    unfold overlayWith
    split <;> exact h

theorem pixel?_overlay (canvas layer : Image) (x y : Nat) :
    (canvas.overlay layer).pixel? x y = (canvas.pixel? x y).map fun p =>
      match layer.pixel? x y with
      | some q => q.onto p
      | none => p :=
  pixel?_overlayWith id canvas layer x y

/-- Painting a mask in a color and then over the canvas is the same as doing both at once. -/
theorem pixel?_stamp (canvas : Image) (color : Color) (mask : Image) (x y : Nat) :
    (canvas.stamp color mask).pixel? x y = (canvas.overlay (mask.tint color)).pixel? x y := by
  rw [stamp, pixel?_overlayWith, pixel?_overlay, tint, pixel?_map]
  cases mask.pixel? x y <;> rfl

end Image

end Koi
