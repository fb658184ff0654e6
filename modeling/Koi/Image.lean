import Koi.Pixel

/-!
# Images

An image is a rectangle of pixels.

* `Image.pixel?`: the pixel at a position.
* `Image.ofRows`, `Image.map`, `Image.filled`, `Image.pair`: building images; `pixel?_ofRows` and
  `pixel?_map` say what they show.
* `Image.tint`: a mask painted in one color.
-/

namespace Koi

/-- An image; its pixels are listed row by row from the top. -/
structure Image where
  width : Nat
  height : Nat
  pixels : Array Pixel
  size_pixels : pixels.size = width * height
  deriving DecidableEq, Repr

/-! ## Rows -/

/-- Appends a row of pixels, given by their columns. -/
@[inline] def pushRow (width : Nat) (row : Nat → Pixel) (pixels : Array Pixel) : Array Pixel :=
  Nat.fold width (fun x _ pixels => pixels.push (row x)) pixels

theorem size_pushRow (width : Nat) (row : Nat → Pixel) (pixels : Array Pixel) :
    (pushRow width row pixels).size = pixels.size + width := by
  induction width with
  | zero => simp [pushRow]
  | succ n ih =>
    simp only [pushRow, Nat.fold_succ, Array.size_push] at ih ⊢
    omega

theorem getElem?_pushRow (width : Nat) (row : Nat → Pixel) (pixels : Array Pixel) (i : Nat) :
    (pushRow width row pixels)[i]? =
      if i < pixels.size then pixels[i]?
      else if i < pixels.size + width then some (row (i - pixels.size)) else none := by
  induction width with
  | zero =>
    by_cases h : i < pixels.size
    · simp [pushRow, h]
    · simp [pushRow, h]
  | succ n ih =>
    have hs := size_pushRow n row pixels
    have hp : pushRow (n + 1) row pixels = (pushRow n row pixels).push (row n) := by
      simp [pushRow, Nat.fold_succ]
    rw [hp, Array.getElem?_push, hs, ih]
    by_cases h : i = pixels.size + n
    · subst h
      simp
    · by_cases h1 : i < pixels.size
      · simp [h, h1]
      · have hb : i < pixels.size + n ↔ i < pixels.size + (n + 1) := by omega
        simp [h, h1, hb]

/-- The pixels of some rows, from the top to the bottom. -/
@[inline] def pixelRows (width height : Nat) (row : Nat → Nat → Pixel) : Array Pixel :=
  Nat.fold height (fun y _ pixels => pushRow width (row y) pixels)
    (Array.emptyWithCapacity (width * height))

theorem size_pixelRows (width height : Nat) (row : Nat → Nat → Pixel) :
    (pixelRows width height row).size = width * height := by
  induction height with
  | zero => simp [pixelRows]
  | succ n ih =>
    have hp : pixelRows width (n + 1) row = pushRow width (row n) (pixelRows width n row) := by
      simp [pixelRows, Nat.fold_succ]
    rw [hp, size_pushRow, ih, Nat.mul_succ]

namespace Image

/-- Whether there is no pixel. -/
def isEmpty (image : Image) : Bool := image.width = 0 || image.height = 0

/-- The pixel in column `x` of row `y`. -/
def pixel? (image : Image) (x y : Nat) : Option Pixel :=
  if x < image.width then image.pixels[y * image.width + x]? else none

/-- The image with the pixel `row y x` in column `x` of row `y`. -/
@[inline] def ofRows (width height : Nat) (row : Nat → Nat → Pixel) : Image where
  width := width
  height := height
  pixels := pixelRows width height row
  size_pixels := size_pixelRows width height row

/-- The image with every pixel replaced. -/
@[inline] def map (f : Pixel → Pixel) (image : Image) : Image where
  width := image.width
  height := image.height
  pixels := image.pixels.map f
  size_pixels := by rw [Array.size_map, image.size_pixels]

/-- An image of one pixel value. -/
def filled (width height : Nat) (p : Pixel) : Image where
  width := width
  height := height
  pixels := Array.replicate (width * height) p
  size_pixels := Array.size_replicate

/-- Two pixels side by side. -/
def pair (left right : Pixel) : Image where
  width := 2
  height := 1
  pixels := #[left, right]
  size_pixels := rfl

/-- An image that shows nothing. -/
def blank (width height : Nat) : Image := filled width height .clear

/-- A mask painted in a color (`colorize`). -/
def tint (color : Color) (mask : Image) : Image := mask.map (Pixel.tint color)

/-! ## Pixels of built images -/

theorem index_lt {width height x y : Nat} (hx : x < width) (hy : y < height) :
    y * width + x < width * height := by
  have h : (y + 1) * width ≤ height * width := Nat.mul_le_mul_right width hy
  rw [Nat.add_mul, Nat.one_mul, Nat.mul_comm height width] at h
  omega

theorem pixel?_eq_none_iff (image : Image) (x y : Nat) :
    image.pixel? x y = none ↔ ¬ (x < image.width ∧ y < image.height) := by
  unfold pixel?
  split
  · next hx =>
    rw [Array.getElem?_eq_none_iff, image.size_pixels]
    constructor
    · rintro h ⟨-, hy⟩
      have := index_lt hx hy
      omega
    · intro h
      have hy : image.height ≤ y := by
        rcases Nat.lt_or_ge y image.height with hy | hy
        · exact absurd ⟨hx, hy⟩ h
        · exact hy
      have := Nat.mul_le_mul_right image.width hy
      rw [Nat.mul_comm image.height] at this
      omega
  · next hx => simp [hx]

theorem getElem?_pixelRows {width height x y : Nat} (row : Nat → Nat → Pixel) (hx : x < width)
    (hy : y < height) : (pixelRows width height row)[y * width + x]? = some (row y x) := by
  induction height with
  | zero => exact absurd hy (Nat.not_lt_zero y)
  | succ n ih =>
    have hp : pixelRows width (n + 1) row = pushRow width (row n) (pixelRows width n row) := by
      simp [pixelRows, Nat.fold_succ]
    rw [hp, getElem?_pushRow, size_pixelRows]
    by_cases h : y < n
    · rw [if_pos (index_lt hx h), ih h]
    · have hn : y = n := by omega
      subst hn
      have hm : y * width + x = width * y + x := by rw [Nat.mul_comm]
      rw [hm, if_neg (by omega), if_pos (by omega)]
      simp

@[simp] theorem pixel?_ofRows (width height : Nat) (row : Nat → Nat → Pixel) (x y : Nat) :
    (ofRows width height row).pixel? x y =
      if x < width ∧ y < height then some (row y x) else none := by
  by_cases h : x < width ∧ y < height
  · simp [pixel?, ofRows, h.1, h.2, getElem?_pixelRows row h.1 h.2]
  · rw [if_neg h]
    exact (pixel?_eq_none_iff _ x y).2 h

@[simp] theorem pixel?_map (f : Pixel → Pixel) (image : Image) (x y : Nat) :
    (image.map f).pixel? x y = (image.pixel? x y).map f := by
  unfold pixel? map
  split <;> simp

end Image

end Koi
