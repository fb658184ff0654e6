import Koi.Image

/-!
# Scaling images

An image is scaled by cubic convolution with the Catmull-Rom kernel, first along the columns and
then along the rows. All arithmetic is in single precision, one rounding for each operation, and
sums are taken from left to right; only the final value is brought back to a byte.

* `catmullRom`: the kernel.
* `Window`: the source positions and weights behind one position of the result.
* `Image.tallSamples`: one channel scaled along the columns.
* `Image.resize`: the image scaled to a square, each channel on its own; `size_resize` says that it
  is one.
-/

namespace Koi

/-! ## Kernel and windows -/

/-- The Catmull-Rom kernel. -/
def catmullRom (x : Float32) : Float32 :=
  let a := x.abs
  let a2 := a * a
  let a3 := a * a * a
  if a < 1.0 then ((9.0 * a3 + -15.0 * a2) + 6.0) / 6.0
  else if a < 2.0 then (((-3.0 * a3 + 15.0 * a2) + -24.0 * a) + 12.0) / 6.0
  else 0.0

/-- Consecutive source positions, from `start` on, with their weights. -/
structure Window where
  start : Nat
  weights : Array Float32
  deriving Inhabited

/-- The largest whole number not above `x`; zero for a negative `x`. -/
def floorNat (x : Float32) : Nat := x.toUInt64.toNat

/-- The smallest whole number not below `x`; zero for a negative `x`. -/
def ceilNat (x : Float32) : Nat :=
  if x.toUInt64.toFloat32 < x then x.toUInt64.toNat + 1 else x.toUInt64.toNat

/-- The number nearest to `n`. -/
def float32OfNat (n : Nat) : Float32 := n.toUInt64.toFloat32

/-- The window behind position `i` when a line of `length` samples is scaled to `size`. The
    kernel is widened when the line is made shorter. -/
def Window.make (length size i : Nat) : Window :=
  let ratio := float32OfNat length / float32OfNat size
  let scale := if ratio < 1.0 then 1.0 else ratio
  let support := 2.0 * scale
  let center := (float32OfNat i + 0.5) * ratio
  let start := min (floorNat (center - support)) (length - 1)
  let stop := max (start + 1) (min (ceilNat (center + support)) length)
  let center := center - 0.5
  let raw := Array.ofFn fun j : Fin (stop - start) =>
    catmullRom ((float32OfNat (start + j.val) - center) / scale)
  let total := raw.foldl (· + ·) 0.0
  ⟨start, raw.map (· / total)⟩

/-- The windows behind all positions. -/
def Window.table (length size : Nat) : Array Window :=
  Array.ofFn fun i : Fin size => Window.make length size i.val

/-- Adds the weighted samples of `n` positions of a window, from the position number `j` on, to a
    sum. -/
@[specialize] def Window.sumFrom (w : Window) (sample : Nat → Float32) :
    (n j : Nat) → Float32 → Float32
  | 0, _, sum => sum
  | n + 1, j, sum => w.sumFrom sample n (j + 1) (sum + sample (w.start + j) * w.weights.getD j 0.0)

/-- The weighted sum of the samples in a window. -/
@[inline] def Window.sum (w : Window) (sample : Nat → Float32) : Float32 :=
  w.sumFrom sample w.weights.size 0 0.0

/-- The nearest byte, with halves rounded up; values outside the range of a byte become its
    bounds. -/
@[inline] def roundByte (x : Float32) : UInt8 :=
  let whole := x.toUInt8
  if whole = 255 then 255 else if 0.5 ≤ x - whole.toFloat32 then whole + 1 else whole

/-! ## Channels and images -/

namespace Image

/-- A sample of a channel; zero outside of the image. -/
@[inline] def sample (image : Image) (c : Channel) (i : Nat) : Float32 :=
  ((image.pixels.getD i .clear).get c).toFloat32

/-- The samples of a channel after its columns have been scaled to `size`, row by row. They are
    neither rounded to bytes nor bounded. -/
@[inline] def tallSamples (image : Image) (size : Nat) (c : Channel) : Array Float32 :=
  (Window.table image.height size).foldl (fun samples window =>
    Nat.fold image.width (fun x _ samples =>
      samples.push (window.sum fun y => image.sample c (y * image.width + x))) samples)
    (Array.emptyWithCapacity (image.width * size))

/-- The pixel of the scaled image for a window of the scaled columns, whose row begins at the place
    `row`. -/
def pixelFrom (red green blue alpha : Array Float32) (w : Window) (row : Nat) :
    (n j : Nat) → (r g b a : Float32) → Pixel
  | 0, _, r, g, b, a => .rgba (roundByte r) (roundByte g) (roundByte b) (roundByte a)
  | n + 1, j, r, g, b, a =>
    let i := row + (w.start + j)
    let weight := w.weights.getD j 0.0
    pixelFrom red green blue alpha w row n (j + 1) (r + red.getD i 0.0 * weight)
      (g + green.getD i 0.0 * weight) (b + blue.getD i 0.0 * weight) (a + alpha.getD i 0.0 * weight)

/-- The image scaled to a square (`resize` with `CatmullRom`). An image of that size already remains
    as it is, and an empty one becomes clear. -/
def resize (image : Image) (size : Nat) : Image :=
  if image.isEmpty then blank size size
  else if image.width = size ∧ image.height = size then image
  else
    let columns := Window.table image.width size
    let red := image.tallSamples size .red
    let green := image.tallSamples size .green
    let blue := image.tallSamples size .blue
    let alpha := image.tallSamples size .alpha
    ofRows size size fun y x =>
      let row := y * image.width
      let window := columns.getD x default
      pixelFrom red green blue alpha window row window.weights.size 0 0.0 0.0 0.0 0.0

theorem size_resize (image : Image) (size : Nat) :
    (image.resize size).width = size ∧ (image.resize size).height = size := by
  unfold resize
  split
  · exact ⟨rfl, rfl⟩
  · split
    · next h => exact h
    · exact ⟨rfl, rfl⟩

example : (pair (.rgba 255 0 0 255) (.rgba 0 0 255 128)).resize 1 =
    filled 1 1 (.rgba 128 0 128 192) := by decide +kernel

end Image

end Koi
