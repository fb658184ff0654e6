import Koi.Color
import Koi.Random.Xorshift

/-!
# Color ranges

A range bounds each component on its own. A seed picks a color from it: each component is the
seed reduced to the width of its interval.

* `ColorRange.sample`, `ColorRange.Contains`: picking from a range and lying in it.
* `ColorRange.choose`, `ColorRange.choose?`: one of several ranges, then a color from it.
-/

namespace Koi

/-- The values from `lo` up to and without `hi`; only `lo` if there are none. -/
structure Interval where
  lo : UInt8
  hi : UInt8
  deriving DecidableEq, Repr

namespace Interval

/-- No value lies strictly between the bounds' order: only the lower bound belongs. -/
def Degenerate (i : Interval) : Prop := i.hi ≤ i.lo

instance (i : Interval) : Decidable i.Degenerate := inferInstanceAs (Decidable (i.hi ≤ i.lo))

/-- The number of values of a non-degenerate interval. -/
def width (i : Interval) : Nat := i.hi.toNat - i.lo.toNat

/-- The value that a seed picks (`limit`). -/
def sample (i : Interval) (seed : UInt64) : UInt8 :=
  if i.Degenerate then i.lo else i.lo + (seed.toNat % i.width).toUInt8

/-- The values that belong to the interval. -/
def Contains (i : Interval) (x : UInt8) : Prop :=
  if i.Degenerate then x = i.lo else i.lo ≤ x ∧ x < i.hi

instance (i : Interval) (x : UInt8) : Decidable (i.Contains x) := by
  unfold Contains; infer_instance

end Interval

/-- A box of colors, one interval for each component (`ColorRange`). -/
structure ColorRange where
  red : Interval
  green : Interval
  blue : Interval
  deriving DecidableEq, Repr

namespace ColorRange

/-- The color that a seed picks (`apply`); all three components use the same seed. -/
def sample (range : ColorRange) (seed : UInt64) : Color :=
  ⟨range.red.sample seed, range.green.sample seed, range.blue.sample seed⟩

/-- Each component lies in its interval (`contains`). -/
def Contains (range : ColorRange) (color : Color) : Prop :=
  range.red.Contains color.red ∧ range.green.Contains color.green ∧
    range.blue.Contains color.blue

instance (range : ColorRange) (color : Color) : Decidable (range.Contains color) := by
  unfold Contains; infer_instance

/-- A fresh generator for the seed picks one of the ranges, and the same seed picks its color
    (`pick_among`). -/
def choose (ranges : List ColorRange) (nonempty : 0 < ranges.length) (seed : UInt64) : Color :=
  let i := ((Xorshift.ofSeed seed).below ranges.length nonempty).1
  ranges[i].sample seed

/-- `pick_among` for a list that may be empty. -/
def choose? (ranges : List ColorRange) (seed : UInt64) : Except Error Color :=
  if nonempty : 0 < ranges.length then .ok (choose ranges nonempty seed)
  else .error .emptyPalette

/-! ## The ranges of koi colors -/

def redRange : ColorRange := ⟨⟨145, 255⟩, ⟨0, 75⟩, ⟨0, 54⟩⟩

def orangeRange : ColorRange := ⟨⟨145, 255⟩, ⟨145, 255⟩, ⟨0, 75⟩⟩

def whiteRange : ColorRange := ⟨⟨210, 255⟩, ⟨210, 255⟩, ⟨210, 255⟩⟩

def blackRange : ColorRange := ⟨⟨0, 54⟩, ⟨0, 54⟩, ⟨0, 54⟩⟩

def yellowRange : ColorRange := ⟨⟨145, 255⟩, ⟨145, 255⟩, ⟨0, 75⟩⟩

end ColorRange

end Koi
