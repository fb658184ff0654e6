import Koi.Png.Header

/-!
# Passes

The pixels of an interlaced image come in seven passes, each of which is a smaller image. An image
that is not interlaced has one pass.

* `Pass`: a regular part of the pixels.
* `Header.passes`: the passes of an image.
* `Header.dataSize`: the size of the data of all of them.
-/

namespace Koi.Png

/-- The pixels in every `columnStep`-th column from `column` on, and there in every `rowStep`-th
    row from `row` on. -/
structure Pass where
  column : Nat
  row : Nat
  columnStep : Nat
  rowStep : Nat
  deriving DecidableEq, Repr

namespace Pass

/-- All pixels. -/
def whole : Pass := ⟨0, 0, 1, 1⟩

/-- The passes of an interlaced image. They have no pixel in common. -/
def seven : List Pass :=
  [⟨0, 0, 8, 8⟩, ⟨4, 0, 8, 8⟩, ⟨0, 4, 4, 8⟩, ⟨2, 0, 4, 4⟩, ⟨0, 2, 2, 4⟩, ⟨1, 0, 2, 2⟩, ⟨0, 1, 1, 2⟩]

/-- The number of places below `n` in steps from `first` on. -/
def count (n first step : Nat) : Nat := (n + step - 1 - first) / step

/-- The header of the pass as an image of its own. -/
def header (p : Pass) (h : Header) : Header :=
  { h with
    width := count h.width p.column p.columnStep
    height := count h.height p.row p.rowStep }

/-- Whether the pass has pixels in a column. -/
def hasColumn (p : Pass) (x : Nat) : Bool := p.column ≤ x ∧ (x - p.column) % p.columnStep = 0

/-- Whether the pass has pixels in a row. -/
def hasRow (p : Pass) (y : Nat) : Bool := p.row ≤ y ∧ (y - p.row) % p.rowStep = 0

end Pass

namespace Header

/-- The passes that have pixels. -/
def passes (h : Header) : List Pass :=
  (if h.interlaced then Pass.seven else [Pass.whole]).filter fun p =>
    (p.header h).width ≠ 0 ∧ (p.header h).height ≠ 0

/-- The number of bytes of the data of all passes. -/
def dataSize (h : Header) : Nat :=
  h.passes.foldl (fun size p => size + (p.header h).rawSize) 0

end Header

end Koi.Png
