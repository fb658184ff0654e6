import Koi.Png.Pass

/-!
# Rows

The rows of an image are stored one after another, each behind a byte that names its filter. A
filtered row holds the differences of its bytes to a prediction from their neighbors.

* `Filter.undo`: a row without its filter.
* `passRows?`: the rows of all passes.
-/

namespace Koi.Png

/-- How the bytes of a row are predicted. -/
inductive Filter where
  | none
  | sub
  | up
  | average
  | paeth
  deriving DecidableEq, Repr

namespace Filter

def ofCode? : Nat → Option Filter
  | 0 => some .none
  | 1 => some .sub
  | 2 => some .up
  | 3 => some .average
  | 4 => some .paeth
  | _ => Option.none

/-- The neighbor that is nearest to `left + above - corner`. -/
def nearest (left above corner : UInt8) : UInt8 :=
  let l : Int := left.toNat
  let a : Int := above.toNat
  let c : Int := corner.toNat
  let estimate := l + a - c
  let dl := (estimate - l).natAbs
  let da := (estimate - a).natAbs
  let dc := (estimate - c).natAbs
  if dl ≤ da ∧ dl ≤ dc then left else if da ≤ dc then above else corner

/-- The prediction from the bytes to the left, above, and above the left one. -/
def predict (filter : Filter) (left above corner : UInt8) : UInt8 :=
  match filter with
  | .none => 0
  | .sub => left
  | .up => above
  | .average => ((left.toNat + above.toNat) / 2).toUInt8
  | .paeth => nearest left above corner

/-- The bytes of a row from the filtered ones and the row above. Neighbors outside the image are
    zero. `pixelBytes` is the distance between neighbors. -/
def undo (filter : Filter) (pixelBytes : Nat) (above row : ByteArray) : ByteArray :=
  match filter with
  | .none => row
  | filter =>
    Nat.fold row.size
      (fun i h out =>
        let left := if pixelBytes ≤ i then byteAt out (i - pixelBytes) else 0
        let corner := if pixelBytes ≤ i then byteAt above (i - pixelBytes) else 0
        out.push (row[i] + filter.predict left (byteAt above i) corner))
      .empty

end Filter

/-- The rows from the position `start` on, `count` of them; `above` is the row before. -/
def rowsFrom? (h : Header) (data : ByteArray) :
    (count start : Nat) → (above : ByteArray) → Option (List ByteArray)
  | 0, _, _ => some []
  | count + 1, start, above => do
    if data.size < start + 1 + h.rowBytes then none
    let filter ← Filter.ofCode? (byteAt data start).toNat
    let row := filter.undo h.pixelBytes above
      (data.extract (start + 1) (start + 1 + h.rowBytes))
    let rows ← rowsFrom? h data count (start + 1 + h.rowBytes) row
    return row :: rows

/-- The rows of passes whose data starts at a position. What follows them does not matter. -/
def passRows? (h : Header) (data : ByteArray) :
    List Pass → (start : Nat) → Option (List (Pass × Array ByteArray))
  | [], _ => some []
  | pass :: passes, start => do
    let part := pass.header h
    let rows ← rowsFrom? part data part.height start .empty
    let rest ← passRows? h data passes (start + part.rawSize)
    return (pass, rows.toArray) :: rest

end Koi.Png
