import Koi.Palette

/-!
# Attributes

What is decided about one koi: its variety, the patterns it wears and its base colors.

* `Attributes.layersOf`, `Attributes.patterns`: the patterns of a region, and all of them in
  painting order.
-/

namespace Koi

/-- The attributes of a koi (`Attributes`). -/
structure Attributes where
  variety : Variety
  bodyLayers : List Layer
  headLayers : List Layer
  finLayers : List Layer
  bodyColor : Color
  finColor : Color
  primaryColor : Color
  deriving DecidableEq, Repr

namespace Attributes

/-- The patterns of a region (`layers`). -/
def layersOf (a : Attributes) : Region → List Layer
  | .body => a.bodyLayers
  | .head => a.headLayers
  | .fin => a.finLayers

/-- All patterns, in the order in which they are painted (`pattern_layers`). -/
def patterns (a : Attributes) : List Layer :=
  Region.all.flatMap a.layersOf

/-- The number of patterns (`pattern_quantity`). -/
def patternQuantity (a : Attributes) : Nat :=
  a.bodyLayers.length + a.headLayers.length + a.finLayers.length

theorem patterns_eq (a : Attributes) :
    a.patterns = a.bodyLayers ++ a.headLayers ++ a.finLayers := by
  simp [patterns, Region.all, layersOf]

theorem length_patterns (a : Attributes) : a.patterns.length = a.patternQuantity := by
  simp [patterns_eq, patternQuantity, Nat.add_assoc]

end Attributes

end Koi
