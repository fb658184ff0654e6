import Koi.Color.Range
import Koi.Layer

/-!
# Varieties and palettes

There are five varieties of koi. A palette is a variety with its colors picked; it says which
patterns the variety may wear, how many of them, and the colors of body and fins.

* `Palette.pick`: the palette of a variety for a seed.
* `Palette.counts`, `Palette.candidates`: how many patterns a region gets, and from which pool.
* `Palette.bodyColor`, `Palette.finColor`, `Palette.primaryColor`: the base colors.
-/

namespace Koi

open ColorRange (redRange orangeRange whiteRange blackRange yellowRange)

/-- The varieties of koi (`VariantKind`). -/
inductive Variety where
  | kohaku
  | showa
  | utsuri
  | monochrome
  | shigure
  deriving DecidableEq, Repr

namespace Variety

/-- All varieties, in the order in which a draw numbers them (`ALL`). -/
def all : List Variety := [.kohaku, .showa, .utsuri, .monochrome, .shigure]

def name : Variety → String
  | .kohaku => "kohaku"
  | .showa => "showa"
  | .utsuri => "utsuri"
  | .monochrome => "monochrome"
  | .shigure => "shigure"

def ofName? (text : String) : Option Variety :=
  all.find? fun variety => variety.name = text

end Variety

/-- How many patterns a region gets: from `least` up to and without `bound`, or `bound` itself if
    there is no number between them. -/
structure CountRange where
  least : Nat
  bound : Nat
  deriving DecidableEq, Repr

/-- Draws a number of patterns (`layer_count`). A range without choice takes nothing from the
    generator. -/
def CountRange.draw (range : CountRange) (g : Xorshift) : Nat × Xorshift :=
  if choice : range.least < range.bound then
    let (extra, g) := g.below (range.bound - range.least) (Nat.sub_pos_of_lt choice)
    (range.least + extra.val, g)
  else (range.bound, g)

/-- A variety with its colors (`Variant`). -/
inductive Palette where
  | kohaku (color : Color)
  | showa (red black base : Color)
  | utsuri (color : Color)
  | monochrome (color : Color)
  | shigure (black red : Color)
  deriving DecidableEq, Repr

namespace Palette

/-- The palette of a variety for a seed (`new`). -/
def pick (variety : Variety) (seed : UInt64) : Palette :=
  match variety with
  | .kohaku => .kohaku (redRange.sample seed)
  | .showa =>
    .showa (redRange.sample seed) (blackRange.sample seed)
      (ColorRange.choose [redRange, orangeRange, whiteRange] (by decide) seed)
  | .utsuri => .utsuri (blackRange.sample seed)
  | .monochrome =>
    .monochrome
      (ColorRange.choose [whiteRange, orangeRange, redRange, yellowRange] (by decide) seed)
  | .shigure => .shigure (blackRange.sample seed) (redRange.sample seed)

def variety : Palette → Variety
  | kohaku _ => .kohaku
  | showa _ _ _ => .showa
  | utsuri _ => .utsuri
  | monochrome _ => .monochrome
  | shigure _ _ => .shigure

/-- How many patterns a region gets (`layer_count_range`). -/
def counts (palette : Palette) (region : Region) : CountRange :=
  match palette, region with
  | monochrome _, _ => ⟨0, 0⟩
  | shigure _ _, .body => ⟨0, 2⟩
  | shigure _ _, .head => ⟨1, 1⟩
  | shigure _ _, .fin => ⟨0, 1⟩
  | _, .body => ⟨1, 4⟩
  | _, .head => ⟨0, 1⟩
  | _, .fin => ⟨0, 1⟩

/-- The patterns that a region's are drawn from (`candidates`). -/
def candidates (palette : Palette) (region : Region) : List Layer :=
  match palette, region with
  | kohaku color, .body => Layer.numbered .body 1 10 color
  | kohaku color, .head => Layer.numbered .head 1 5 color
  | kohaku color, .fin => Layer.numbered .fin 1 2 color
  | showa red black _, .body => Layer.numbered .body 1 8 red ++ Layer.numbered .body 1 8 black
  | showa red _ _, .head => Layer.numbered .head 1 5 red
  | showa red black _, .fin => Layer.numbered .fin 1 2 red ++ Layer.numbered .fin 1 2 black
  | utsuri color, .body => Layer.numbered .body 1 8 color
  | utsuri color, .head => Layer.numbered .head 1 5 color
  | utsuri color, .fin => Layer.numbered .fin 1 2 color
  | monochrome _, _ => []
  | shigure black _, .body => Layer.numbered .body 1 8 black
  | shigure _ red, .head => Layer.numbered .head 6 7 red
  | shigure black _, .fin => Layer.numbered .fin 1 2 black

/-- The color of the body for a seed (`body_color`). -/
def bodyColor (palette : Palette) (seed : UInt64) : Color :=
  match palette with
  | kohaku _ | shigure _ _ => whiteRange.sample seed
  | showa _ _ base => base
  | utsuri _ => ColorRange.choose [whiteRange, orangeRange, redRange] (by decide) seed
  | monochrome color => color

/-- The color of the fins for a seed (`fin_background_color`). -/
def finColor (palette : Palette) (seed : UInt64) : Color :=
  match palette with
  | showa _ _ base => base
  | monochrome color => color
  | kohaku _ | utsuri _ | shigure _ _ => whiteRange.sample seed

/-- The color that stands for the whole koi (`primary_color`). -/
def primaryColor : Palette → Color
  | kohaku color | utsuri color | monochrome color => color
  | showa red _ _ | shigure _ red => red

end Palette

end Koi
