import Koi.Attributes
import Koi.Image.Overlay
import Koi.Mask.Cache

/-!
# Painting a koi

A koi is painted from the back to the front: the body, the fins, the patterns of body, head and
fins, and the outline. Each mask is tinted in the color of its layer, except the outline, which
has its own colors.

* `Attributes.paintedLayers`: what lies under the outline.
* `paint`: all layers over a canvas.
* `render`: a koi over nothing or over a color.
-/

namespace Koi

/-- The colored layers of a koi, in the order in which they are painted (`draw_list`). -/
def Attributes.paintedLayers (a : Attributes) : List Layer :=
  ⟨.body, a.bodyColor⟩ :: ⟨.fin, a.finColor⟩ :: a.patterns

/-- The mask of a layer in a size, with the color of the layer. -/
def fetchLayer (store : Store) (size : UInt32) (layer : Layer) : CacheM (Color × Image) := do
  return (layer.color, ← Cache.fetch store layer.name size)

/-- Paints a koi over a canvas (`compose`). All masks are fetched, the outline last, before the
    first is painted. -/
def paint (store : Store) (a : Attributes) (size : UInt32) (canvas : Image) : CacheM Image := do
  let layers ← a.paintedLayers.mapM (fetchLayer store size)
  let outline ← Cache.fetch store .outline size
  let picture := layers.foldl (fun picture layer => picture.stamp layer.1 layer.2) canvas
  return picture.overlay outline

/-- The canvas of a koi: a square that is clear or filled with a color. -/
def canvas (background : Option Color) (size : Nat) : Image :=
  match background with
  | none => Image.blank size size
  | some color => Image.filled size size color.opaquePixel

/-- The picture of a koi, over nothing (`render`) or over a color (`render_with_background`). -/
def render (store : Store) (a : Attributes) (background : Option Color) (size : UInt32) :
    CacheM Image := do
  let size ← checkSize size
  paint store a size (canvas background size.toNat)

end Koi
