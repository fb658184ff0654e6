import Koi.Palette

/-!
# The catalogue

The catalogue lists every layer that some koi may need: the three common ones and each pattern of
each variety's pools. A variety's pools hold the same names whatever the colors.

* `Catalog.names`: the names, in order and each once.
-/

namespace Koi.Catalog

/-- The layers of every koi. -/
def common : List LayerName := [.body, .fin, .outline]

/-- The names in all pools of a variety. -/
def poolNames (variety : Variety) : List LayerName :=
  Region.all.flatMap fun region =>
    ((Palette.pick variety 0).candidates region).map Layer.name

/-- All layers of the catalogue, in the order of names and each once (`catalog_layer_names`). -/
def names : List LayerName :=
  (LayerName.sort (common ++ Variety.all.flatMap poolNames).eraseDups)

end Koi.Catalog
