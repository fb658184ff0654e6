import Koi.Attributes
import Koi.Token

/-!
# From a token to a koi

Four streams of random numbers, seeded by the token's digits, decide the attributes: one picks
the variety and its palette, one the number of patterns, one the patterns, one the base colors.

* `Attributes.ofToken`: the attributes of a token id.
* `Attributes.generate`: the same from a text.
-/

namespace Koi

/-- The seeds that follow the palette are smaller than this bound (`SUB_SEED_BOUND`). -/
def smallSeedBound : Nat := 255

/-- Draws a small seed. -/
def Xorshift.smallSeed (g : Xorshift) : UInt64 × Xorshift :=
  let (seed, g) := g.below smallSeedBound (by decide)
  (seed.val.toUInt64, g)

/-- The variety and palette of a stream. -/
def Palette.draw (g : Xorshift) : Palette :=
  let (i, g) := g.below Variety.all.length (by decide)
  Palette.pick Variety.all[i] g.nextHalf.1

/-- Draws `count` members of a pool, repetition allowed. -/
def drawFrom (pool : List Layer) (nonempty : 0 < pool.length) : Nat → Xorshift → List Layer
  | 0, _ => []
  | count + 1, g =>
    let (i, g) := g.below pool.length nonempty
    pool[i] :: drawFrom pool nonempty count g

/-- Draws `count` members of a pool with a fresh generator; there are none from an empty pool
    (`pick_layers`). -/
def pickLayers (pool : List Layer) (count : Nat) (seed : UInt64) : List Layer :=
  if nonempty : 0 < pool.length then drawFrom pool nonempty count (Xorshift.ofSeed seed) else []

/-- The streams that the patterns of the three regions are drawn from, one region after another. -/
structure PatternStreams where
  counts : Xorshift
  layers : Xorshift

/-- The patterns of one region. The seed of the picks is drawn even if there are none to pick. -/
def PatternStreams.draw (streams : PatternStreams) (palette : Palette) (region : Region) :
    List Layer × PatternStreams :=
  let (count, counts) := (palette.counts region).draw streams.counts
  let (seed, layers) := streams.layers.smallSeed
  (pickLayers (palette.candidates region) count seed, ⟨counts, layers⟩)

namespace Attributes

/-- The attributes that four streams determine. -/
def ofStreams (streams : Quarters Xorshift) : Attributes :=
  let palette := Palette.draw streams.variety
  let (body, rest) := PatternStreams.draw ⟨streams.counts, streams.layers⟩ palette .body
  let (head, rest) := rest.draw palette .head
  let (fin, _) := rest.draw palette .fin
  let (bodySeed, colors) := streams.colors.smallSeed
  let (finSeed, _) := colors.smallSeed
  { variety := palette.variety
    bodyLayers := body
    headLayers := head
    finLayers := fin
    bodyColor := palette.bodyColor bodySeed
    finColor := palette.finColor finSeed
    primaryColor := palette.primaryColor }

/-- The attributes of a token (`generate_for`). -/
def ofToken (token : TokenId) : Attributes :=
  ofStreams token.streams

/-- The attributes of a text that is a token id (`generate`). -/
def generate (text : String) : Except Error Attributes :=
  (TokenId.parse text).map ofToken

end Attributes

end Koi
