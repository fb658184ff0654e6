import Koi.Generation

/-!
# Generation with every bound checked

`Attributes.ofStreams` draws below bounds that are positive and looks into lists at places that they
have, which its types promise. Here the same is written with draws below any bound and places that
may lie outside of a list; each such step can break down. None of them does.

* `Checked.attributes_eq`: the checked generation comes to `Attributes.ofStreams`.
* `Checked.generate_eq`: the one thing that can stop it is a text that is no token id.
-/

namespace Koi

open ColorRange (redRange orangeRange whiteRange blackRange yellowRange)

/-- What could stop the generation of a koi. -/
inductive Breakdown where
  /-- A failure of the library. -/
  | failure (e : Error)
  /-- A draw below zero. -/
  | zeroBound
  /-- A place that a list does not have. -/
  | outOfRange (place length : Nat)
  deriving DecidableEq, Repr

namespace Checked

/-! ## Steps that can break down -/

/-- A draw below any bound (`next_usize`). -/
def below (g : Xorshift) (bound : Nat) : Except Breakdown (Nat × Xorshift) :=
  match g.below? bound with
  | (some i, g) => .ok (i, g)
  | (none, _) => .error .zeroBound

/-- The member at a place of a list. -/
def member {α : Type} (items : List α) (i : Nat) : Except Breakdown α :=
  match items[i]? with
  | some item => .ok item
  | none => .error (.outOfRange i items.length)

/-- A color from one of several ranges (`pick_among`). -/
def choose (ranges : List ColorRange) (seed : UInt64) : Except Breakdown Color := do
  if ranges = [] then throw (.failure .emptyPalette)
  let (i, _) ← below (Xorshift.ofSeed seed) ranges.length
  return (← member ranges i).sample seed

theorem below_eq (g : Xorshift) {bound : Nat} (pos : 0 < bound) :
    below g bound = pure ((g.below bound pos).1.val, (g.below bound pos).2) := by
  simp only [below, Xorshift.below?, dif_pos pos]
  rfl

theorem member_eq {α : Type} (items : List α) (i : Fin items.length) :
    member items i.val = pure items[i] := by
  simp only [member, List.getElem?_eq_getElem i.isLt]
  rfl

theorem choose_eq (ranges : List ColorRange) (nonempty : 0 < ranges.length) (seed : UInt64) :
    choose ranges seed = pure (ColorRange.choose ranges nonempty seed) := by
  have hne : ranges ≠ [] := List.ne_nil_of_length_pos nonempty
  simp only [choose, if_neg hne, below_eq _ nonempty, pure_bind, member_eq]
  rfl

/-! ## The palette -/

/-- The palette of a variety for a seed. -/
def pick (variety : Variety) (seed : UInt64) : Except Breakdown Palette := do
  match variety with
  | .kohaku => return .kohaku (redRange.sample seed)
  | .showa =>
    return .showa (redRange.sample seed) (blackRange.sample seed)
      (← choose [redRange, orangeRange, whiteRange] seed)
  | .utsuri => return .utsuri (blackRange.sample seed)
  | .monochrome =>
    return .monochrome (← choose [whiteRange, orangeRange, redRange, yellowRange] seed)
  | .shigure => return .shigure (blackRange.sample seed) (redRange.sample seed)

/-- The variety and palette of a stream. -/
def palette (g : Xorshift) : Except Breakdown Palette := do
  let (i, g) ← below g Variety.all.length
  pick (← member Variety.all i) g.nextHalf.1

/-- The color of the body for a seed. -/
def bodyColor (palette : Palette) (seed : UInt64) : Except Breakdown Color :=
  match palette with
  | .utsuri _ => choose [whiteRange, orangeRange, redRange] seed
  | _ => .ok (palette.bodyColor seed)

theorem pick_eq (variety : Variety) (seed : UInt64) :
    pick variety seed = pure (Palette.pick variety seed) := by
  cases variety with
  | kohaku | utsuri | shigure => rfl
  | showa => simp only [pick, choose_eq [redRange, orangeRange, whiteRange] (by decide)]; rfl
  | monochrome =>
    simp only [pick, choose_eq [whiteRange, orangeRange, redRange, yellowRange] (by decide)]
    rfl

theorem palette_eq (g : Xorshift) : palette g = pure (Palette.draw g) := by
  simp only [palette, below_eq g (show 0 < Variety.all.length by decide), pure_bind, member_eq,
    pick_eq]
  rfl

theorem bodyColor_eq (palette : Palette) (seed : UInt64) :
    bodyColor palette seed = pure (palette.bodyColor seed) := by
  cases palette with
  | utsuri => exact choose_eq [whiteRange, orangeRange, redRange] (by decide) seed
  | kohaku | showa | monochrome | shigure => rfl

/-! ## The patterns -/

/-- Draws a number of patterns. -/
def count (range : CountRange) (g : Xorshift) : Except Breakdown (Nat × Xorshift) := do
  if range.bound ≤ range.least then return (range.bound, g)
  let (extra, g) ← below g (range.bound - range.least)
  return (range.least + extra, g)

/-- Draws `count` members of a pool. -/
def drawFrom (pool : List Layer) : Nat → Xorshift → Except Breakdown (List Layer)
  | 0, _ => return []
  | count + 1, g => do
    let (i, g) ← below g pool.length
    return (← member pool i) :: (← drawFrom pool count g)

/-- Draws `count` members of a pool with a fresh generator; there are none from an empty pool. -/
def pickLayers (pool : List Layer) (count : Nat) (seed : UInt64) :
    Except Breakdown (List Layer) :=
  if count = 0 ∨ pool = [] then return [] else drawFrom pool count (Xorshift.ofSeed seed)

/-- Draws a small seed. -/
def smallSeed (g : Xorshift) : Except Breakdown (UInt64 × Xorshift) := do
  let (seed, g) ← below g smallSeedBound
  return (seed.toUInt64, g)

/-- The patterns of one region. -/
def patterns (palette : Palette) (region : Region) (streams : PatternStreams) :
    Except Breakdown (List Layer × PatternStreams) := do
  let (count, counts) ← count (palette.counts region) streams.counts
  let (seed, layers) ← smallSeed streams.layers
  return (← pickLayers (palette.candidates region) count seed, ⟨counts, layers⟩)

theorem count_eq (range : CountRange) (g : Xorshift) : count range g = pure (range.draw g) := by
  unfold count CountRange.draw
  by_cases choice : range.least < range.bound
  · simp only [if_neg (Nat.not_le.2 choice), dif_pos choice,
      below_eq g (Nat.sub_pos_of_lt choice), pure_bind]
  · rw [if_pos (Nat.not_lt.1 choice), dif_neg choice]

theorem drawFrom_eq (pool : List Layer) (nonempty : 0 < pool.length) (count : Nat)
    (g : Xorshift) : drawFrom pool count g = pure (Koi.drawFrom pool nonempty count g) := by
  induction count generalizing g with
  | zero => rfl
  | succ count ih =>
    simp only [drawFrom, below_eq g nonempty, pure_bind, member_eq, ih]
    rfl

/-- Two reasons not to draw, no pattern wanted and none there, have one outcome. -/
theorem pickLayers_eq (pool : List Layer) (count : Nat) (seed : UInt64) :
    pickLayers pool count seed = pure (Koi.pickLayers pool count seed) := by
  unfold pickLayers Koi.pickLayers
  by_cases nonempty : 0 < pool.length
  · rw [dif_pos nonempty]
    by_cases hc : count = 0
    · subst hc
      rfl
    · rw [if_neg (by simp [hc, List.ne_nil_of_length_pos nonempty]), drawFrom_eq pool nonempty]
  · rw [dif_neg nonempty, if_pos (.inr (List.length_eq_zero_iff.1 (by omega)))]

theorem smallSeed_eq (g : Xorshift) : smallSeed g = pure g.smallSeed := by
  simp only [smallSeed, below_eq g (show 0 < smallSeedBound by decide), pure_bind]
  rfl

theorem patterns_eq (palette : Palette) (region : Region) (streams : PatternStreams) :
    patterns palette region streams = pure (streams.draw palette region) := by
  simp only [patterns, count_eq, smallSeed_eq, pickLayers_eq, pure_bind]
  rfl

/-! ## The attributes -/

/-- The attributes that four streams determine (`generate_for`). -/
def attributes (streams : Quarters Xorshift) : Except Breakdown Attributes := do
  let palette ← palette streams.variety
  let (body, rest) ← patterns palette .body ⟨streams.counts, streams.layers⟩
  let (head, rest) ← patterns palette .head rest
  let (fin, _) ← patterns palette .fin rest
  let (bodySeed, colors) ← smallSeed streams.colors
  let (finSeed, _) ← smallSeed colors
  return { variety := palette.variety
           bodyLayers := body
           headLayers := head
           finLayers := fin
           bodyColor := ← bodyColor palette bodySeed
           finColor := palette.finColor finSeed
           primaryColor := palette.primaryColor }

/-- The attributes of a text that is a token id (`generate`). -/
def generate (text : String) : Except Breakdown Attributes :=
  match TokenId.parse text with
  | .ok token => attributes token.streams
  | .error e => .error (.failure e)

theorem attributes_eq (streams : Quarters Xorshift) :
    attributes streams = .ok (Attributes.ofStreams streams) := by
  simp only [attributes, palette_eq, patterns_eq, smallSeed_eq, bodyColor_eq, pure_bind]
  rfl

theorem generate_eq (text : String) :
    generate text = (Attributes.generate text).mapError .failure := by
  unfold generate Attributes.generate
  cases TokenId.parse text with
  | error e => rfl
  | ok token => exact attributes_eq token.streams

end Checked

end Koi
