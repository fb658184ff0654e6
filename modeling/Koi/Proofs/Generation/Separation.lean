import Koi.Generation

/-!
# Separation of the random streams

Each of the four streams decides about its own part of a koi. Two koi whose tokens agree in some
streams agree in what these streams decide, whatever the others are. The parts meet only in the
palette, which the first stream picks.

* `layersOf_ofStreams`: the patterns of a region, as a number of them from one stream and picks from
  another.
* `drawFrom_prefix_of_le`: fewer picks with one seed are the first of more picks.
* `ofToken_separated`: what agrees between two tokens, by the seeds on which they agree, and the
  order of draws that makes no difference.
-/

namespace Koi

/-! ## Picks from a pool -/

theorem length_drawFrom (pool : List Layer) (nonempty : 0 < pool.length) (count : Nat)
    (g : Xorshift) : (drawFrom pool nonempty count g).length = count := by
  induction count generalizing g with
  | zero => rfl
  | succ count ih => simp [drawFrom, ih]

/-- A longer run of draws goes on where a shorter one stops. -/
theorem drawFrom_prefix_of_le (pool : List Layer) (nonempty : 0 < pool.length) {m n : Nat}
    (h : m ≤ n) (g : Xorshift) : drawFrom pool nonempty m g <+: drawFrom pool nonempty n g := by
  induction m generalizing n g with
  | zero => exact List.nil_prefix
  | succ m ih =>
    obtain ⟨n, rfl⟩ : ∃ k, n = k + 1 := ⟨n - 1, by omega⟩
    simp only [drawFrom]
    exact List.cons_prefix_cons.2 ⟨rfl, ih (Nat.le_of_succ_le_succ h) _⟩

/-- The number of picks depends on neither the seed nor the colors of the pool. -/
theorem length_pickLayers (pool : List Layer) (count : Nat) (seed : UInt64) :
    (pickLayers pool count seed).length = if 0 < pool.length then count else 0 := by
  unfold pickLayers
  split
  · exact length_drawFrom _ _ _ _
  · rfl

theorem pickLayers_prefix_of_le (pool : List Layer) {m n : Nat} (h : m ≤ n) (seed : UInt64) :
    pickLayers pool m seed <+: pickLayers pool n seed := by
  unfold pickLayers
  split
  · exact drawFrom_prefix_of_le _ _ h _
  · exact List.prefix_rfl

/-! ## What the patterns depend on -/

/-- The numbers of patterns of the three regions, drawn one after another. -/
def Palette.numbers (palette : Palette) (g : Xorshift) : Region → Nat
  | .body => ((palette.counts .body).draw g).1
  | .head => ((palette.counts .head).draw ((palette.counts .body).draw g).2).1
  | .fin => ((palette.counts .fin).draw
      ((palette.counts .head).draw ((palette.counts .body).draw g).2).2).1

/-- The seeds of the picks of the three regions, drawn one after another. -/
def Xorshift.pickSeeds (g : Xorshift) : Region → UInt64
  | .body => g.smallSeed.1
  | .head => g.smallSeed.2.smallSeed.1
  | .fin => g.smallSeed.2.smallSeed.2.smallSeed.1

namespace Attributes

/-- One stream decides how many patterns a region gets, another one which. -/
theorem layersOf_ofStreams (streams : Quarters Xorshift) (region : Region) :
    (ofStreams streams).layersOf region =
      pickLayers ((Palette.draw streams.variety).candidates region)
        ((Palette.draw streams.variety).numbers streams.counts region)
        (streams.layers.pickSeeds region) := by
  cases region <;> rfl

theorem length_layersOf_ofStreams (streams : Quarters Xorshift) (region : Region) :
    ((ofStreams streams).layersOf region).length =
      if 0 < ((Palette.draw streams.variety).candidates region).length then
        (Palette.draw streams.variety).numbers streams.counts region
      else 0 := by
  rw [layersOf_ofStreams, length_pickLayers]

/-- With one palette and one stream of picks, two koi differ in a region by how many they pick. -/
theorem layersOf_ofStreams_prefix_or {s s' : Quarters Xorshift} (hv : s.variety = s'.variety)
    (hl : s.layers = s'.layers) (region : Region) :
    (ofStreams s).layersOf region <+: (ofStreams s').layersOf region ∨
      (ofStreams s').layersOf region <+: (ofStreams s).layersOf region := by
  rw [layersOf_ofStreams, layersOf_ofStreams, hv, hl]
  rcases Nat.le_total ((Palette.draw s'.variety).numbers s.counts region)
    ((Palette.draw s'.variety).numbers s'.counts region) with h | h
  · exact .inl (pickLayers_prefix_of_le _ h _)
  · exact .inr (pickLayers_prefix_of_le _ h _)

end Attributes

/-! ## The order of draws -/

/-- Work with the four streams, one draw after another. -/
abbrev DrawM := StateM (Quarters Xorshift)

namespace DrawM

theorem length_varieties_pos : 0 < Variety.all.length := by decide

/-- Draws the variety and palette. -/
def palette : DrawM Palette := do
  let streams ← get
  let (i, g) := streams.variety.below Variety.all.length length_varieties_pos
  let (seed, g) := g.nextHalf
  set { streams with variety := g }
  return Palette.pick (Variety.all.get i) seed

/-- Draws a number of patterns. -/
def number (range : CountRange) : DrawM Nat :=
  modifyGet fun streams =>
    ((range.draw streams.counts).1, { streams with counts := (range.draw streams.counts).2 })

/-- Draws the seed for the picks of a region. -/
def pickSeed : DrawM UInt64 :=
  modifyGet fun streams =>
    (streams.layers.smallSeed.1, { streams with layers := streams.layers.smallSeed.2 })

/-- Draws the seed for the color of the body or the fins. -/
def colorSeed : DrawM UInt64 :=
  modifyGet fun streams =>
    (streams.colors.smallSeed.1, { streams with colors := streams.colors.smallSeed.2 })

/-- Draws the colors of body and fins, after everything else. -/
def finish (palette : Palette) (body head fin : List Layer) : DrawM Attributes := do
  let bodySeed ← colorSeed
  let finSeed ← colorSeed
  return { variety := palette.variety
           bodyLayers := body
           headLayers := head
           finLayers := fin
           bodyColor := palette.bodyColor bodySeed
           finColor := palette.finColor finSeed
           primaryColor := palette.primaryColor }

/-- Draws number and seed of each region before it turns to the next region. -/
def byRegion : DrawM Attributes := do
  let palette ← palette
  let body ← number (palette.counts .body)
  let bodyPicks ← pickSeed
  let head ← number (palette.counts .head)
  let headPicks ← pickSeed
  let fin ← number (palette.counts .fin)
  let finPicks ← pickSeed
  finish palette (pickLayers (palette.candidates .body) body bodyPicks)
    (pickLayers (palette.candidates .head) head headPicks)
    (pickLayers (palette.candidates .fin) fin finPicks)

/-- Draws the numbers of all regions before the first seed of picks. -/
def byStream : DrawM Attributes := do
  let palette ← palette
  let body ← number (palette.counts .body)
  let head ← number (palette.counts .head)
  let fin ← number (palette.counts .fin)
  let bodyPicks ← pickSeed
  let headPicks ← pickSeed
  let finPicks ← pickSeed
  finish palette (pickLayers (palette.candidates .body) body bodyPicks)
    (pickLayers (palette.candidates .head) head headPicks)
    (pickLayers (palette.candidates .fin) fin finPicks)

/-- A number of patterns and a seed of picks come from different streams. -/
theorem pickSeed_number_comm {α : Type} (range : CountRange) (next : UInt64 → Nat → DrawM α) :
    (do let seed ← pickSeed; let n ← number range; next seed n) =
      (do let n ← number range; let seed ← pickSeed; next seed n) :=
  rfl

theorem byRegion_eq_byStream : byRegion = byStream := by
  simp only [byRegion, byStream, pickSeed_number_comm]

theorem run_byRegion (streams : Quarters Xorshift) :
    (byRegion.run streams).1 = Attributes.ofStreams streams :=
  rfl

theorem run_byStream (streams : Quarters Xorshift) :
    (byStream.run streams).1 = Attributes.ofStreams streams := by
  rw [← byRegion_eq_byStream, run_byRegion]

end DrawM

/-! ## Two tokens -/

theorem TokenId.parse_text (token : TokenId) : TokenId.parse token.text = .ok token := by
  obtain ⟨text, nonempty, digits, fits⟩ := token
  simp only [parse, dif_neg nonempty, dif_pos digits, dif_pos fits]

theorem Attributes.generate_text (token : TokenId) :
    Attributes.generate token.text = .ok (Attributes.ofToken token) := by
  rw [generate, TokenId.parse_text]
  rfl

/-- The first seed alone decides variety and main color. Together with it, the second seed decides
    how many patterns each region gets, the third which they are but for where they end, and the
    fourth the colors of body and fins. Drawing stream by stream makes the same koi as drawing
    region by region. -/
theorem ofToken_separated (t u : TokenId) :
    ∃ a b, Attributes.generate t.text = .ok a ∧ Attributes.generate u.text = .ok b ∧
      (DrawM.byStream.run t.streams).1 = a ∧
      (t.seeds.variety = u.seeds.variety →
        (a.variety = b.variety ∧ a.primaryColor = b.primaryColor) ∧
        (t.seeds.counts = u.seeds.counts →
          ∀ region, (a.layersOf region).length = (b.layersOf region).length) ∧
        (t.seeds.layers = u.seeds.layers →
          ∀ region, a.layersOf region <+: b.layersOf region ∨
            b.layersOf region <+: a.layersOf region) ∧
        (t.seeds.colors = u.seeds.colors →
          a.bodyColor = b.bodyColor ∧ a.finColor = b.finColor)) := by
  refine ⟨_, _, Attributes.generate_text t, Attributes.generate_text u,
    DrawM.run_byStream t.streams, fun hv => ?_⟩
  have hv : t.streams.variety = u.streams.variety := congrArg Xorshift.ofSeed hv
  have hp : Palette.draw t.streams.variety = Palette.draw u.streams.variety := by rw [hv]
  refine ⟨⟨congrArg Palette.variety hp, congrArg Palette.primaryColor hp⟩, ?_, ?_, ?_⟩
  · intro hc region
    have hc : t.streams.counts = u.streams.counts := congrArg Xorshift.ofSeed hc
    simp only [Attributes.ofToken, Attributes.length_layersOf_ofStreams, hp, hc]
  · intro hl region
    have hl : t.streams.layers = u.streams.layers := congrArg Xorshift.ofSeed hl
    exact Attributes.layersOf_ofStreams_prefix_or hv hl region
  · intro hs
    have hs : t.streams.colors = u.streams.colors := congrArg Xorshift.ofSeed hs
    simp only [Attributes.ofToken, Attributes.ofStreams, hp, hs, and_self]

/-- Two tokens with equal first and third seeds; they wear three patterns and one. -/
theorem ofToken_separated_sixteen_digits :
    ∃ a b, Attributes.generate "1234100056780007" = .ok a ∧
      Attributes.generate "1234118556781111" = .ok b ∧
      a.variety = b.variety ∧ a.primaryColor = b.primaryColor ∧
      ∀ region, a.layersOf region <+: b.layersOf region ∨
        b.layersOf region <+: a.layersOf region := by
  obtain ⟨a, b, ha, hb, -, h⟩ :=
    ofToken_separated ⟨"1234100056780007", by decide⟩ ⟨"1234118556781111", by decide⟩
  obtain ⟨⟨hv, hp⟩, -, hl, -⟩ := h (by decide)
  exact ⟨a, b, ha, hb, hv, hp, hl (by decide)⟩

end Koi
