import Koi.Proofs.Color.Range
import Mathlib.Algebra.GCDMonoid.Finset
import Mathlib.Algebra.GCDMonoid.Nat
import Mathlib.Data.Nat.ModEq

/-!
# Picking from any range

The bounds of a range are any bytes. Picking from it stays within bytes at every step, and two seeds
pick the same color exactly if they agree modulo the least common multiple of the widths.

* `Checked.sample?`, `Checked.color?`: picking with every step of the arithmetic checked;
  `Checked.color?_eq` says that no step breaks down.
* `ColorRange.period`, `ColorRange.sample_eq_iff`: which seeds pick the same color.
* `ColorRange.contains_picks`: what a pick from a range, and from one of several, has to do with the
  bounds.
-/

namespace Koi

theorem Interval.sample_of_degenerate {i : Interval} (degenerate : i.Degenerate) (seed : UInt64) :
    i.sample seed = i.lo := by
  rw [sample, if_pos degenerate]

/-! ## Arithmetic with every step checked -/

namespace Checked

/-- The difference of two bytes, unless it is negative. -/
def difference? (a b : UInt8) : Option UInt8 := if b ≤ a then some (a - b) else none

/-- The remainder of a division, unless the divisor is zero. -/
def remainder? (a b : UInt64) : Option UInt64 := if b = 0 then none else some (a % b)

/-- A word as a byte, unless it is too large. -/
def byte? (a : UInt64) : Option UInt8 := if a.toNat < 2 ^ 8 then some a.toUInt8 else none

/-- The sum of two bytes, unless it is too large. -/
def sum? (a b : UInt8) : Option UInt8 := if a.toNat + b.toNat < 2 ^ 8 then some (a + b) else none

/-- The value that a seed picks from an interval. -/
def sample? (i : Interval) (seed : UInt64) : Option UInt8 :=
  if i.hi ≤ i.lo then some i.lo
  else do
    let width ← difference? i.hi i.lo
    let rest ← remainder? seed width.toUInt64
    sum? i.lo (← byte? rest)

/-- The color that a seed picks from a range. -/
def color? (range : ColorRange) (seed : UInt64) : Option Color := do
  return ⟨← sample? range.red seed, ← sample? range.green seed, ← sample? range.blue seed⟩

/-- The width, as it is computed in bytes. -/
theorem toNat_difference {i : Interval} (proper : i.lo < i.hi) :
    (i.hi - i.lo).toUInt64.toNat = i.width := by
  rw [UInt8.toNat_toUInt64, UInt8.toNat_sub_of_le _ _ (UInt8.le_of_lt proper), Interval.width]

theorem sample?_of_lt {i : Interval} (proper : i.lo < i.hi) (seed : UInt64) :
    sample? i seed = some (i.sample seed) := by
  have below : i.lo.toNat < i.hi.toNat := proper
  have hi := i.hi.toNat_lt
  have rest_lt := Interval.mod_width_lt proper seed
  have picked := Interval.toNat_sample proper seed
  have width := toNat_difference proper
  have nonzero : (i.hi - i.lo).toUInt64 ≠ 0 := by
    intro h
    rw [h, Interval.width, UInt64.toNat_zero] at width
    omega
  have rest : (seed % (i.hi - i.lo).toUInt64).toNat = seed.toNat % i.width := by
    rw [UInt64.toNat_mod, width]
  have byte : (seed % (i.hi - i.lo).toUInt64).toUInt8.toNat = seed.toNat % i.width := by
    rw [UInt64.toNat_toUInt8, rest]
    omega
  have sum : i.lo + (seed % (i.hi - i.lo).toUInt64).toUInt8 = i.sample seed := by
    apply UInt8.toNat_inj.1
    rw [picked, UInt8.toNat_add, byte]
    omega
  -- Each check is passed: what it looks at has just been found to be small enough, or not zero.
  rw [sample?, if_neg (UInt8.not_le.2 proper), difference?, if_pos (UInt8.le_of_lt proper)]
  simp only [Option.bind_eq_bind, Option.bind_some]
  rw [remainder?, if_neg nonzero, Option.bind_some, byte?, if_pos (by omega), Option.bind_some,
    sum?, if_pos (by omega), sum]

theorem sample?_eq (i : Interval) (seed : UInt64) : sample? i seed = some (i.sample seed) := by
  by_cases degenerate : i.Degenerate
  · rw [sample?, if_pos (show i.hi ≤ i.lo from degenerate),
      Interval.sample_of_degenerate degenerate]
  · exact sample?_of_lt (Interval.not_degenerate_iff.1 degenerate) seed

/-- No step of picking a color breaks down. -/
theorem color?_eq (range : ColorRange) (seed : UInt64) :
    color? range seed = some (range.sample seed) := by
  simp only [color?, sample?_eq, Option.bind_eq_bind, Option.bind_some]
  rfl

end Checked

/-! ## Seeds with the same pick -/

instance : Fintype Component :=
  ⟨{.red, .green, .blue}, by intro c; cases c <;> decide⟩

/-- One component of a color. -/
def Color.part (color : Color) : Component → UInt8
  | .red => color.red
  | .green => color.green
  | .blue => color.blue

theorem Color.ext_part_iff {a b : Color} : a = b ↔ ∀ c, a.part c = b.part c := by
  constructor
  · rintro rfl c
    rfl
  · intro h
    obtain ⟨red, green, blue⟩ := a
    rw [show red = b.red from h .red, show green = b.green from h .green,
      show blue = b.blue from h .blue]

/-- Within the values of an interval the same value is picked once in each round. -/
theorem Interval.sample_eq_iff {i : Interval} (proper : i.lo < i.hi) (seed other : UInt64) :
    i.sample seed = i.sample other ↔ seed.toNat ≡ other.toNat [MOD i.width] := by
  rw [← UInt8.toNat_inj, toNat_sample proper, toNat_sample proper, Nat.add_left_cancel_iff]
  rfl

namespace ColorRange

/-- The interval of one component. -/
def part (range : ColorRange) : Component → Interval
  | .red => range.red
  | .green => range.green
  | .blue => range.blue

theorem part_sample (range : ColorRange) (seed : UInt64) (c : Component) :
    (range.sample seed).part c = (range.part c).sample seed := by
  cases c <;> rfl

/-- The least common multiple of the widths of all intervals that are not degenerate. -/
def period (range : ColorRange) : Nat :=
  (Finset.univ.filter fun c => ¬ (range.part c).Degenerate).lcm fun c => (range.part c).width

theorem modEq_period_iff (range : ColorRange) (a b : Nat) : a ≡ b [MOD range.period] ↔
    ∀ c, ¬ (range.part c).Degenerate → a ≡ b [MOD (range.part c).width] := by
  simp only [Nat.modEq_iff_dvd, Int.natCast_dvd, period, Finset.lcm_dvd_iff, Finset.mem_filter,
    Finset.mem_univ, true_and]

/-- Two seeds pick the same color exactly if they agree modulo the period. -/
theorem sample_eq_iff (range : ColorRange) (seed other : UInt64) :
    range.sample seed = range.sample other ↔ seed.toNat ≡ other.toNat [MOD range.period] := by
  rw [Color.ext_part_iff, modEq_period_iff]
  refine forall_congr' fun c => ?_
  rw [part_sample, part_sample]
  by_cases degenerate : (range.part c).Degenerate
  · -- Such a component is the same for all seeds, so it does not count for the period.
    simp only [Interval.sample_of_degenerate degenerate, degenerate, not_true_eq_false,
      false_imp_iff]
  · rw [Interval.sample_eq_iff (Interval.not_degenerate_iff.1 degenerate)]
    exact ⟨fun h _ => h, fun h => h degenerate⟩

/-! ## Picks and bounds -/

theorem part_sample_lt (range : ColorRange) (seed : UInt64) {c : Component}
    (proper : (range.part c).lo < (range.part c).hi) :
    (range.sample seed).part c < (range.part c).hi := by
  rw [part_sample]
  exact Interval.lt_hi_of_contains proper (Interval.contains_sample _ seed)

theorem choose?_nil (seed : UInt64) : choose? [] seed = .error .emptyPalette :=
  rfl

theorem exists_choose?_eq {ranges : List ColorRange} (nonempty : ranges ≠ []) (seed : UInt64) :
    ∃ range ∈ ranges, choose? ranges seed = .ok (range.sample seed) := by
  have pos := List.length_pos_iff.2 nonempty
  obtain ⟨range, hm, h⟩ := exists_choose_eq ranges pos seed
  exact ⟨range, hm, by rw [choose?, dif_pos pos, h]⟩

/-- Whatever the bounds of a range are, a seed picks a color from it without a step that leaves the
    bytes or divides by zero; the color lies in the range and below every upper bound that is above
    the lower one. The seeds that pick it are those that agree modulo the least common multiple of
    the widths, and it is grey if all three components have the same bounds. A choice fails for the
    empty list only, and otherwise is the seed's pick from one of the ranges. -/
theorem contains_picks (ranges : List ColorRange) (seed : UInt64) :
    (∀ range : ColorRange,
      Checked.color? range seed = some (range.sample seed) ∧
      range.Contains (range.sample seed) ∧
      (∀ c, (range.part c).lo < (range.part c).hi →
        (range.sample seed).part c < (range.part c).hi) ∧
      (∀ other, range.sample seed = range.sample other ↔
        seed.toNat ≡ other.toNat [MOD range.period]) ∧
      (range.red = range.green → range.green = range.blue →
        (range.sample seed).red = (range.sample seed).green ∧
        (range.sample seed).green = (range.sample seed).blue)) ∧
    (choose? ranges seed = .error .emptyPalette ↔ ranges = []) ∧
    (ranges ≠ [] → ∃ range ∈ ranges, choose? ranges seed = .ok (range.sample seed) ∧
      range.Contains (range.sample seed)) := by
  refine ⟨fun range => ⟨Checked.color?_eq range seed, range.contains_sample seed,
    fun c proper => range.part_sample_lt seed proper, range.sample_eq_iff seed, ?_⟩, ?_, ?_⟩
  · intro red green
    simp only [sample, red, green, and_self]
  · constructor
    · intro h
      by_contra nonempty
      obtain ⟨range, -, picked⟩ := exists_choose?_eq nonempty seed
      cases h.symm.trans picked
    · rintro rfl
      exact choose?_nil seed
  · intro nonempty
    obtain ⟨range, hm, picked⟩ := exists_choose?_eq nonempty seed
    exact ⟨range, hm, picked, range.contains_sample seed⟩

/-- A component with all bytes but the last, and two without choice at the end of the bytes. -/
def edgeRange : ColorRange := ⟨⟨0, 255⟩, ⟨255, 0⟩, ⟨255, 255⟩⟩

/-- The largest seed, two seeds of which one is a round of 255 picks after the other, a range with
    three equal intervals, and choices with and without a range. -/
theorem contains_picks_edges :
    Checked.color? edgeRange 0xFFFFFFFFFFFFFFFF = some ⟨0, 255, 255⟩ ∧
    (edgeRange.sample 254).red = 254 ∧ (edgeRange.sample 254).red < edgeRange.red.hi ∧
    edgeRange.sample 254 = edgeRange.sample 509 ∧ edgeRange.sample 254 ≠ edgeRange.sample 508 ∧
    ((⟨⟨7, 9⟩, ⟨7, 9⟩, ⟨7, 9⟩⟩ : ColorRange).sample 3).green =
      ((⟨⟨7, 9⟩, ⟨7, 9⟩, ⟨7, 9⟩⟩ : ColorRange).sample 3).blue ∧
    choose? [] 5 = .error .emptyPalette ∧
    ∃ range ∈ [edgeRange], choose? [edgeRange] 5 = .ok (range.sample 5) := by
  obtain ⟨checked, -⟩ := (contains_picks [] 0xFFFFFFFFFFFFFFFF).1 edgeRange
  obtain ⟨-, -, below, same, -⟩ := (contains_picks [] 254).1 edgeRange
  obtain ⟨-, -, -, -, gray⟩ := (contains_picks [] 3).1 ⟨⟨7, 9⟩, ⟨7, 9⟩, ⟨7, 9⟩⟩
  obtain ⟨range, hm, picked, -⟩ := (contains_picks [edgeRange] 5).2.2 (List.cons_ne_nil _ _)
  have period : edgeRange.period = 255 := by decide
  refine ⟨checked, rfl, below .red (by decide), (same 509).2 ?_, mt (same 508).1 ?_,
    (gray rfl rfl).2, (contains_picks [] 5).2.1.2 rfl, range, hm, picked⟩ <;>
  · rw [period]
    decide

end ColorRange

end Koi
