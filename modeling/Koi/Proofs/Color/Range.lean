import Koi.Color.Range

/-!
# What ranges contain

A color that is picked from a range lies in it. Ranges that are apart in one component have no
color in common, so colors from them differ whatever the seeds are.

* `Interval.contains_sample`, `ColorRange.contains_sample`: a pick lies in its range.
* `ColorRange.exists_choose_eq`: a choice among ranges is a pick from one of them.
* `ColorRange.Apart`: being apart in one component; `ColorRange.ne_of_apart`.
-/

namespace Koi

namespace Interval

variable {i j : Interval} {x y : UInt8}

theorem not_degenerate_iff : ¬ i.Degenerate ↔ i.lo < i.hi := by
  rw [Degenerate, UInt8.not_le]

theorem mod_width_lt (proper : i.lo < i.hi) (seed : UInt64) :
    seed.toNat % i.width < i.hi.toNat - i.lo.toNat :=
  Nat.mod_lt _ (Nat.sub_pos_of_lt proper)

/-- A pick is the lower bound and less than the width above it; nothing overflows. -/
theorem toNat_sample (proper : i.lo < i.hi) (seed : UInt64) :
    (i.sample seed).toNat = i.lo.toNat + seed.toNat % i.width := by
  have rest := mod_width_lt proper seed
  have hi := i.hi.toNat_lt
  rw [sample, if_neg (not_degenerate_iff.2 proper), UInt8.toNat_add, Nat.toUInt8_eq,
    UInt8.toNat_ofNat']
  omega

theorem contains_sample (i : Interval) (seed : UInt64) : i.Contains (i.sample seed) := by
  unfold Contains
  by_cases degenerate : i.Degenerate
  · rw [if_pos degenerate, sample, if_pos degenerate]
  · have proper := not_degenerate_iff.1 degenerate
    have rest := mod_width_lt proper seed
    rw [if_neg degenerate, UInt8.le_iff_toNat_le, UInt8.lt_iff_toNat_lt, toNat_sample proper]
    omega

/-- The values of `i` end before those of `j` begin. -/
def Below (i j : Interval) : Prop := i.lo < i.hi ∧ i.hi ≤ j.lo

instance (i j : Interval) : Decidable (i.Below j) :=
  inferInstanceAs (Decidable (i.lo < i.hi ∧ i.hi ≤ j.lo))

theorem lo_le_of_contains (h : i.Contains x) : i.lo ≤ x := by
  unfold Contains at h
  split at h
  · exact UInt8.le_of_eq h.symm
  · exact h.1

theorem lt_hi_of_contains (proper : i.lo < i.hi) (h : i.Contains x) : x < i.hi := by
  rw [Contains, if_neg (not_degenerate_iff.2 proper)] at h
  exact h.2

theorem lt_of_below (h : i.Below j) (hx : i.Contains x) (hy : j.Contains y) : x < y :=
  UInt8.lt_of_lt_of_le (lt_hi_of_contains h.1 hx) (UInt8.le_trans h.2 (lo_le_of_contains hy))

end Interval

namespace ColorRange

variable {a b : ColorRange} {c d : Color}

/-- A seed picks a color in the range. -/
theorem contains_sample (range : ColorRange) (seed : UInt64) :
    range.Contains (range.sample seed) :=
  ⟨range.red.contains_sample seed, range.green.contains_sample seed,
    range.blue.contains_sample seed⟩

/-- A choice among ranges is the same seed's pick from one of them. -/
theorem exists_choose_eq (ranges : List ColorRange) (nonempty : 0 < ranges.length)
    (seed : UInt64) : ∃ range ∈ ranges, choose ranges nonempty seed = range.sample seed :=
  ⟨_, List.getElem_mem _, rfl⟩

theorem exists_contains_choose (ranges : List ColorRange) (nonempty : 0 < ranges.length)
    (seed : UInt64) : ∃ range ∈ ranges, range.Contains (choose ranges nonempty seed) := by
  obtain ⟨range, hm, h⟩ := exists_choose_eq ranges nonempty seed
  exact ⟨range, hm, h ▸ range.contains_sample seed⟩

/-- In some component the values of `a` end before those of `b` begin. -/
def Apart (a b : ColorRange) : Prop :=
  a.red.Below b.red ∨ a.green.Below b.green ∨ a.blue.Below b.blue

instance (a b : ColorRange) : Decidable (a.Apart b) :=
  inferInstanceAs (Decidable (a.red.Below b.red ∨ a.green.Below b.green ∨ a.blue.Below b.blue))

theorem ne_of_apart (h : a.Apart b) (hc : a.Contains c) (hd : b.Contains d) : c ≠ d := by
  rintro rfl
  obtain ⟨red, green, blue⟩ := hc
  obtain ⟨red', green', blue'⟩ := hd
  rcases h with h | h | h
  · exact UInt8.lt_irrefl _ (Interval.lt_of_below h red red')
  · exact UInt8.lt_irrefl _ (Interval.lt_of_below h green green')
  · exact UInt8.lt_irrefl _ (Interval.lt_of_below h blue blue')

end ColorRange

end Koi
