import Koi.Attributes
import Koi.Proofs.Decimal

/-!
# The texts in attributes

Varieties and layers are written as short texts, as colors are. Each of them is read back as what it
was written for, except a pattern with the number zero, which can be written but not read.

* `Variety.ofName?_name`: reading a written variety.
* `LayerName.IsReadable`, `LayerName.parse_render`, `LayerName.parse_render_zero`: reading the
  written name of a layer.
-/

namespace Koi

/-! ## Varieties -/

theorem Variety.ofName?_name (variety : Variety) : ofName? variety.name = some variety := by
  cases variety <;> decide

/-! ## Names of layers -/

namespace LayerName

/-- A name that can be read back: no pattern has the number zero. -/
def IsReadable (name : LayerName) : Prop := ∀ region, name ≠ .pattern region 0

theorem toList_render_pattern (region : Region) (number : UInt8) :
    (pattern region number).render.toList =
      region.name.toList ++ '_' :: Nat.toDigits 10 number.toNat := by
  simp [render]

theorem underscore_not_in_name (region : Region) : '_' ∉ region.name.toList := by
  cases region <;> decide

theorem ofName?_name (region : Region) :
    Region.ofName? (String.ofList region.name.toList) = some region := by
  cases region <;> decide

/-- The text of a pattern is cut into the name of its region and the digits of its number. -/
theorem parse?_render_pattern (region : Region) (number : UInt8) :
    parse? (pattern region number).render =
      (number? (Nat.toDigits 10 number.toNat)).map (pattern region) := by
  have text := toList_render_pattern region number
  have other {common : String} (h : '_' ∉ common.toList) :
      (pattern region number).render ≠ common := by
    rintro rfl
    rw [text] at h
    exact h (by simp)
  have letters : ∀ c ∈ region.name.toList, decide (c ≠ '_') = true := by
    intro c hc
    rw [decide_eq_true_eq]
    rintro rfl
    exact underscore_not_in_name region hc
  have before : (pattern region number).render.toList.takeWhile (· ≠ '_') =
      region.name.toList := by
    rw [text, List.takeWhile_append_of_pos letters]
    simp
  have after : (pattern region number).render.toList.dropWhile (· ≠ '_') =
      '_' :: Nat.toDigits 10 number.toNat := by
    rw [text, List.dropWhile_append_of_pos letters]
    simp
  rw [parse?, if_neg (other (by decide)), if_neg (other (by decide)), if_neg (other (by decide)),
    pattern?, after, before, ofName?_name, Option.map_eq_bind]
  rfl

theorem number?_toDigits {number : UInt8} (h : number ≠ 0) :
    number? (Nat.toDigits 10 number.toNat) = some number := by
  have positive : 0 < number.toNat := by
    rcases Nat.eq_zero_or_pos number.toNat with h₀ | h₀
    · exact absurd (UInt8.toNat_inj.1 h₀) h
    · exact h₀
  have small := number.toNat_lt
  rw [number?, if_pos]
  · rw [Decimal.value_toDigits]
    simp
  · rw [Decimal.all_isDigit_iff, Decimal.value_toDigits]
    exact ⟨Nat.toDigits_ne_nil, Decimal.head?_toDigits_ne positive,
      Decimal.isNumeral_toDigits _, small⟩

theorem parse_render {name : LayerName} (h : ∀ region, name ≠ .pattern region 0) :
    parse name.render = .ok name := by
  have parsed : parse? name.render = some name := by
    cases name with
    | body | fin | outline => decide
    | pattern region number =>
      have positive : number ≠ 0 := by
        rintro rfl
        exact h region rfl
      rw [parse?_render_pattern, number?_toDigits positive]
      rfl
  rw [parse, parsed]

theorem parse_render_zero (region : Region) :
    parse (pattern region 0).render = .error (.unknownAsset (pattern region 0).render) := by
  have refused : parse? (pattern region 0).render = none := by
    rw [parse?_render_pattern]
    rfl
  rw [parse, refused]

end LayerName

end Koi
