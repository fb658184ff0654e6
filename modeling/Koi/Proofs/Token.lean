import Koi.Proofs.Decimal
import Koi.Token

/-!
# Which texts are token ids

A token id is read without computing its value: zeros are stripped, and the rest is compared with
the digits of the largest 256-bit number. The texts that pass are the decimal numerals of 256-bit
numbers, with any number of leading zeros.

* `TokenId.value_limit`: the digits of the bound denote the largest 256-bit number.
* `TokenId.wellFormed_iff`: the check of the digits is a bound on the value.
* `TokenId.parse_numeral`: which texts are read, and why the others are refused.
-/

namespace Koi.TokenId

open Decimal (IsNumeral)

theorem value_limit : Decimal.value limit = 2 ^ 256 - 1 := by decide +kernel

theorem isNumeral_limit : IsNumeral limit := by
  rw [← Decimal.all_isDigit_iff]
  decide +kernel

/-- The digits without leading zeros exceed the bound iff their value is no 256-bit number. -/
theorem exceeds_limit_iff {digits : List Char} (h : IsNumeral digits) :
    Decimal.exceeds (Decimal.dropZeros digits) limit = true ↔ 2 ^ 256 ≤ Decimal.value digits := by
  rw [Decimal.exceeds_iff h.dropZeros isNumeral_limit (Decimal.head?_dropZeros_ne digits)
    (by decide +kernel), value_limit, Decimal.value_dropZeros]
  omega

theorem wellFormed_iff (text : String) :
    WellFormed text ↔ text ≠ "" ∧ IsNumeral text.toList ∧
      Decimal.value text.toList ≤ 2 ^ 256 - 1 := by
  unfold WellFormed
  rw [Decimal.all_isDigit_iff]
  refine and_congr_right fun _ => and_congr_right fun digits => ?_
  rw [← Bool.not_eq_true, exceeds_limit_iff digits]
  omega

variable {text : String}

theorem parse_of_wellFormed (h : WellFormed text) : parse text = .ok ⟨text, h⟩ := by
  obtain ⟨nonempty, digits, fits⟩ := h
  rw [parse, dif_neg nonempty, dif_pos digits, dif_pos fits]

theorem parse_of_not_isNumeral (nonempty : text ≠ "") (h : ¬ IsNumeral text.toList) :
    parse text = .error (.invalidToken (.notDecimal text)) := by
  rw [← Decimal.all_isDigit_iff] at h
  rw [parse, dif_neg nonempty, dif_neg h]

theorem parse_of_large (nonempty : text ≠ "") (digits : IsNumeral text.toList)
    (h : 2 ^ 256 ≤ Decimal.value text.toList) :
    parse text = .error (.invalidToken (.tooLarge text)) := by
  have large : ¬ Decimal.exceeds (Decimal.dropZeros text.toList) limit = false := by
    rw [Bool.not_eq_false]
    exact (exceeds_limit_iff digits).2 h
  rw [parse, dif_neg nonempty, dif_pos ((Decimal.all_isDigit_iff _).2 digits), dif_neg large]

theorem text_of_parse {token : TokenId} (h : parse text = .ok token) : token.text = text := by
  unfold parse at h
  split at h
  · cases h
  · split at h
    · split at h
      · rw [← Except.ok.inj h]
      · cases h
    · cases h

/-- A text is a token id exactly if it is a decimal numeral of a 256-bit number; it is kept as it
    is. Another text is refused for being empty, else for a character that is no digit, else for its
    size. -/
theorem parse_numeral (text : String) :
    ((∃ token, parse text = .ok token) ↔
      text ≠ "" ∧ (∀ c ∈ text.toList, '0' ≤ c ∧ c ≤ '9') ∧
        Decimal.value text.toList ≤ 2 ^ 256 - 1) ∧
    (∀ token, parse text = .ok token → token.text = text) ∧
    (text = "" → ∃ fault, parse text = .error (.invalidToken fault) ∧
      fault.message = "empty token id") ∧
    (text ≠ "" → (∃ c ∈ text.toList, ¬ ('0' ≤ c ∧ c ≤ '9')) →
      ∃ fault, parse text = .error (.invalidToken fault) ∧
        fault.message = "'" ++ text ++ "' is not a decimal integer") ∧
    (text ≠ "" → (∀ c ∈ text.toList, '0' ≤ c ∧ c ≤ '9') →
      2 ^ 256 ≤ Decimal.value text.toList →
      ∃ fault, parse text = .error (.invalidToken fault) ∧
        fault.message = "'" ++ text ++ "' exceeds 256 bits") := by
  refine ⟨⟨?_, ?_⟩, fun token => text_of_parse, ?_, ?_, ?_⟩
  · rintro ⟨token, h⟩
    obtain rfl := text_of_parse h
    exact (wellFormed_iff _).1 token.wellFormed
  · intro h
    exact ⟨_, parse_of_wellFormed ((wellFormed_iff text).2 h)⟩
  · rintro rfl
    exact ⟨.empty, rfl, rfl⟩
  · rintro nonempty ⟨c, hc, hd⟩
    exact ⟨_, parse_of_not_isNumeral nonempty fun h => hd (h c hc), rfl⟩
  · intro nonempty digits large
    exact ⟨_, parse_of_large nonempty digits large, rfl⟩

/-- The largest token id behind zeros, the number after it, a sign, and nothing at all. -/
theorem parse_numeral_bounds :
    (∃ token, parse
      "00115792089237316195423570985008687907853269984665640564039457584007913129639935" =
        .ok token) ∧
    (∃ fault, parse
      "115792089237316195423570985008687907853269984665640564039457584007913129639936" =
        .error (.invalidToken fault) ∧
      fault.message =
        "'115792089237316195423570985008687907853269984665640564039457584007913129639936'" ++
          " exceeds 256 bits") ∧
    (∃ fault, parse "+5" = .error (.invalidToken fault) ∧
      fault.message = "'+5' is not a decimal integer") ∧
    (∃ fault, parse "" = .error (.invalidToken fault) ∧ fault.message = "empty token id") :=
  ⟨(parse_numeral _).1.2
      ⟨by decide, (Decimal.all_isDigit_iff _).1 (by decide +kernel), by decide +kernel⟩,
    (parse_numeral _).2.2.2.2 (by decide) ((Decimal.all_isDigit_iff _).1 (by decide +kernel))
      (by decide +kernel),
    (parse_numeral _).2.2.2.1 (by decide) ⟨'+', by decide⟩,
    (parse_numeral _).2.2.1 rfl⟩

end Koi.TokenId
