import Koi.Decimal
import Mathlib

/-!
# Numerals in the order of numbers

Numerals without leading zeros are compared by their length and then as words in a dictionary. That
is the order of the numbers that they denote, so a bound on a number can be checked on its digits,
however many there are.

* `value_lt_pow_length`, `pow_length_le_value`: the length of a numeral bounds its value.
* `lt_iff_value_lt`: dictionary order on numerals of one length.
* `exceeds_iff`: the comparison of numerals is the comparison of their values.
* `value_toDigits`, `toDigits_value`: the digits that a number is written with denote it, and no
  others without leading zero do.
-/

namespace Koi.Decimal

/-! ## Digits -/

/-- All characters are decimal digits. -/
def IsNumeral (digits : List Char) : Prop := ∀ c ∈ digits, '0' ≤ c ∧ c ≤ '9'

theorem isDigit_iff (c : Char) : c.isDigit = true ↔ '0' ≤ c ∧ c ≤ '9' := by
  simp [Char.isDigit, Char.le_def]

theorem all_isDigit_iff (digits : List Char) :
    digits.all Char.isDigit = true ↔ IsNumeral digits := by
  simp [IsNumeral, isDigit_iff]

theorem toNat_bounds {c : Char} (h : '0' ≤ c ∧ c ≤ '9') : 48 ≤ c.toNat ∧ c.toNat ≤ 57 :=
  h

theorem IsNumeral.of_cons {c : Char} {digits : List Char} (h : IsNumeral (c :: digits)) :
    IsNumeral digits :=
  fun d hd => h d (List.mem_cons_of_mem c hd)

theorem IsNumeral.dropZeros {digits : List Char} (h : IsNumeral digits) :
    IsNumeral (dropZeros digits) :=
  fun c hc => h c ((List.dropWhile_suffix _).subset hc)

/-! ## Values -/

theorem value_eq_ofDigitChars (digits : List Char) :
    value digits = Nat.ofDigitChars 10 digits 0 :=
  Nat.ofDigitChars_eq_foldl.symm

theorem value_cons (c : Char) (digits : List Char) :
    value (c :: digits) = (c.toNat - '0'.toNat) * 10 ^ digits.length + value digits := by
  rw [value_eq_ofDigitChars, value_eq_ofDigitChars, Nat.ofDigitChars_cons,
    Nat.ofDigitChars_eq_ofDigitChars_zero, Nat.mul_zero, Nat.zero_add, Nat.mul_comm]

theorem value_lt_pow_length {digits : List Char} (h : IsNumeral digits) :
    value digits < 10 ^ digits.length := by
  induction digits with
  | nil => decide
  | cons c digits ih =>
    have hb := toNat_bounds (h c List.mem_cons_self)
    have hc : c.toNat - '0'.toNat ≤ 9 := by
      show c.toNat - 48 ≤ 9
      omega
    rw [value_cons, List.length_cons, Nat.pow_succ]
    calc (c.toNat - '0'.toNat) * 10 ^ digits.length + value digits
        < 9 * 10 ^ digits.length + 10 ^ digits.length :=
          Nat.add_lt_add_of_le_of_lt (Nat.mul_le_mul_right _ hc) (ih h.of_cons)
      _ = 10 ^ digits.length * 10 := by omega

/-- A numeral without leading zero is at least the smallest number of its length. -/
theorem pow_length_le_value {c : Char} {digits : List Char} (h : IsNumeral (c :: digits))
    (hc : c ≠ '0') : 10 ^ digits.length ≤ value (c :: digits) := by
  have hb := toNat_bounds (h c List.mem_cons_self)
  have hne : c.toNat ≠ 48 := fun he => hc (Char.toNat_inj.1 he)
  rw [value_cons]
  have hp : 1 ≤ c.toNat - '0'.toNat := by
    show 1 ≤ c.toNat - 48
    omega
  calc 10 ^ digits.length = 1 * 10 ^ digits.length := (Nat.one_mul _).symm
    _ ≤ (c.toNat - '0'.toNat) * 10 ^ digits.length := Nat.mul_le_mul_right _ hp
    _ ≤ _ := Nat.le_add_right _ _

theorem value_dropZeros (digits : List Char) : value (dropZeros digits) = value digits := by
  induction digits with
  | nil => rfl
  | cons c digits ih =>
    by_cases hc : c = '0'
    · subst hc
      have hd : dropZeros ('0' :: digits) = dropZeros digits := by simp [dropZeros]
      rw [hd, ih, value_cons]
      simp
    · simp [dropZeros, hc]

theorem head?_dropZeros_ne (digits : List Char) : (dropZeros digits).head? ≠ some '0' := by
  intro h
  have := List.head?_dropWhile_not (· = '0') digits
  rw [dropZeros] at h
  simp [h] at this

/-! ## Order -/

/-- The first digit decides, whatever the digits after it are. -/
theorem lt_of_first_lt {x y u v p : Nat} (h : x < y) (hu : u < p) : x * p + u < y * p + v := by
  have hm : (x + 1) * p ≤ y * p := Nat.mul_le_mul_right _ h
  rw [Nat.add_mul] at hm
  omega

/-- Of numerals with one length, the smaller one comes first in a dictionary. -/
theorem lt_iff_value_lt {a b : List Char} (ha : IsNumeral a) (hb : IsNumeral b)
    (h : a.length = b.length) : a < b ↔ value a < value b := by
  induction a generalizing b with
  | nil =>
    obtain rfl : b = [] := List.length_eq_zero_iff.1 h.symm
    simp
  | cons c a ih =>
    obtain _ | ⟨d, b⟩ := b
    · cases h
    have hl : a.length = b.length := Nat.succ_inj.1 h
    have hva := value_lt_pow_length ha.of_cons
    have hvb := value_lt_pow_length hb.of_cons
    have hc := toNat_bounds (ha c List.mem_cons_self)
    have hd := toNat_bounds (hb d List.mem_cons_self)
    rw [hl] at hva
    -- The dictionary compares the first digits, and they outweigh all others together.
    rw [List.cons_lt_cons_iff, ih ha.of_cons hb.of_cons hl, value_cons, value_cons, hl]
    rcases Nat.lt_trichotomy c.toNat d.toNat with hlt | heq | hgt
    · have hlt' : c < d := hlt
      have := lt_of_first_lt (v := value b) (Nat.sub_lt_sub_right hc.1 hlt) hva
      exact ⟨fun _ => this, fun _ => .inl hlt'⟩
    · obtain rfl : c = d := Char.toNat_inj.1 heq
      simp
    · have hnot : ¬ (c < d ∨ c = d ∧ value a < value b) := by
        rintro (h' | ⟨rfl, -⟩)
        · exact Nat.lt_asymm hgt h'
        · exact Nat.lt_irrefl _ hgt
      have := lt_of_first_lt (v := value a) (Nat.sub_lt_sub_right hd.1 hgt) hvb
      exact ⟨fun h' => absurd h' hnot, fun h' => absurd h' (Nat.lt_asymm this)⟩

/-- A longer numeral without leading zero denotes a larger number. -/
theorem value_lt_of_length_lt {a b : List Char} (ha : IsNumeral a) (hb : IsNumeral b)
    (hz : b.head? ≠ some '0') (h : a.length < b.length) : value a < value b := by
  obtain _ | ⟨d, b⟩ := b
  · cases h
  have hd : d ≠ '0' := by simpa using hz
  calc value a < 10 ^ a.length := value_lt_pow_length ha
    _ ≤ 10 ^ b.length := Nat.pow_le_pow_right (by omega) (Nat.le_of_lt_succ h)
    _ ≤ value (d :: b) := pow_length_le_value hb hd

theorem exceeds_iff {digits bound : List Char} (hd : IsNumeral digits) (hb : IsNumeral bound)
    (zd : digits.head? ≠ some '0') (zb : bound.head? ≠ some '0') :
    exceeds digits bound = true ↔ value bound < value digits := by
  unfold exceeds
  -- A shorter text is never larger, a longer one always; only texts of one length are compared.
  rcases Nat.lt_trichotomy digits.length bound.length with hlt | heq | hgt
  · have hv := value_lt_of_length_lt hd hb zb hlt
    have h₁ : ¬ bound.length < digits.length := Nat.not_lt.2 (Nat.le_of_lt hlt)
    have h₂ : digits.length ≠ bound.length := Nat.ne_of_lt hlt
    simp only [h₁, h₂, decide_false, Bool.false_or, beq_iff_eq, Bool.and_eq_true, false_and,
      false_iff]
    omega
  · simpa [heq] using lt_iff_value_lt hb hd heq.symm
  · have hv := value_lt_of_length_lt hb hd zd hgt
    simp [hgt, hv]

/-- Numerals of one length and one value are the same. -/
theorem eq_of_value_eq {a b : List Char} (ha : IsNumeral a) (hb : IsNumeral b)
    (length : a.length = b.length) (h : value a = value b) : a = b := by
  rcases lt_trichotomy a b with hlt | rfl | hgt
  · have := (lt_iff_value_lt ha hb length).1 hlt
    omega
  · rfl
  · have := (lt_iff_value_lt hb ha length.symm).1 hgt
    omega

/-- Numerals without leading zeros that denote one number have one length. -/
theorem length_eq_of_value_eq {a b : List Char} (ha : IsNumeral a) (hb : IsNumeral b)
    (za : a.head? ≠ some '0') (zb : b.head? ≠ some '0') (h : value a = value b) :
    a.length = b.length := by
  rcases Nat.lt_trichotomy a.length b.length with hlt | heq | hgt
  · have := value_lt_of_length_lt ha hb zb hlt
    omega
  · exact heq
  · have := value_lt_of_length_lt hb ha za hgt
    omega

/-! ## Numerals of numbers -/

theorem value_toDigits (n : Nat) : value (Nat.toDigits 10 n) = n := by
  rw [value_eq_ofDigitChars, Nat.ofDigitChars_toDigits (by decide) (by decide)]

theorem isNumeral_toDigits (n : Nat) : IsNumeral (Nat.toDigits 10 n) := fun c hc =>
  (isDigit_iff c).1 (Nat.isDigit_of_mem_toDigits (by decide) (by decide) hc)

/-- A positive number is written without leading zero. -/
theorem head?_toDigits_ne {n : Nat} (h : 0 < n) : (Nat.toDigits 10 n).head? ≠ some '0' := by
  have single : ∀ d < 10, 0 < d → Nat.digitChar d ≠ '0' := by decide
  induction n using Nat.strongRecOn with
  | ind n ih =>
    rw [Nat.toDigits_eq_if (by decide)]
    split
    · next hn => simpa using single n hn h
    · next hn =>
      rw [List.head?_append_of_ne_nil _ Nat.toDigits_ne_nil]
      exact ih (n / 10) (by omega) (by omega)

/-- A numeral without leading zero denotes a positive number. -/
theorem value_pos {digits : List Char} (h : IsNumeral digits) (nonempty : digits ≠ [])
    (zero : digits.head? ≠ some '0') : 0 < value digits := by
  obtain ⟨c, digits, rfl⟩ := List.exists_cons_of_ne_nil nonempty
  have hc : c ≠ '0' := by simpa using zero
  exact Nat.lt_of_lt_of_le (Nat.pow_pos (by decide)) (pow_length_le_value h hc)

/-- A numeral without leading zero is what its value is written as. -/
theorem toDigits_value {digits : List Char} (h : IsNumeral digits) (nonempty : digits ≠ [])
    (zero : digits.head? ≠ some '0') : Nat.toDigits 10 (value digits) = digits := by
  have written := isNumeral_toDigits (value digits)
  have hv := value_toDigits (value digits)
  have length := length_eq_of_value_eq written h
    (head?_toDigits_ne (value_pos h nonempty zero)) zero hv
  exact eq_of_value_eq written h length hv

end Koi.Decimal
