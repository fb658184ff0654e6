/-!
# Decimal numerals

Strings of digits as numbers, most significant digit first.

* `Decimal.value`: the number that digits denote.
* `Decimal.exceeds`: comparing two numerals digit by digit, whatever their length.
-/

namespace Koi.Decimal

/-- The value of a string of decimal digits; no digits denote zero. -/
def value (digits : List Char) : Nat :=
  digits.foldl (fun n c => 10 * n + (c.toNat - '0'.toNat)) 0

/-- The digits from the first one that is not zero. -/
def dropZeros (digits : List Char) : List Char :=
  digits.dropWhile (· = '0')

/-- Whether digits without a leading zero denote a number larger than `bound`, also without
    leading zero: the longer one is larger, and of two with one length the later one in
    dictionary order (`exceeds_u256`). -/
def exceeds (digits bound : List Char) : Bool :=
  bound.length < digits.length || (digits.length == bound.length && decide (bound < digits))

end Koi.Decimal
