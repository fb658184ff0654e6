import Koi.Decimal
import Koi.Json.Value

/-!
# Reading JSON numbers

A number has an optional minus sign, digits without a leading zero, an optional fraction and an
optional exponent. A number beyond the range of double precision is well formed but has no value.

* `Json.NumberText.read?`: the grammar.
* `Json.NumberText.value?`: the number that a text denotes.
-/

namespace Koi.Json

/-- The parts of a number's text. -/
structure NumberText where
  negative : Bool
  integer : List Char
  /-- The digits after the point, if there is one. -/
  fraction : Option (List Char)
  /-- Whether the exponent is negative, and its digits, if there is one. -/
  exponent : Option (Bool × List Char)

namespace NumberText

/-- The characters of which numbers consist. -/
def isPart (c : Char) : Bool :=
  c.isDigit || c = '-' || c = '+' || c = '.' || c = 'e' || c = 'E'

/-- At least one digit, and what follows the digits. -/
def digits? (text : List Char) : Option (List Char × List Char) :=
  match text.takeWhile Char.isDigit with
  | [] => none
  | digits => some (digits, text.dropWhile Char.isDigit)

/-- The digits before the point: a zero stands alone. -/
def integer? (text : List Char) : Option (List Char × List Char) :=
  match digits? text with
  | some ('0' :: _ :: _, _) => none
  | result => result

/-- The fraction, if the text goes on with one. -/
def fraction? : List Char → Option (Option (List Char) × List Char)
  | '.' :: text => (digits? text).map fun (digits, rest) => (some digits, rest)
  | text => some (none, text)

/-- The sign of an exponent. -/
def exponentSign : List Char → Bool × List Char
  | '-' :: text => (true, text)
  | '+' :: text => (false, text)
  | text => (false, text)

/-- The exponent, if the text goes on with one. -/
def exponent? : List Char → Option (Option (Bool × List Char) × List Char)
  | c :: text =>
    if c = 'e' ∨ c = 'E' then
      let (negative, text) := exponentSign text
      (digits? text).map fun (digits, rest) => (some (negative, digits), rest)
    else some (none, c :: text)
  | [] => some (none, [])

/-- The leading minus sign. -/
def sign : List Char → Bool × List Char
  | '-' :: text => (true, text)
  | text => (false, text)

/-- Splits a text that is a number from end to end. -/
def read? (text : List Char) : Option NumberText := do
  let (negative, text) := sign text
  let (integer, text) ← integer? text
  let (fraction, text) ← fraction? text
  let (exponent, text) ← exponent? text
  if text.isEmpty then return ⟨negative, integer, fraction, exponent⟩ else none

/-! ## Magnitude -/

/-- The digits of a number that fit 64 bits, as a number, and the power of ten it is scaled by. -/
structure Scaled where
  significand : Nat
  exponent : Int

/-- Takes in the digits before the point. From the first one that does not fit on, each digit only
    raises the exponent. -/
def Scaled.addInteger (s : Scaled) : List Char → Scaled
  | [] => s
  | d :: digits =>
    let next := 10 * s.significand + (d.toNat - '0'.toNat)
    if next < UInt64.size then Scaled.addInteger ⟨next, s.exponent⟩ digits
    else ⟨s.significand, s.exponent + (digits.length + 1)⟩

/-- Takes in the digits after the point, up to the first one that does not fit. -/
def Scaled.addFraction (s : Scaled) : List Char → Scaled
  | [] => s
  | d :: digits =>
    let next := 10 * s.significand + (d.toNat - '0'.toNat)
    if next < UInt64.size then Scaled.addFraction ⟨next, s.exponent - 1⟩ digits else s

/-- The number in scaled form, sign apart. -/
def scaled (n : NumberText) : Scaled :=
  let s := (Scaled.addInteger ⟨0, 0⟩ n.integer).addFraction (n.fraction.getD [])
  match n.exponent with
  | none => s
  | some (negative, digits) =>
    let e : Int := Decimal.value digits
    ⟨s.significand, if negative then s.exponent - e else s.exponent + e⟩

/-- Whether the product of significand and power of ten, in double precision, is infinite. -/
def Scaled.overflows (s : Scaled) : Bool :=
  s.significand ≠ 0 && (decide (308 < s.exponent) ||
    (decide (0 ≤ s.exponent) &&
      (s.significand.toUInt64.toFloat * Float.ofScientific 1 false s.exponent.toNat).isInf))

/-- The number that a text denotes; `none` if it is out of range. -/
def value? (n : NumberText) (text : String) : Option Number :=
  if n.negative = false ∧ n.fraction = none ∧ n.exponent = none ∧
      Decimal.value n.integer < UInt64.size then
    some (.unsigned (Decimal.value n.integer).toUInt64)
  else if n.scaled.overflows then none
  else some (.other text)

end NumberText

end Koi.Json
