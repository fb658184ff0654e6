import Koi.Error

/-!
# Colors

A color has three components of 8 bits. Its written form is `#rrggbb` in lower case.

* `Color.toHex`, `Color.ofHex`: writing and reading that form. Reading also takes upper case, a
  missing `#`, and a component written as `+` and one digit.
* `Color.isDark`: perceived brightness below the middle.
-/

namespace Koi

/-- An opaque color (`Rgb8`). -/
structure Color where
  red : UInt8
  green : UInt8
  blue : UInt8
  deriving DecidableEq, Repr, Inhabited

namespace Color

/-! ## Hexadecimal digits -/

/-- The value of a hexadecimal digit of either case. -/
def hexDigit? (c : Char) : Option Nat :=
  if '0' ≤ c ∧ c ≤ '9' then some (c.toNat - '0'.toNat)
  else if 'a' ≤ c ∧ c ≤ 'f' then some (c.toNat - 'a'.toNat + 10)
  else if 'A' ≤ c ∧ c ≤ 'F' then some (c.toNat - 'A'.toNat + 10)
  else none

/-- The lower-case digit for a value below 16. -/
def hexDigit (n : Nat) : Char :=
  if n < 10 then Char.ofNat ('0'.toNat + n) else Char.ofNat ('a'.toNat + (n - 10))

/-- The two lower-case digits of a byte. -/
def hexByte (b : UInt8) : List Char :=
  [hexDigit (b.toNat / 16), hexDigit (b.toNat % 16)]

/-! ## Writing and reading -/

/-- The digits of the three components. -/
def hexDigits (c : Color) : List Char :=
  hexByte c.red ++ hexByte c.green ++ hexByte c.blue

/-- The written form `#rrggbb` (`to_hex`). -/
def toHex (c : Color) : String :=
  String.ofList ('#' :: c.hexDigits)

instance : ToString Color := ⟨toHex⟩

/-- The value of a two-character component: two digits, or a plus sign and one digit. -/
def component? (hi lo : Char) : Option UInt8 :=
  if hi = '+' then (hexDigit? lo).map Nat.toUInt8
  else do
    let h ← hexDigit? hi
    let l ← hexDigit? lo
    return (16 * h + l).toUInt8

/-- Removes one leading `#`. -/
def dropHash : List Char → List Char
  | '#' :: rest => rest
  | text => text

/-- Reads a color (`from_hex`). A text that is not six ASCII characters long, a leading `#` apart,
    is refused as a whole; otherwise the first unreadable component is the fault. -/
def ofHex (text : String) : Except Error Color :=
  let digits := dropHash text.toList
  match digits with
  | [r₁, r₂, g₁, g₂, b₁, b₂] =>
    if digits.all fun c => c.toNat < 128 then
      match component? r₁ r₂, component? g₁ g₂, component? b₁ b₂ with
      | some red, some green, some blue => .ok ⟨red, green, blue⟩
      | none, _, _ => .error (.invalidColor (.badComponent .red))
      | _, none, _ => .error (.invalidColor (.badComponent .green))
      | _, _, none => .error (.invalidColor (.badComponent .blue))
    else .error (.invalidColor (.wrongLength (String.ofList digits)))
  | _ => .error (.invalidColor (.wrongLength (String.ofList digits)))

/-! ## Brightness -/

/-- Whether the perceived brightness, a weighted root of squares in double precision, lies below
    the middle of the scale (`is_dark`). -/
def isDark (c : Color) : Bool :=
  let r := c.red.toFloat
  let g := c.green.toFloat
  let b := c.blue.toFloat
  Float.sqrt (0.299 * r * r + 0.587 * g * g + 0.114 * b * b) < 127.5

end Color

end Koi
