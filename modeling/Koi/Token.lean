import Koi.Decimal
import Koi.Error
import Koi.Random.Xorshift

/-!
# Token ids

A token id is a decimal numeral of a 256-bit number, kept as it was written. Its digits are cut
into four pieces, and each piece seeds a random stream of its own.

* `TokenId.parse`: reading, with the three ways to refuse a text.
* `TokenId.pieces`, `TokenId.seeds`, `TokenId.streams`: from digits to random streams.
-/

namespace Koi

/-- The digits of the largest 256-bit number (`MAX_TOKEN_ID`). -/
def TokenId.limit : List Char :=
  "115792089237316195423570985008687907853269984665640564039457584007913129639935".toList

/-- The numerals that are token ids. -/
def TokenId.WellFormed (text : String) : Prop :=
  text ≠ "" ∧ text.toList.all Char.isDigit ∧
    Decimal.exceeds (Decimal.dropZeros text.toList) TokenId.limit = false

instance (text : String) : Decidable (TokenId.WellFormed text) := by
  unfold TokenId.WellFormed; infer_instance

/-- A token id, with all its leading zeros (`TokenId`). -/
structure TokenId where
  text : String
  wellFormed : TokenId.WellFormed text

/-- One thing for each of the four independent choices about a koi: its variety with the palette,
    the number of patterns, the patterns, and the base colors. -/
structure Quarters (α : Type) where
  variety : α
  counts : α
  layers : α
  colors : α

/-- Applies a function to all four parts. -/
def Quarters.map {α β : Type} (f : α → β) (q : Quarters α) : Quarters β :=
  ⟨f q.variety, f q.counts, f q.layers, f q.colors⟩

namespace TokenId

/-- Reads a token id (`parse`). Emptiness is noticed first, then a character that is no digit, then
    size. -/
def parse (text : String) : Except Error TokenId :=
  if nonempty : text = "" then .error (.invalidToken .empty)
  else if digits : text.toList.all Char.isDigit then
    if fits : Decimal.exceeds (Decimal.dropZeros text.toList) TokenId.limit = false then
      .ok ⟨text, nonempty, digits, fits⟩
    else .error (.invalidToken (.tooLarge text))
  else .error (.invalidToken (.notDecimal text))

/-- The digits as written. -/
def digits (token : TokenId) : List Char := token.text.toList

/-- Four contiguous pieces of the digits: three of a quarter of the length, rounded down, and the
    rest. -/
def pieces (token : TokenId) : Quarters (List Char) :=
  let quarter := token.digits.length / 4
  ⟨token.digits.take quarter,
    (token.digits.drop quarter).take quarter,
    (token.digits.drop (2 * quarter)).take quarter,
    token.digits.drop (3 * quarter)⟩

/-- The largest seed that a piece of digits gives. -/
def maxSeed : Nat := UInt64.size / 2 - 1

/-- The value of a piece, or the largest seed if the value is larger (`parse_chunk`). -/
def pieceSeed (piece : List Char) : UInt64 :=
  (min (Decimal.value piece) maxSeed).toUInt64

/-- The seeds of the four pieces (`chunk_seeds`). -/
def seeds (token : TokenId) : Quarters UInt64 :=
  token.pieces.map pieceSeed

/-- Four generators, one for each seed (`seed_streams`). -/
def streams (token : TokenId) : Quarters Xorshift :=
  token.seeds.map Xorshift.ofSeed

end TokenId

end Koi
