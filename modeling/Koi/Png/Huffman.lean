import Koi.Png.Bits

/-!
# Prefix codes

Symbols have codes of different lengths; the lengths alone determine the codes.

* `Code.ofLengths`: the code for given lengths.
* `Code.isComplete`, `Code.isLone`: whether lengths fit together.
* `Code.peek?`, `Code.next`: the next symbol.
-/

namespace Koi.Png

/-- A code: for each length the number of symbols that have it, and the symbols in the order of
    their codes. -/
structure Code where
  counts : Array Nat
  symbols : Array Nat

namespace Code

/-- The longest code. -/
def maxLength : Nat := 15

/-- The code for the lengths of the symbols 0, 1 and so on, where length zero marks a symbol
    without code. -/
def ofLengths (lengths : List Nat) : Code :=
  let symbols := (List.range maxLength).flatMap fun l =>
    (lengths.zipIdx.filter fun p => p.1 = l + 1).map Prod.snd
  let counts := (List.range maxLength).map fun l => lengths.count (l + 1)
  ⟨counts.toArray, symbols.toArray⟩

/-- The codes that are left over when the counted codes, of lengths 1, 2 and so on, have been
    given out; `none` if there are not enough. -/
def leftOver : Nat → List Nat → Option Nat
  | left, [] => some left
  | left, count :: counts =>
    if count ≤ 2 * left then leftOver (2 * left - count) counts else none

/-- There are as many codes as are needed, and all of them are used. -/
def isComplete (c : Code) : Bool := leftOver 1 c.counts.toList = some 0

/-- There is at most one symbol, and its code has one bit. -/
def isLone (c : Code) : Bool := c.symbols.size ≤ 1 ∧ c.symbols.size = c.counts.getD 0 0

/-- Looks a symbol up bit by bit. Of the codes with `length` bits, `first` is the smallest and
    belongs to the symbol number `index`; `code` holds the bits so far. -/
def search (c : Code) (bits : Bits) : (fuel length code first index : Nat) → Option (Nat × Nat)
  | 0, _, _, _, _ => none
  | fuel + 1, length, code, first, index =>
    let code := code + bits.get (length - 1)
    let count := c.counts.getD (length - 1) 0
    if code < first + count then c.symbols[index + (code - first)]?.map fun s => (s, length)
    else c.search bits fuel (length + 1) (2 * code) (2 * (first + count)) (index + count)

/-- The next symbol and the length of its code, where bits that are not there yet are zero. -/
def peek? (c : Code) (bits : Bits) : Option (Nat × Nat) := c.search bits maxLength 1 0 0 0

/-- The next symbol. -/
def next (c : Code) : BitReader Nat := do
  let (symbol, length) ← BitReader.ofOption (c.peek? (← get))
  BitReader.skip length
  return symbol

end Code

end Koi.Png
