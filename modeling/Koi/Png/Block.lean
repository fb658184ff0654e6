import Koi.Png.Huffman

/-!
# Blocks of compressed data

Compressed data is a sequence of blocks. A block holds its bytes as they are, or as symbols of a
fixed or a transmitted pair of codes: a symbol is a byte or two, the end of the block, or a piece
that repeats earlier output.

* `Block.head`: how a block begins.
* `BlockCodes.next`: the next symbol of a block.
-/

namespace Koi.Png

/-! ## Symbols -/

/-- The smallest length for each of the symbols from 257 on, and the number of further bits. -/
def lengthTable : Array (Nat × Nat) :=
  #[(3, 0), (4, 0), (5, 0), (6, 0), (7, 0), (8, 0), (9, 0), (10, 0), (11, 1), (13, 1), (15, 1),
    (17, 1), (19, 2), (23, 2), (27, 2), (31, 2), (35, 3), (43, 3), (51, 3), (59, 3), (67, 4),
    (83, 4), (99, 4), (115, 4), (131, 5), (163, 5), (195, 5), (227, 5), (258, 0)]

/-- The smallest distance for each distance symbol, and the number of further bits. -/
def distanceTable : Array (Nat × Nat) :=
  #[(1, 0), (2, 0), (3, 0), (4, 0), (5, 1), (7, 1), (9, 2), (13, 2), (17, 3), (25, 3), (33, 4),
    (49, 4), (65, 5), (97, 5), (129, 6), (193, 6), (257, 7), (385, 7), (513, 8), (769, 8),
    (1025, 9), (1537, 9), (2049, 10), (3073, 10), (4097, 11), (6145, 11), (8193, 12),
    (12289, 12), (16385, 13), (24577, 13)]

/-- What a block says next. -/
inductive Symbol where
  | literal (byte : UInt8)
  /-- Two literals that are read together. -/
  | pair (first second : UInt8)
  /-- So many bytes are those that stand so many places before. -/
  | repetition (length distance : Nat)
  | blockEnd
  deriving DecidableEq, Repr

/-- The two codes of a block. -/
structure BlockCodes where
  literals : Code
  distances : Code

namespace BlockCodes

/-- The number that an entry of a table and the further bits make. -/
def entry (table : Array (Nat × Nat)) (i : Nat) : BitReader Nat := do
  let (base, extra) ← BitReader.ofOption table[i]?
  return base + (← BitReader.number extra)

/-- The symbol for the end of the block. -/
def endSymbol : Nat := 256

/-- The symbols from here on end a block too. Only the fixed codes have them. -/
def spareSymbol : Nat := 286

/-- Two literals whose codes have at most so many bits together are read together, unless the code
    of the second one is a single bit. -/
def pairBits : Nat := 12

/-- The literal that is read together with the one before, whose code has `length` bits, and the
    length of its code. -/
def second? (codes : BlockCodes) (length : Nat) (bits : Bits) : Option (UInt8 × Nat) := do
  let (symbol, n) ← codes.literals.peek? bits
  if symbol < endSymbol ∧ 1 < n ∧ length + n ≤ pairBits then some (symbol.toUInt8, n) else none

/-- The next symbol. A literal waits for the bits of the one that is read together with it. -/
def next (codes : BlockCodes) : BitReader Symbol := do
  let start := (← get).position
  let symbol ← codes.literals.next
  if symbol < endSymbol then
    let bits ← get
    match codes.second? (bits.position - start) bits with
    | none => return .literal symbol.toUInt8
    | some (second, n) =>
      BitReader.skip n
      return .pair symbol.toUInt8 second
  else if symbol = endSymbol ∨ spareSymbol ≤ symbol then return .blockEnd
  else
    let length ← entry lengthTable (symbol - 257)
    let distance ← entry distanceTable (← codes.distances.next)
    return .repetition length distance

/-- The bits that have to be there so that the end of a block is looked for when there is no room
    for output any more. -/
def endBits : Nat := 15

/-- The bits after the end of the block, if that comes next and is looked for without room. -/
def skipEnd? (codes : BlockCodes) (bits : Bits) : Option Bits :=
  match codes.literals.peek? bits with
  | some (symbol, n) =>
    if symbol = endSymbol ∧ endBits ≤ bits.remaining then some (bits.skip n) else none
  | none => none

/-! ## The codes of a block -/

/-- The codes that need no transmission. -/
def fixed : BlockCodes where
  literals := .ofLengths (List.replicate 144 8 ++ List.replicate 112 9 ++ List.replicate 24 7 ++
    List.replicate 8 8)
  distances := .ofLengths (List.replicate 32 5)

/-- The order in which the lengths of the length code are transmitted. -/
def lengthOrder : List Nat := [16, 17, 18, 0, 8, 7, 9, 6, 10, 5, 11, 4, 12, 3, 13, 2, 14, 1, 15]

/-- Reads `n` numbers of three bits. -/
def shortLengths : (n : Nat) → BitReader (List Nat)
  | 0 => pure []
  | n + 1 => do
    let l ← BitReader.number 3
    let ls ← shortLengths n
    return l :: ls

/-- The longest code of the length code. -/
def maxShortLength : Nat := 7

/-- Reads code lengths until there are `total`. Some symbols stand for repetitions; `done` holds
    the lengths so far, the last one first. Every symbol adds at least one length, so `fuel` is as
    large as what is missing. -/
def codeLengths (code : Code) (total : Nat) : (fuel : Nat) → (done : List Nat) →
    BitReader (List Nat)
  | 0, done => do
    BitReader.check (done.length = total)
    return done.reverse
  | fuel + 1, done => do
    BitReader.check (done.length ≤ total)
    if done.length = total then return done.reverse
    BitReader.require maxShortLength
    let symbol ← code.next
    if symbol < 16 then codeLengths code total fuel (symbol :: done)
    else if symbol = 16 then
      let n ← BitReader.number 2
      let last ← BitReader.ofOption done.head?
      codeLengths code total fuel (List.replicate (n + 3) last ++ done)
    else if symbol = 17 then
      let n ← BitReader.number 3
      codeLengths code total fuel (List.replicate (n + 3) 0 ++ done)
    else
      let n ← BitReader.number 7
      codeLengths code total fuel (List.replicate (n + 11) 0 ++ done)

/-- Reads the codes that are transmitted with a block. The end of the block needs a code, and all
    codes have to be used; only of the distances there may be just one or none. -/
def transmitted : BitReader BlockCodes := do
  let hlit ← BitReader.number 5
  let hdist ← BitReader.number 5
  let hclen ← BitReader.number 4
  BitReader.check (hlit ≤ 29 ∧ hdist ≤ 29)
  let short ← shortLengths (hclen + 4)
  let lengthOf (symbol : Nat) : Nat := ((lengthOrder.zip short).lookup symbol).getD 0
  let code := Code.ofLengths ((List.range 19).map lengthOf)
  BitReader.check code.isComplete
  let total := hlit + 257 + hdist + 1
  let lengths ← codeLengths code total total []
  let literalLengths := lengths.take (hlit + 257)
  let literals := Code.ofLengths literalLengths
  let distances := Code.ofLengths (lengths.drop (hlit + 257))
  BitReader.check (literalLengths.getD endSymbol 0 ≠ 0 ∧ literals.isComplete)
  BitReader.check (distances.isComplete ∨ distances.isLone)
  return ⟨literals, distances⟩

end BlockCodes

/-! ## How a block begins -/

/-- How a block holds its bytes. -/
inductive Block where
  /-- As they are, from a beginning of a byte on. -/
  | stored (length : Nat)
  | coded (codes : BlockCodes)

namespace Block

/-- The bits of the shortest block. -/
def minBits : Nat := 10

/-- Reads the number of bytes that are stored, which stands there together with its complement. -/
def storedLength : BitReader Nat := do
  modify Bits.align
  let length ← BitReader.number 16
  let complement ← BitReader.number 16
  BitReader.check (length + complement = 65535)
  return length

/-- A block of the fixed codes. If it ends at once, nothing is stored in it. -/
def fixed : BitReader Block := do
  let bits ← get
  if (← BitReader.number 7) = 0 then return .stored 0
  set bits
  return .coded .fixed

/-- Reads whether a block is the last one, and how it holds its bytes. -/
def head : BitReader (Bool × Block) := do
  BitReader.require minBits
  let last ← BitReader.bit
  let kind ← BitReader.number 2
  let block ← match kind with
    | 0 => .stored <$> storedLength
    | 1 => fixed
    | 2 => .coded <$> BlockCodes.transmitted
    | _ => throw .invalid
  return (last = 1, block)

end Block

end Koi.Png
