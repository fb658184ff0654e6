import Koi.Color
import Koi.Json.Number

/-!
# The lexemes of a JSON text

A text is cut into lexemes from left to right. The first character that starts no lexeme ends the
work: all that follows is unknown.

* `Json.Lexeme`: a string with an unpaired surrogate and a number out of range are lexemes without
  a value.
* `Json.readString`: the characters up to the closing quote.
* `Json.lexemes`: a whole text.
-/

namespace Koi.Json

/-- A lexeme of JSON. -/
inductive Lexeme where
  | openBrace
  | closeBrace
  | openBracket
  | closeBracket
  | colon
  | comma
  | null
  | bool (value : Bool)
  | string (value : Option String)
  | number (value : Option Number)
  /-- Here starts something that is no lexeme. -/
  | invalid
  deriving DecidableEq, Repr

/-! ## Strings -/

/-- One element of a quoted string: a character, or the 16-bit unit of a numeric escape. -/
inductive StringPart where
  | char (c : Char)
  | unit (value : Nat)
  deriving DecidableEq, Repr

/-- The value of four hexadecimal digits. -/
def hexUnit? (a b c d : Char) : Option Nat := do
  let a ← Color.hexDigit? a
  let b ← Color.hexDigit? b
  let c ← Color.hexDigit? c
  let d ← Color.hexDigit? d
  return ((a * 16 + b) * 16 + c) * 16 + d

/-- The character of a one-letter escape. -/
def unescape? : Char → Option Char
  | '"' => some '"'
  | '\\' => some '\\'
  | '/' => some '/'
  | 'b' => some '\x08'
  | 'f' => some '\x0c'
  | 'n' => some '\n'
  | 'r' => some '\r'
  | 't' => some '\t'
  | _ => none

/-- The parts of a string up to its closing quote, and the text after it. A raw control character
    or an unknown escape makes the string invalid. -/
def readParts : List Char → Option (List StringPart × List Char)
  | '"' :: rest => some ([], rest)
  | '\\' :: 'u' :: a :: b :: c :: d :: rest => do
    let unit ← hexUnit? a b c d
    let (parts, rest) ← readParts rest
    return (.unit unit :: parts, rest)
  | '\\' :: e :: rest => do
    let c ← unescape? e
    let (parts, rest) ← readParts rest
    return (.char c :: parts, rest)
  | c :: rest =>
    if c.toNat < 0x20 ∨ c = '\\' then none
    else do
      let (parts, rest) ← readParts rest
      return (.char c :: parts, rest)
  | [] => none

def isHighSurrogate (unit : Nat) : Bool := 0xD800 ≤ unit && unit < 0xDC00

def isLowSurrogate (unit : Nat) : Bool := 0xDC00 ≤ unit && unit < 0xE000

/-- The characters of a string; two units that form a pair are one character, and a surrogate
    without partner has no character. -/
def joinParts : List StringPart → Option (List Char)
  | [] => some []
  | .char c :: parts => (joinParts parts).map (c :: ·)
  | .unit high :: .unit low :: parts =>
    if isHighSurrogate high && isLowSurrogate low then
      (joinParts parts).map
        (Char.ofNat (0x10000 + (high - 0xD800) * 0x400 + (low - 0xDC00)) :: ·)
    else if isHighSurrogate high || isLowSurrogate high then none
    else (joinParts (.unit low :: parts)).map (Char.ofNat high :: ·)
  | .unit u :: parts =>
    if isHighSurrogate u || isLowSurrogate u then none
    else (joinParts parts).map (Char.ofNat u :: ·)

/-- The rest of a string whose opening quote has been read, and the text after it. -/
def readString (text : List Char) : Option (Option String × List Char) := do
  let (parts, rest) ← readParts text
  return ((joinParts parts).map String.ofList, rest)

theorem length_readParts {text : List Char} {parts rest} (h : readParts text = some (parts, rest)) :
    rest.length < text.length := by
  fun_induction readParts text generalizing parts with
  | case1 => simp_all
  | case2 a b c d tail ih =>
    simp only [Option.bind_eq_bind, Option.pure_def, Option.bind_eq_some_iff, Prod.exists,
      Option.some.injEq, Prod.mk.injEq] at h
    obtain ⟨-, -, ps, rs, hr, -, rfl⟩ := h
    have := ih hr
    simp only [List.length_cons]; omega
  | case3 e tail _ ih =>
    simp only [Option.bind_eq_bind, Option.pure_def, Option.bind_eq_some_iff, Prod.exists,
      Option.some.injEq, Prod.mk.injEq] at h
    obtain ⟨-, -, ps, rs, hr, -, rfl⟩ := h
    have := ih hr
    simp only [List.length_cons]; omega
  | case4 => simp at h
  | case5 c tail _ _ _ _ ih =>
    simp only [Option.bind_eq_bind, Option.pure_def, Option.bind_eq_some_iff, Prod.exists,
      Option.some.injEq, Prod.mk.injEq] at h
    obtain ⟨ps, rs, hr, -, rfl⟩ := h
    have := ih hr
    simp only [List.length_cons]; omega
  | case6 => simp at h

theorem length_readString {text : List Char} {value rest}
    (h : readString text = some (value, rest)) : rest.length < text.length := by
  simp only [readString, Option.bind_eq_bind, Option.pure_def, Option.bind_eq_some_iff,
    Prod.exists, Option.some.injEq, Prod.mk.injEq] at h
  obtain ⟨parts, r, h, -, rfl⟩ := h
  exact length_readParts h

/-! ## Texts -/

def isBlank (c : Char) : Bool := c = ' ' || c = '\t' || c = '\n' || c = '\r'

/-- The lexeme of a single punctuation character. -/
def punctuation? : Char → Option Lexeme
  | '\x7b' => some .openBrace
  | '\x7d' => some .closeBrace
  | '[' => some .openBracket
  | ']' => some .closeBracket
  | ':' => some .colon
  | ',' => some .comma
  | _ => none

/-- The lexeme of a number's text. -/
def numberLexeme (text : List Char) : Lexeme :=
  match NumberText.read? text with
  | some n => .number (n.value? (String.ofList text))
  | none => .invalid

/-- The first lexeme of a text that does not start with a blank, and the text after it. -/
def readLexeme : List Char → Lexeme × List Char
  | '"' :: rest =>
    match readString rest with
    | some (value, rest) => (.string value, rest)
    | none => (.invalid, [])
  | 'n' :: 'u' :: 'l' :: 'l' :: rest => (.null, rest)
  | 't' :: 'r' :: 'u' :: 'e' :: rest => (.bool true, rest)
  | 'f' :: 'a' :: 'l' :: 's' :: 'e' :: rest => (.bool false, rest)
  | c :: rest =>
    match punctuation? c with
    | some lexeme => (lexeme, rest)
    | none =>
      if c = '-' ∨ c.isDigit then
        (numberLexeme (c :: rest.takeWhile NumberText.isPart), rest.dropWhile NumberText.isPart)
      else (.invalid, [])
  | [] => (.invalid, [])

theorem length_readLexeme {text : List Char} (h : text ≠ []) :
    (readLexeme text).2.length < text.length := by
  unfold readLexeme
  split
  · split
    · next h' => have := length_readString h'; simp only [List.length_cons]; omega
    · simp
  · simp only [List.length_cons]; omega
  · simp only [List.length_cons]; omega
  · simp only [List.length_cons]; omega
  · next c rest _ _ _ _ =>
    split
    · simp
    · split
      · have := (List.dropWhile_suffix NumberText.isPart (l := rest)).length_le
        simp only [List.length_cons]; omega
      · simp
  · exact absurd rfl h

/-- The lexemes of a text. -/
def lexemes : List Char → List Lexeme
  | [] => []
  | c :: text =>
    if isBlank c then lexemes text
    else
      let next := readLexeme (c :: text)
      if next.1 = .invalid then [.invalid] else next.1 :: lexemes next.2
termination_by text => text.length
decreasing_by
  · simp
  · exact length_readLexeme (by simp)

end Koi.Json
