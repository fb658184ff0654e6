import Koi.Json.Printer
import Koi.Proofs.Decimal
import Koi.Proofs.Json.Reading
import Mathlib.Data.List.TakeWhile

/-!
# Written values are read back

The text that is written for a value is cut into the lexemes of that value, whatever the level of
indentation, and from these lexemes the value is built up again. So the text denotes the value.

* `Json.readString_quote`: a string survives its escapes.
* `Json.tokens`: the lexemes of a value; `lexemes_print` finds them in the written text.
* `Json.Reading.run_tokens`: what the reader makes of these lexemes, inside any open containers.
* `Json.denotes_pretty`: reading what was written.
-/

namespace Koi.Json

/-! ## Strings -/

theorem readParts_letter {e c : Char} (h : unescape? e = some c) (text : List Char) :
    readParts ('\\' :: e :: text) = (readParts text).map fun r => (.char c :: r.1, r.2) := by
  have he : e ≠ 'u' := by
    rintro rfl
    cases h
  rw [readParts]
  · rw [h]
    simp [Option.map_eq_bind]
  · intros
    simp_all

theorem hexUnit?_hexByte : ∀ u < 0x20,
    hexUnit? '0' '0' (Color.hexDigit (u.toUInt8.toNat / 16))
      (Color.hexDigit (u.toUInt8.toNat % 16)) = some u := by decide

theorem joinParts_unit {u : Nat} (h : u < 0x20) (parts : List StringPart) :
    joinParts (.unit u :: parts) = (joinParts parts).map (Char.ofNat u :: ·) := by
  have high : isHighSurrogate u = false := by
    simp [isHighSurrogate]
    omega
  have low : isLowSurrogate u = false := by
    simp [isLowSurrogate]
    omega
  rcases parts with _ | ⟨_ | _, parts⟩ <;> simp [joinParts, high, low]

/-- One character is written as one part, which stands for this character. -/
theorem exists_part (c : Char) : ∃ part,
    (∀ text, readParts (escape c ++ text) =
      (readParts text).map fun r => (part :: r.1, r.2)) ∧
    ∀ parts, joinParts (part :: parts) = (joinParts parts).map (c :: ·) := by
  unfold escape
  split
  case h_8 _ _ slash _ _ _ _ _ =>
    split
    case isTrue hc =>
      refine ⟨.unit c.toNat, fun text => ?_, fun parts => ?_⟩
      · show readParts ('\\' :: 'u' :: '0' :: '0' :: _ :: _ :: text) = _
        rw [readParts, hexUnit?_hexByte _ hc]
        simp [Option.map_eq_bind]
      · rw [joinParts_unit hc, Char.ofNat_toNat]
    case isFalse hc =>
      refine ⟨.char c, fun text => ?_, fun parts => by rw [joinParts]⟩
      rw [List.singleton_append, readParts]
      · rw [if_neg (not_or.2 ⟨hc, slash⟩), Option.map_eq_bind]
        rfl
      all_goals simp_all
  all_goals
    exact ⟨.char _, fun text => readParts_letter (by rfl) text, fun parts => by rw [joinParts]⟩

theorem readString_quote (s : String) (rest : List Char) :
    readString (s.toList.flatMap escape ++ '"' :: rest) = some (some s, rest) := by
  have chars (l : List Char) : ∃ parts,
      readParts (l.flatMap escape ++ '"' :: rest) = some (parts, rest) ∧
        joinParts parts = some l := by
    induction l with
    | nil => exact ⟨[], by simp [readParts], by simp [joinParts]⟩
    | cons c l ih =>
      obtain ⟨parts, read, join⟩ := ih
      obtain ⟨part, read_part, join_part⟩ := exists_part c
      refine ⟨part :: parts, ?_, ?_⟩
      · rw [List.flatMap_cons, List.append_assoc, read_part, read]
        rfl
      · rw [join_part, join]
        rfl
  obtain ⟨parts, read, join⟩ := chars s.toList
  rw [readString, read]
  simp [join]

theorem readLexeme_quote (s : String) (rest : List Char) :
    readLexeme (quote s ++ rest) = (.string (some s), rest) := by
  have text : quote s ++ rest = '"' :: (s.toList.flatMap escape ++ '"' :: rest) := by
    simp [quote]
  rw [text, readLexeme, readString_quote]

/-! ## Numbers -/

/-- A number that is read as itself where it is written. -/
def Number.IsWritten (n : Number) : Prop := readLexeme n.render = (.number (some n), [])

/-- No number goes on with this text. -/
def Separated (text : List Char) : Prop := ∀ c, text.head? = some c → NumberText.isPart c = false

theorem readLexeme_of_digit {c : Char} (h : c = '-' ∨ c.isDigit = true) (text : List Char) :
    readLexeme (c :: text) =
      (numberLexeme (c :: text.takeWhile NumberText.isPart),
        text.dropWhile NumberText.isPart) := by
  have punctuation : punctuation? c = none := by
    unfold punctuation?
    split <;> first | rfl | exact absurd h (by decide)
  unfold readLexeme
  split
  case h_5 _ _ _ heq =>
    obtain ⟨rfl, rfl⟩ := List.cons.inj heq
    rw [punctuation, if_pos h]
  case h_6 heq => cases heq
  all_goals
    next heq =>
      obtain ⟨rfl, -⟩ := List.cons.inj heq
      exact absurd h (by decide)

/-- Only a digit or a minus sign starts a number. -/
theorem digit_of_readLexeme {text rest : List Char} {n : Option Number}
    (h : readLexeme text = (.number n, rest)) :
    ∃ c tail, text = c :: tail ∧ (c = '-' ∨ c.isDigit = true) := by
  unfold readLexeme at h
  split at h
  case h_1 => split at h <;> cases h
  case h_5 c tail _ _ _ _ =>
    refine ⟨c, tail, rfl, ?_⟩
    split at h
    · next lexeme hl =>
      unfold punctuation? at hl
      split at hl <;> cases hl <;> cases h
    · split at h
      · assumption
      · cases h
  all_goals cases h

theorem Number.IsWritten.readLexeme_append {n : Number} (h : n.IsWritten) {rest : List Char}
    (hr : Separated rest) : readLexeme (n.render ++ rest) = (.number (some n), rest) := by
  obtain ⟨c, tail, ht, hc⟩ := digit_of_readLexeme h
  rw [Number.IsWritten, ht, readLexeme_of_digit hc, Prod.mk.injEq] at h
  obtain ⟨value, all⟩ := h
  have parts : ∀ d ∈ tail, NumberText.isPart d = true := List.dropWhile_eq_nil_iff.1 all
  -- The number ends where it ended before, since what follows it does not go on with it.
  have stop : rest.takeWhile NumberText.isPart = [] ∧ rest.dropWhile NumberText.isPart = rest := by
    rcases rest with _ | ⟨d, rest⟩
    · exact ⟨rfl, rfl⟩
    · have := hr d rfl
      simp [this]
  rw [List.takeWhile_eq_self_iff.2 parts] at value
  rw [ht, List.cons_append, readLexeme_of_digit hc, List.takeWhile_append_of_pos parts,
    List.dropWhile_append_of_pos parts, stop.1, stop.2, List.append_nil, value]

theorem readLexeme_number {c : Char} {text : List Char} (h : ∀ d ∈ c :: text, d.isDigit = true) :
    readLexeme (c :: text) = (numberLexeme (c :: text), []) := by
  have parts : ∀ d ∈ text, NumberText.isPart d = true := by
    intro d hd
    simp [NumberText.isPart, h d (List.mem_cons_of_mem c hd)]
  rw [readLexeme_of_digit (.inr (h c List.mem_cons_self)), List.takeWhile_eq_self_iff.2 parts,
    List.dropWhile_eq_nil_iff.2 parts]

theorem read?_digits {text : List Char} (h : ∀ d ∈ text, d.isDigit = true) (hn : text ≠ [])
    (hz : ∀ d rest, text ≠ '0' :: d :: rest) :
    NumberText.read? text = some ⟨false, text, none, none⟩ := by
  have sign : NumberText.sign text = (false, text) := by
    unfold NumberText.sign
    split
    · exact absurd (h '-' List.mem_cons_self) (by decide)
    · rfl
  have digits : NumberText.digits? text = some (text, []) := by
    unfold NumberText.digits?
    rw [List.takeWhile_eq_self_iff.2 h, List.dropWhile_eq_nil_iff.2 h]
    split
    · exact absurd rfl hn
    · rfl
  have integer : NumberText.integer? text = some (text, []) := by
    unfold NumberText.integer?
    rw [digits]
    split
    · next heq => exact absurd (congrArg Prod.fst (Option.some.inj heq)) (hz _ _)
    · rfl
  simp [NumberText.read?, sign, integer, NumberText.fraction?, NumberText.exponent?]

/-- Every count is written as a number that is read as this count. -/
theorem Number.isWritten_unsigned (n : UInt64) : (Number.unsigned n).IsWritten := by
  have text : (Number.unsigned n).render = Nat.toDigits 10 n.toNat := by simp [Number.render]
  have numeral : ∀ d ∈ Nat.toDigits 10 n.toNat, d.isDigit = true := fun d hd =>
    Nat.isDigit_of_mem_toDigits (by decide) (by decide) hd
  have plain : ∀ d rest, Nat.toDigits 10 n.toNat ≠ '0' :: d :: rest := by
    intro d rest hd
    rcases Nat.eq_zero_or_pos n.toNat with hz | hp
    · rw [hz] at hd
      cases hd
    · exact Decimal.head?_toDigits_ne hp (by rw [hd]; rfl)
  have lexeme : numberLexeme (Nat.toDigits 10 n.toNat) = .number (some (.unsigned n)) := by
    rw [numberLexeme, read?_digits numeral Nat.toDigits_ne_nil plain]
    have small : n.toNat < UInt64.size := n.toNat_lt
    simp [NumberText.value?, Decimal.value_toDigits, small]
  obtain ⟨c, rest, hc⟩ := List.exists_cons_of_ne_nil (Nat.toDigits_ne_nil (b := 10) (n := n.toNat))
  rw [Number.IsWritten, text, hc, readLexeme_number (hc ▸ numeral), ← hc, lexeme]

/-! ## The lexemes of a value -/

mutual

/-- All numbers in a value are read as themselves where they are written. -/
def Printable : Json → Prop
  | .null | .bool _ | .string _ => True
  | .number n => n.IsWritten
  | .array items => ItemsPrintable items
  | .object members => MembersPrintable members

/-- `Printable` for the items of an array. -/
def ItemsPrintable : List Json → Prop
  | [] => True
  | item :: items => item.Printable ∧ ItemsPrintable items

/-- `Printable` for the members of an object. -/
def MembersPrintable : List (String × Json) → Prop
  | [] => True
  | (_, value) :: members => value.Printable ∧ MembersPrintable members

end

mutual

/-- The lexemes that a value is written with. -/
def tokens : Json → List Lexeme
  | .null => [.null]
  | .bool b => [.bool b]
  | .number n => [.number (some n)]
  | .string s => [.string (some s)]
  | .array [] => [.openBracket, .closeBracket]
  | .array (item :: items) => .openBracket :: (tokens item ++ itemTokens items ++ [.closeBracket])
  | .object [] => [.openBrace, .closeBrace]
  | .object ((key, value) :: members) =>
    .openBrace :: .string (some key) :: .colon ::
      (tokens value ++ memberTokens members ++ [.closeBrace])

/-- The lexemes of the items after the first one. -/
def itemTokens : List Json → List Lexeme
  | [] => []
  | item :: items => .comma :: (tokens item ++ itemTokens items)

/-- The lexemes of the members after the first one. -/
def memberTokens : List (String × Json) → List Lexeme
  | [] => []
  | (key, value) :: members =>
    .comma :: .string (some key) :: .colon :: (tokens value ++ memberTokens members)

end

theorem lexemes_blank {c : Char} (h : isBlank c = true) (text : List Char) :
    lexemes (c :: text) = lexemes text := by
  rw [lexemes, if_pos h]

theorem lexemes_of_readLexeme {c : Char} {text rest : List Char} {lexeme : Lexeme}
    (h : readLexeme (c :: text) = (lexeme, rest)) (hb : isBlank c = false)
    (hl : lexeme ≠ .invalid) : lexemes (c :: text) = lexeme :: lexemes rest := by
  rw [lexemes, h]
  simp [hb, hl]

theorem lexemes_newLine (level : Nat) (text : List Char) :
    lexemes (newLine level ++ text) = lexemes text := by
  have spaces (n : Nat) : lexemes (List.replicate n ' ' ++ text) = lexemes text := by
    induction n with
    | zero => rfl
    | succ n ih => rw [List.replicate_succ, List.cons_append, lexemes_blank rfl, ih]
  rw [newLine, List.cons_append, lexemes_blank rfl, spaces]

theorem lexemes_punctuation {c : Char} {lexeme : Lexeme} (h : punctuation? c = some lexeme)
    (text : List Char) : lexemes (c :: text) = lexeme :: lexemes text := by
  unfold punctuation? at h
  split at h <;> cases h <;> exact lexemes_of_readLexeme rfl rfl (by simp)

theorem lexemes_quote (s : String) (text : List Char) :
    lexemes (quote s ++ text) = .string (some s) :: lexemes text := by
  have h := readLexeme_quote s text
  rw [quote, List.cons_append, List.cons_append] at h ⊢
  exact lexemes_of_readLexeme h rfl (by simp)

theorem Number.IsWritten.lexemes_append {n : Number} (h : n.IsWritten) {text : List Char}
    (ht : Separated text) : lexemes (n.render ++ text) = .number (some n) :: lexemes text := by
  have hl := h.readLexeme_append ht
  obtain ⟨c, tail, hc, digit⟩ := digit_of_readLexeme h
  have blank : isBlank c = false := by
    rw [Bool.eq_false_iff]
    intro hb
    simp only [isBlank, Bool.or_eq_true, decide_eq_true_eq] at hb
    obtain ((rfl | rfl) | rfl) | rfl := hb <;> exact absurd digit (by decide)
  rw [hc, List.cons_append] at hl ⊢
  exact lexemes_of_readLexeme hl blank (by simp)

theorem separated_cons {c : Char} (h : NumberText.isPart c = false) (text : List Char) :
    Separated (c :: text) := by
  rintro d hd
  obtain rfl := Option.some.inj hd
  exact h

theorem separated_printItems (level : Nat) (items : List Json) {rest : List Char}
    (h : Separated rest) : Separated (printItems level items ++ rest) := by
  cases items with
  | nil => exact h
  | cons item items => exact separated_cons rfl _

theorem separated_printMembers (level : Nat) (members : List (String × Json)) {rest : List Char}
    (h : Separated rest) : Separated (printMembers level members ++ rest) := by
  rcases members with _ | ⟨⟨key, value⟩, members⟩
  · exact h
  · exact separated_cons rfl _

theorem separated_newLine (level : Nat) (rest : List Char) : Separated (newLine level ++ rest) :=
  separated_cons rfl _

mutual

/-- The text of a value is cut into the lexemes of the value, whatever comes after it. -/
theorem lexemes_print (level : Nat) : (value : Json) → value.Printable →
    ∀ {rest}, Separated rest → lexemes (print level value ++ rest) = tokens value ++ lexemes rest
  | .null, _, rest, _ => lexemes_of_readLexeme (c := 'n') rfl rfl (by simp)
  | .bool true, _, rest, _ => lexemes_of_readLexeme (c := 't') rfl rfl (by simp)
  | .bool false, _, rest, _ => lexemes_of_readLexeme (c := 'f') rfl rfl (by simp)
  | .number n, h, rest, hr => h.lexemes_append hr
  | .string s, _, rest, _ => lexemes_quote s rest
  | .array [], _, rest, _ => by
    rw [print, tokens, List.cons_append, lexemes_punctuation rfl, List.cons_append,
      lexemes_punctuation rfl]
    rfl
  | .array (item :: items), h, rest, hr => by
    obtain ⟨hi, his⟩ := h
    have close : lexemes (newLine level ++ (']' :: rest)) = .closeBracket :: lexemes rest := by
      rw [lexemes_newLine, lexemes_punctuation rfl]
    have after := separated_newLine level (']' :: rest)
    simp only [print, tokens, List.cons_append, List.append_assoc, List.nil_append]
    rw [lexemes_punctuation rfl, lexemes_newLine,
      lexemes_print (level + 1) item hi (separated_printItems _ items after),
      lexemes_printItems (level + 1) items his after, close]
  | .object [], _, rest, _ => by
    rw [print, tokens, List.cons_append, lexemes_punctuation rfl, List.cons_append,
      lexemes_punctuation rfl]
    rfl
  | .object ((key, value) :: members), h, rest, hr => by
    obtain ⟨hv, hms⟩ := h
    have close : lexemes (newLine level ++ ('\x7d' :: rest)) = .closeBrace :: lexemes rest := by
      rw [lexemes_newLine, lexemes_punctuation rfl]
    have after := separated_newLine level ('\x7d' :: rest)
    simp only [print, tokens, List.cons_append, List.append_assoc, List.nil_append]
    rw [lexemes_punctuation rfl, lexemes_newLine, lexemes_quote, lexemes_punctuation rfl,
      lexemes_blank rfl,
      lexemes_print (level + 1) value hv (separated_printMembers _ members after),
      lexemes_printMembers (level + 1) members hms after, close]

theorem lexemes_printItems (level : Nat) : (items : List Json) → ItemsPrintable items →
    ∀ {rest}, Separated rest →
      lexemes (printItems level items ++ rest) = itemTokens items ++ lexemes rest
  | [], _, rest, _ => rfl
  | item :: items, h, rest, hr => by
    obtain ⟨hi, his⟩ := h
    simp only [printItems, itemTokens, List.cons_append, List.append_assoc]
    rw [lexemes_punctuation rfl, lexemes_newLine,
      lexemes_print level item hi (separated_printItems _ items hr),
      lexemes_printItems level items his hr]

theorem lexemes_printMembers (level : Nat) : (members : List (String × Json)) →
    MembersPrintable members → ∀ {rest}, Separated rest →
      lexemes (printMembers level members ++ rest) = memberTokens members ++ lexemes rest
  | [], _, rest, _ => rfl
  | (key, value) :: members, h, rest, hr => by
    obtain ⟨hv, hms⟩ := h
    simp only [printMembers, memberTokens, List.cons_append, List.append_assoc, List.nil_append]
    rw [lexemes_punctuation rfl, lexemes_newLine, lexemes_quote, lexemes_punctuation rfl,
      lexemes_blank rfl, lexemes_print level value hv (separated_printMembers _ members hr),
      lexemes_printMembers level members hms hr]

end

/-! ## Reading the lexemes -/

namespace Reading

theorem run_cons {state next : State} {frames opened : List Frame} {lexeme : Lexeme}
    (h : step state frames lexeme = some (next, opened)) (rest : List Lexeme) :
    run state frames (lexeme :: rest) = run next opened rest := by
  rw [run, h]

/-- In an array that has just been opened, an item is read like any other value. -/
theorem run_firstItem (item : Json) (frames : List Frame) (rest : List Lexeme) :
    run .firstItem frames (tokens item ++ rest) = run .value (.items [] :: frames)
      (tokens item ++ rest) := by
  cases item with
  | null | bool | number | string => rfl
  | array items => cases items <;> rfl
  | object members => rcases members with _ | ⟨⟨key, value⟩, members⟩ <;> rfl

mutual

/-- From the lexemes of a value the reader builds the value, inside any open containers. -/
theorem run_tokens : (value : Json) → (frames : List Frame) → (rest : List Lexeme) →
    run .value frames (tokens value ++ rest) = run (.done value.reading) frames rest
  | .null, _, _ | .bool _, _, _ | .number _, _, _ | .string _, _, _ | .array [], _, _
  | .object [], _, _ => rfl
  | .array (item :: items), frames, rest => by
    simp only [tokens, List.cons_append, List.append_assoc, List.nil_append]
    rw [run_cons rfl, run_firstItem, run_tokens item, run_itemTokens items]
    rfl
  | .object ((key, value) :: members), frames, rest => by
    simp only [tokens, List.cons_append, List.append_assoc, List.nil_append]
    rw [run_cons rfl, run_cons rfl, run_cons rfl, run_tokens value, run_memberTokens members]
    rfl

theorem run_itemTokens : (items : List Json) → (last : Reading) → (before : List Reading) →
    (frames : List Frame) → (rest : List Lexeme) →
    run (.done last) (.items before :: frames) (itemTokens items ++ .closeBracket :: rest) =
      run (.done (.array (before.reverse ++ last :: itemReadings items))) frames rest
  | [], last, before, frames, rest => by
    rw [itemTokens, List.nil_append, run_cons rfl, List.reverse_cons]
    rfl
  | item :: items, last, before, frames, rest => by
    simp only [itemTokens, List.cons_append, List.append_assoc]
    rw [run_cons rfl, run_tokens item, run_itemTokens items, List.reverse_cons, itemReadings,
      List.append_assoc]
    rfl

theorem run_memberTokens : (members : List (String × Json)) → (key : Option String) →
    (last : Reading) → (before : List (Option String × Reading)) → (frames : List Frame) →
    (rest : List Lexeme) →
    run (.done last) (.members before key :: frames) (memberTokens members ++ .closeBrace :: rest) =
      run (.done (.object (before.reverse ++ (key, last) :: memberReadings members))) frames rest
  | [], key, last, before, frames, rest => by
    rw [memberTokens, List.nil_append, run_cons rfl, List.reverse_cons]
    rfl
  | (next, value) :: members, key, last, before, frames, rest => by
    simp only [memberTokens, List.cons_append, List.append_assoc]
    rw [run_cons rfl, run_cons rfl, run_cons rfl, run_tokens value, run_memberTokens members,
      List.reverse_cons, memberReadings, List.append_assoc]
    rfl

end

end Reading

/-- The text that a value is written as denotes this value. -/
theorem denotes_pretty {value : Json} (h : value.Printable) : Denotes value.pretty value := by
  have separated : Separated [] := by
    intro c hc
    cases hc
  have lexemes := lexemes_print 0 value h separated
  rw [List.append_nil] at lexemes
  rw [Denotes, Reading.ofText, pretty, String.toList_ofList, lexemes, Reading.run_tokens,
    Json.lexemes]
  rfl

end Koi.Json
