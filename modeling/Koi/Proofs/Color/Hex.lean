import Koi.Proofs.Generation.Checked
import Mathlib

/-!
# Which texts are colors

A color is read from six hexadecimal digits in either case, with or without one `#` in front. One
thing more is read: the first character of a component may be a plus sign, which stands for a zero.

* `Color.hexDigit?_eq_some_iff`, `Color.component?_eq_some_iff`: what a digit and a component are
  read as.
* `Checked.ofHex_eq`: the components are cut between characters, whatever the text is.
* `Color.ofHex_grammar`: which texts are read, and as what; the others are refused.
-/

namespace Koi

namespace Color

/-! ## Digits -/

/-- A hexadecimal digit of either case. -/
def IsHexDigit (c : Char) : Prop :=
  ('0' ≤ c ∧ c ≤ '9') ∨ ('a' ≤ c ∧ c ≤ 'f') ∨ ('A' ≤ c ∧ c ≤ 'F')

instance (c : Char) : Decidable (IsHexDigit c) :=
  inferInstanceAs (Decidable (_ ∨ _ ∨ _))

theorem IsHexDigit.toNat_lt {c : Char} (h : IsHexDigit c) : c.toNat < 128 := by
  rcases h with ⟨-, h⟩ | ⟨-, h⟩ | ⟨-, h⟩
  · exact Nat.lt_of_le_of_lt h (by decide)
  · exact Nat.lt_of_le_of_lt h (by decide)
  · exact Nat.lt_of_le_of_lt h (by decide)

/-- What holds of all ASCII characters can be looked up in a table. -/
theorem forall_ascii {P : Char → Prop} (table : ∀ n < 128, P (Char.ofNat n)) {c : Char}
    (h : c.toNat < 128) : P c := by
  have hc := table c.toNat h
  rwa [Char.ofNat_toNat] at hc

theorem hexDigit_injective : ∀ m < 16, ∀ n < 16, hexDigit m = hexDigit n → m = n := by decide

theorem exists_hexDigit?_eq {c : Char} (h : IsHexDigit c) :
    ∃ n < 16, hexDigit? c = some n ∧ c.toLower = hexDigit n :=
  forall_ascii
    (P := fun c => IsHexDigit c → ∃ n < 16, hexDigit? c = some n ∧ c.toLower = hexDigit n)
    (by decide +kernel) h.toNat_lt h

theorem hexDigit?_of_not {c : Char} (h : ¬ IsHexDigit c) : hexDigit? c = none := by
  obtain ⟨decimal, lower, upper⟩ : ¬ ('0' ≤ c ∧ c ≤ '9') ∧ ¬ ('a' ≤ c ∧ c ≤ 'f') ∧
      ¬ ('A' ≤ c ∧ c ≤ 'F') := by
    rwa [IsHexDigit, not_or, not_or] at h
  rw [hexDigit?, if_neg decimal, if_neg lower, if_neg upper]

theorem hexDigit?_eq_some_iff (c : Char) (n : Nat) :
    hexDigit? c = some n ↔ IsHexDigit c ∧ n < 16 ∧ c.toLower = hexDigit n := by
  by_cases h : IsHexDigit c
  · obtain ⟨m, hm, hv, hl⟩ := exists_hexDigit?_eq h
    rw [hv, hl, Option.some.injEq]
    constructor
    · rintro rfl
      exact ⟨h, hm, rfl⟩
    · rintro ⟨-, hn, he⟩
      exact hexDigit_injective m hm n hn he
  · rw [hexDigit?_of_not h]
    simp [h]

/-! ## Components -/

/-- The digit that a character of a color stands for, in lower case. -/
def plain (c : Char) : Char := if c = '+' then '0' else c.toLower

/-- The value of the first character of a component. -/
def leading? (c : Char) : Option Nat := if c = '+' then some 0 else hexDigit? c

theorem leading?_eq_some_iff (c : Char) (n : Nat) :
    leading? c = some n ↔ (IsHexDigit c ∨ c = '+') ∧ n < 16 ∧ plain c = hexDigit n := by
  unfold leading? plain
  split
  · next h =>
    have zero : '0' = hexDigit 0 := rfl
    rw [Option.some.injEq, zero]
    constructor
    · rintro rfl
      exact ⟨.inr h, by decide, rfl⟩
    · rintro ⟨-, hn, he⟩
      exact hexDigit_injective 0 (by decide) n hn he
  · next h => rw [hexDigit?_eq_some_iff, or_iff_left h]

theorem plain_of_isHexDigit {c : Char} (h : IsHexDigit c) : plain c = c.toLower := by
  refine if_neg ?_
  rintro rfl
  exact absurd h (by decide)

theorem component?_eq (hi lo : Char) : component? hi lo =
    (leading? hi).bind fun h => (hexDigit? lo).map fun l => (16 * h + l).toUInt8 := by
  unfold component? leading?
  split
  · simp
  · cases hexDigit? hi <;> cases hexDigit? lo <;> rfl

theorem byte_eq_iff {h l : Nat} (hh : h < 16) (hl : l < 16) (b : UInt8) :
    (16 * h + l).toUInt8 = b ↔ h = b.toNat / 16 ∧ l = b.toNat % 16 := by
  have hb := b.toNat_lt
  rw [← UInt8.toNat_inj, Nat.toUInt8_eq, UInt8.toNat_ofNat']
  omega

theorem toNat_lt_of_leading {c : Char} (h : IsHexDigit c ∨ c = '+') : c.toNat < 128 := by
  rcases h with h | rfl
  · exact h.toNat_lt
  · decide

/-- A component is read from its two digits in either case, and from a plus sign in the place of a
    leading zero. -/
theorem component?_eq_some_iff (hi lo : Char) (b : UInt8) :
    component? hi lo = some b ↔
      (IsHexDigit hi ∨ hi = '+') ∧ IsHexDigit lo ∧ [hi, lo].map plain = hexByte b := by
  have hb := b.toNat_lt
  rw [component?_eq, Option.bind_eq_some_iff]
  simp only [Option.map_eq_some_iff, leading?_eq_some_iff, hexDigit?_eq_some_iff]
  constructor
  · rintro ⟨h, ⟨high, hh, ph⟩, l, ⟨low, hl, pl⟩, he⟩
    obtain ⟨rfl, rfl⟩ := (byte_eq_iff hh hl b).1 he
    refine ⟨high, low, ?_⟩
    rw [hexByte, ← ph, ← pl, ← plain_of_isHexDigit low]
    rfl
  · rintro ⟨high, low, he⟩
    obtain ⟨ph, he⟩ := List.cons.inj he
    obtain ⟨pl, -⟩ := List.cons.inj he
    rw [plain_of_isHexDigit low] at pl
    have hh : b.toNat / 16 < 16 := by omega
    have hl : b.toNat % 16 < 16 := Nat.mod_lt _ (by decide)
    exact ⟨_, ⟨high, hh, ph⟩, _, ⟨low, hl, pl⟩, (byte_eq_iff hh hl b).2 ⟨rfl, rfl⟩⟩

/-! ## Six characters -/

theorem toList_toHex (c : Color) : c.toHex.toList = '#' :: c.hexDigits := by
  rw [toHex, String.toList_ofList]

/-- Of six characters, three stand first in a component and three second. -/
theorem mem_six_iff {d r₁ r₂ g₁ g₂ b₁ b₂ : Char} : d ∈ [r₁, r₂, g₁, g₂, b₁, b₂] ↔
    d ∈ [r₁, g₁, b₁] ∨ d ∈ [r₂, g₂, b₂] := by
  simp only [List.mem_cons, List.not_mem_nil, or_false]
  tauto

/-- The components of a color are read from the six characters that come to its digits. -/
theorem components_iff (c : Color) (r₁ r₂ g₁ g₂ b₁ b₂ : Char) :
    (component? r₁ r₂ = some c.red ∧ component? g₁ g₂ = some c.green ∧
      component? b₁ b₂ = some c.blue) ↔
    (∀ d ∈ [r₁, g₁, b₁], IsHexDigit d ∨ d = '+') ∧ (∀ d ∈ [r₂, g₂, b₂], IsHexDigit d) ∧
      [r₁, r₂, g₁, g₂, b₁, b₂].map plain = c.hexDigits := by
  simp only [component?_eq_some_iff, hexDigits, hexByte, List.forall_mem_cons, List.map_cons,
    List.map_nil, List.cons_append, List.nil_append, List.cons.injEq, List.not_mem_nil,
    and_true, IsEmpty.forall_iff, implies_true]
  tauto

/-- Six characters that spell a color, with a plus sign in the place of leading zeros. -/
theorem ofHex_eq_ok_iff (text : String) (c : Color) :
    ofHex text = .ok c ↔ ∃ r₁ r₂ g₁ g₂ b₁ b₂, dropHash text.toList = [r₁, r₂, g₁, g₂, b₁, b₂] ∧
      (∀ d ∈ [r₁, g₁, b₁], IsHexDigit d ∨ d = '+') ∧ (∀ d ∈ [r₂, g₂, b₂], IsHexDigit d) ∧
      [r₁, r₂, g₁, g₂, b₁, b₂].map plain = c.hexDigits := by
  constructor
  · intro h
    unfold ofHex at h
    simp only at h
    split at h
    · next r₁ r₂ g₁ g₂ b₁ b₂ hd =>
      refine ⟨r₁, r₂, g₁, g₂, b₁, b₂, hd, (components_iff ..).1 ?_⟩
      split at h
      · split at h
        · next red green blue hr hg hb =>
          obtain rfl := Except.ok.inj h
          exact ⟨hr, hg, hb⟩
        all_goals cases h
      · cases h
    · cases h
  · rintro ⟨r₁, r₂, g₁, g₂, b₁, b₂, hd, first, second, spelled⟩
    obtain ⟨hr, hg, hb⟩ := (components_iff ..).2 ⟨first, second, spelled⟩
    have ascii : [r₁, r₂, g₁, g₂, b₁, b₂].all (fun d => decide (d.toNat < 128)) = true := by
      simp only [List.all_eq_true, decide_eq_true_eq]
      intro d hd
      rcases mem_six_iff.1 hd with hd | hd
      · exact toNat_lt_of_leading (first d hd)
      · exact (second d hd).toNat_lt
    simp only [ofHex, hd, ascii, if_true, hr, hg, hb]

/-- The text consists of the six digits of a color in either case, with at most one `#` in
    front. -/
def Spells (text : String) (c : Color) : Prop :=
  (dropHash text.toList).length = 6 ∧ (∀ d ∈ dropHash text.toList, IsHexDigit d) ∧
    '#' :: (dropHash text.toList).map Char.toLower = c.toHex.toList

instance (text : String) (c : Color) : Decidable (Spells text c) :=
  letI := List.decidableBAll IsHexDigit (dropHash text.toList)
  inferInstanceAs (Decidable (_ ∧ _ ∧ _))

theorem map_plain_of_forall {digits : List Char} (h : ∀ d ∈ digits, IsHexDigit d) :
    digits.map plain = digits.map Char.toLower :=
  List.map_congr_left fun d hd => plain_of_isHexDigit (h d hd)

theorem ofHex_of_spells {text : String} {c : Color} (h : Spells text c) : ofHex text = .ok c := by
  obtain ⟨length, digits, spelled⟩ := h
  rw [toList_toHex, ← map_plain_of_forall digits] at spelled
  obtain ⟨-, spelled⟩ := List.cons.inj spelled
  rw [ofHex_eq_ok_iff]
  generalize dropHash text.toList = ds at length digits spelled
  match ds, length with
  | [r₁, r₂, g₁, g₂, b₁, b₂], _ =>
    exact ⟨r₁, r₂, g₁, g₂, b₁, b₂, rfl, fun d hd => .inl (digits d (mem_six_iff.2 (.inl hd))),
      fun d hd => digits d (mem_six_iff.2 (.inr hd)), spelled⟩

theorem isHexDigit_hexDigit :
    ∀ n < 16, IsHexDigit (hexDigit n) ∧ (hexDigit n).toLower = hexDigit n := by decide

theorem of_mem_hexByte {b : UInt8} {d : Char} (h : d ∈ hexByte b) :
    IsHexDigit d ∧ d.toLower = d := by
  have hb := b.toNat_lt
  simp only [hexByte, List.mem_cons, List.not_mem_nil, or_false] at h
  rcases h with rfl | rfl
  · exact isHexDigit_hexDigit _ (by omega)
  · exact isHexDigit_hexDigit _ (Nat.mod_lt _ (by decide))

theorem of_mem_hexDigits {c : Color} {d : Char} (h : d ∈ c.hexDigits) :
    IsHexDigit d ∧ d.toLower = d := by
  rw [hexDigits, List.mem_append, List.mem_append] at h
  rcases h with (h | h) | h
  · exact of_mem_hexByte h
  · exact of_mem_hexByte h
  · exact of_mem_hexByte h

/-- A color is spelled by its own digits. -/
theorem spells_toHex (c : Color) : Spells c.toHex c := by
  have digits : dropHash c.toHex.toList = c.hexDigits := by
    rw [toList_toHex]
    rfl
  have lower : c.hexDigits.map Char.toLower = c.hexDigits :=
    (List.map_congr_left fun d hd => (of_mem_hexDigits hd).2).trans (List.map_id _)
  rw [Spells, digits, lower, toList_toHex]
  exact ⟨rfl, fun d hd => (of_mem_hexDigits hd).1, rfl⟩

theorem ofHex_toHex (c : Color) : ofHex c.toHex = .ok c := ofHex_of_spells (spells_toHex c)

/-- What is not read is refused as no color. -/
theorem exists_ofHex_eq (text : String) : (∃ c, ofHex text = .ok c) ∨
    ∃ fault, ofHex text = .error (.invalidColor fault) := by
  unfold ofHex
  simp only
  split
  · split
    · split
      · exact .inl ⟨_, rfl⟩
      · exact .inr ⟨_, rfl⟩
      · exact .inr ⟨_, rfl⟩
      · exact .inr ⟨_, rfl⟩
    · exact .inr ⟨_, rfl⟩
  · exact .inr ⟨_, rfl⟩

theorem mem_of_mem_dropHash {text : List Char} {c : Char} (h : c ∈ dropHash text) : c ∈ text := by
  unfold dropHash at h
  split at h
  · exact List.mem_cons_of_mem _ h
  · exact h

/-- Without a plus sign, a color is read from its digits alone. -/
theorem spells_of_ofHex {text : String} {c : Color} (h : ofHex text = .ok c)
    (plus : '+' ∉ text.toList) : Spells text c := by
  obtain ⟨r₁, r₂, g₁, g₂, b₁, b₂, hd, first, second, spelled⟩ := (ofHex_eq_ok_iff text c).1 h
  have digits : ∀ d ∈ dropHash text.toList, IsHexDigit d := by
    intro d hm
    have ne : d ≠ '+' := fun he => plus (he ▸ mem_of_mem_dropHash hm)
    rw [hd, mem_six_iff] at hm
    rcases hm with hm | hm
    · exact (first d hm).resolve_right ne
    · exact second d hm
  refine ⟨by rw [hd]; rfl, digits, ?_⟩
  rw [← map_plain_of_forall digits, hd, spelled, toList_toHex]

end Color

/-! ## Cutting with every place checked -/

namespace Checked

/-- The number of bytes that a text takes. -/
def byteLength (text : List Char) : Nat := (text.map Char.utf8Size).sum

/-- A text without its first bytes, which have to end with a character. -/
def dropBytes : (count : Nat) → List Char → Except Breakdown (List Char)
  | 0, text => .ok text
  | count + 1, [] => .error (.outOfRange (count + 1) 0)
  | count + 1, c :: rest =>
    if c.utf8Size ≤ count + 1 then dropBytes (count + 1 - c.utf8Size) rest
    else .error (.outOfRange (count + 1) c.utf8Size)

/-- The first bytes of a text, which have to end with a character. -/
def takeBytes : (count : Nat) → List Char → Except Breakdown (List Char)
  | 0, _ => .ok []
  | count + 1, [] => .error (.outOfRange (count + 1) 0)
  | count + 1, c :: rest =>
    if c.utf8Size ≤ count + 1 then (c :: ·) <$> takeBytes (count + 1 - c.utf8Size) rest
    else .error (.outOfRange (count + 1) c.utf8Size)

/-- A component of a color, read from the two bytes behind a place of a text. -/
def component (which : Component) (digits : List Char) (start : Nat) :
    Except Breakdown UInt8 := do
  match ← takeBytes 2 (← dropBytes start digits) with
  | [hi, lo] =>
    match Color.component? hi lo with
    | some value => return value
    | none => throw (.failure (.invalidColor (.badComponent which)))
  | _ => throw (.failure (.invalidColor (.badComponent which)))

/-- A color from a text of six bytes that are characters. -/
def ofHex (text : String) : Except Breakdown Color := do
  let digits := Color.dropHash text.toList
  if byteLength digits ≠ 6 ∨ ¬ digits.all (fun c => c.toNat < 128) then
    throw (.failure (.invalidColor (.wrongLength (String.ofList digits))))
  return ⟨← component .red digits 0, ← component .green digits 2, ← component .blue digits 4⟩

theorem utf8Size_eq_one {c : Char} (h : c.toNat < 128) : c.utf8Size = 1 :=
  Char.utf8Size_eq_one_iff.2 (UInt32.le_iff_toNat_le.2 (Nat.le_of_lt_succ h))

theorem byteLength_eq {text : List Char} (h : ∀ c ∈ text, c.toNat < 128) :
    byteLength text = text.length := by
  have sizes : text.map Char.utf8Size = text.map fun _ => 1 :=
    List.map_congr_left fun c hc => utf8Size_eq_one (h c hc)
  rw [byteLength, sizes]
  simp

theorem dropBytes_append {before : List Char} (h : ∀ c ∈ before, c.toNat < 128)
    (after : List Char) : dropBytes before.length (before ++ after) = .ok after := by
  induction before with
  | nil => simp [dropBytes]
  | cons c before ih =>
    obtain ⟨hc, hb⟩ := List.forall_mem_cons.1 h
    rw [List.length_cons, List.cons_append, dropBytes, utf8Size_eq_one hc, if_pos (by omega)]
    exact ih hb

theorem takeBytes_two {hi lo : Char} (h : hi.toNat < 128) (l : lo.toNat < 128)
    (after : List Char) : takeBytes 2 (hi :: lo :: after) = .ok [hi, lo] := by
  simp [takeBytes, utf8Size_eq_one h, utf8Size_eq_one l]

/-- Between characters of one byte, a component is cut out as its two characters. -/
theorem component_eq (which : Component) (before : List Char) {hi lo : Char} {after : List Char}
    (h : ∀ c ∈ before ++ hi :: lo :: after, c.toNat < 128) :
    component which (before ++ hi :: lo :: after) before.length =
      match Color.component? hi lo with
      | some value => .ok value
      | none => .error (.failure (.invalidColor (.badComponent which))) := by
  obtain ⟨hb, hrest⟩ := List.forall_mem_append.1 h
  obtain ⟨hhi, hrest⟩ := List.forall_mem_cons.1 hrest
  obtain ⟨hlo, -⟩ := List.forall_mem_cons.1 hrest
  rw [component, dropBytes_append hb]
  simp only [takeBytes_two hhi hlo, bind, Except.bind]
  cases Color.component? hi lo <;> rfl

/-- Six bytes that are characters are six characters. -/
theorem byteLength_eq_six_iff {digits : List Char} (h : ∀ c ∈ digits, c.toNat < 128) :
    byteLength digits = 6 ↔ ∃ r₁ r₂ g₁ g₂ b₁ b₂, digits = [r₁, r₂, g₁, g₂, b₁, b₂] := by
  rw [byteLength_eq h]
  constructor
  · intro length
    match digits, length with
    | [r₁, r₂, g₁, g₂, b₁, b₂], _ => exact ⟨r₁, r₂, g₁, g₂, b₁, b₂, rfl⟩
  · rintro ⟨r₁, r₂, g₁, g₂, b₁, b₂, rfl⟩
    rfl

/-- No component is cut within a character. -/
theorem ofHex_eq (text : String) : ofHex text = (Color.ofHex text).mapError .failure := by
  unfold ofHex Color.ofHex
  simp only
  generalize Color.dropHash text.toList = digits
  -- Bytes and characters are counted alike as soon as all characters are ASCII, and only then is
  -- anything cut.
  by_cases ascii : ∀ c ∈ digits, c.toNat < 128
  · have all : digits.all (fun c => decide (c.toNat < 128)) = true := by simpa using ascii
    by_cases length : byteLength digits = 6
    · have pass : ¬ (byteLength digits ≠ 6 ∨
          ¬ digits.all (fun c => decide (c.toNat < 128)) = true) := by simp [length, all]
      obtain ⟨r₁, r₂, g₁, g₂, b₁, b₂, rfl⟩ := (byteLength_eq_six_iff ascii).1 length
      have red : component .red [r₁, r₂, g₁, g₂, b₁, b₂] 0 = _ := component_eq .red [] ascii
      have green : component .green [r₁, r₂, g₁, g₂, b₁, b₂] 2 = _ :=
        component_eq .green [r₁, r₂] ascii
      have blue : component .blue [r₁, r₂, g₁, g₂, b₁, b₂] 4 = _ :=
        component_eq .blue [r₁, r₂, g₁, g₂] ascii
      rw [if_neg pass, red, green, blue]
      simp only [all, if_true]
      cases Color.component? r₁ r₂ <;> cases Color.component? g₁ g₂ <;>
        cases Color.component? b₁ b₂ <;> rfl
    · rw [if_pos (.inl length)]
      split
      · exact absurd ((byteLength_eq_six_iff ascii).2 ⟨_, _, _, _, _, _, rfl⟩) length
      · rfl
  · have some : ¬ digits.all (fun c => decide (c.toNat < 128)) = true := by simpa using ascii
    rw [if_pos (.inr some)]
    split
    · rw [if_neg some]
      rfl
    · rfl

end Checked

/-! ## The grammar -/

namespace Color

/-- A text is read as a color exactly if it consists of six characters, with at most one `#` in
    front, that are hexadecimal digits in either case, the first ones of the components possibly
    plus signs, and if these come to the digits of the color in lower case and with zeros for the
    plus signs. So the digits of a color are read as that color, and a text without plus sign is
    read only if it consists of such digits. Any other text is refused as no color, and no component
    is cut within a character. -/
theorem ofHex_grammar (text : String) :
    (∀ c, ofHex text = .ok c ↔ ∃ r₁ r₂ g₁ g₂ b₁ b₂,
      dropHash text.toList = [r₁, r₂, g₁, g₂, b₁, b₂] ∧
      (∀ d ∈ [r₁, g₁, b₁], IsHexDigit d ∨ d = '+') ∧ (∀ d ∈ [r₂, g₂, b₂], IsHexDigit d) ∧
      '#' :: [r₁, r₂, g₁, g₂, b₁, b₂].map plain = c.toHex.toList) ∧
    (∀ c, Spells text c → ofHex text = .ok c) ∧
    ('+' ∉ text.toList → ∀ c, ofHex text = .ok c → Spells text c) ∧
    (∀ c : Color, ofHex c.toHex = .ok c) ∧
    ((∃ c, ofHex text = .ok c) ∨ ∃ fault, ofHex text = .error (.invalidColor fault)) ∧
    Checked.ofHex text = (ofHex text).mapError .failure := by
  refine ⟨fun c => ?_, fun c => ofHex_of_spells, fun plus c h => spells_of_ofHex h plus,
    ofHex_toHex, exists_ofHex_eq text, Checked.ofHex_eq text⟩
  simp only [ofHex_eq_ok_iff, toList_toHex, List.cons.injEq, true_and]

/-- Digits in both cases behind a `#`, and plus signs for the leading zeros. -/
theorem ofHex_grammar_mixed :
    Spells "#C87d0A" ⟨200, 125, 10⟩ ∧ ofHex "#C87d0A" = .ok ⟨200, 125, 10⟩ ∧
    ofHex "+1+2+3" = .ok ⟨1, 2, 3⟩ ∧ ¬ Spells "+1+2+3" ⟨1, 2, 3⟩ := by
  have spelled : Spells "#C87d0A" ⟨200, 125, 10⟩ := by decide
  have read : ofHex "#C87d0A" = .ok ⟨200, 125, 10⟩ := (ofHex_grammar _).2.1 _ spelled
  have plus : '+' ∉ "#C87d0A".toList := by simp
  refine ⟨(ofHex_grammar _).2.2.1 plus _ read, read, ?_, by decide⟩
  exact ((ofHex_grammar _).1 _).2 ⟨'+', '1', '+', '2', '+', '3', rfl, by simp, by simp [IsHexDigit],
    rfl⟩

/-- Not every text that is read consists of hexadecimal digits. -/
theorem not_forall_ofHex_iff_spells :
    ¬ ∀ (text : String) (c : Color), ofHex text = .ok c ↔ Spells text c := by
  intro h
  have read : ofHex "+1+2+3" = .ok ⟨1, 2, 3⟩ := by decide
  exact absurd ((h "+1+2+3" ⟨1, 2, 3⟩).1 read) (by decide)

end Color

end Koi
