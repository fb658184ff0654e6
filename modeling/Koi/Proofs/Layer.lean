import Koi.Proofs.Attributes.Text

/-!
# Which texts are names of layers

A name is read back from its written form, and from no other text: the number of a pattern is
checked so strictly that each name has one spelling. What is not such a spelling is an asset that
nobody knows.

* `LayerName.number?_eq_some_iff`: which digits are the number of a pattern.
* `LayerName.parse_eq_ok_iff`: reading is the inverse of writing.
* `LayerName.IsNumbered`: how patterns are spelled, character by character.
* `LayerName.parse_spelling`: which texts are read, and what becomes of all others.
* `LayerName.ofFileName?_eq_some_iff`: a layer has one file name.
-/

namespace Koi

theorem Region.name_of_ofName? {text : String} {region : Region}
    (h : Region.ofName? text = some region) : region.name = text := by
  simpa using List.find?_some h

namespace LayerName

open Decimal (IsNumeral)

/-! ## The numbers of patterns -/

/-- A number can be read if it is positive, and only from its own digits. -/
theorem number?_eq_some_iff (digits : List Char) (number : UInt8) :
    number? digits = some number ↔ number ≠ 0 ∧ digits = Nat.toDigits 10 number.toNat := by
  constructor
  · intro h
    unfold number? at h
    split at h
    · next hd =>
      obtain ⟨nonempty, zero, numeral, small⟩ := hd
      rw [Decimal.all_isDigit_iff] at numeral
      have hv : number.toNat = Decimal.value digits := by
        rw [← Option.some.inj h]
        exact Nat.mod_eq_of_lt small
      have positive := Decimal.value_pos numeral nonempty zero
      constructor
      · rintro rfl
        rw [← hv] at positive
        contradiction
      · rw [hv, Decimal.toDigits_value numeral nonempty zero]
    · cases h
  · rintro ⟨positive, rfl⟩
    exact number?_toDigits positive

/-! ## Reading a name -/

variable {text : String} {name : LayerName}

/-- A pattern is read from its own text only, and has a positive number. -/
theorem render_of_pattern? (h : pattern? text = some name) :
    name.render = text ∧ ∀ region, name ≠ .pattern region 0 := by
  unfold pattern? at h
  split at h
  · cases h
  · next c digits after =>
    obtain ⟨region, hr, h⟩ := Option.bind_eq_some_iff.1 h
    obtain ⟨number, hn, h⟩ := Option.bind_eq_some_iff.1 h
    obtain rfl := Option.some.inj h
    obtain ⟨positive, hd⟩ := (number?_eq_some_iff digits number).1 hn
    -- The text is cut at an underscore, so its three parts are those that are written.
    obtain rfl : c = '_' := by
      have hc := List.head?_dropWhile_not (· ≠ '_') text.toList
      rw [after] at hc
      simpa using hc
    have before := congrArg String.toList (Region.name_of_ofName? hr)
    rw [String.toList_ofList] at before
    constructor
    · apply String.toList_injective
      rw [toList_render_pattern, before, ← hd, ← after, List.takeWhile_append_dropWhile]
    · intro other h
      exact positive (LayerName.pattern.inj h).2

theorem render_of_parse? (h : parse? text = some name) :
    name.render = text ∧ ∀ region, name ≠ .pattern region 0 := by
  unfold parse? at h
  split at h
  · next ht =>
    obtain rfl := Option.some.inj h
    exact ⟨ht.symm, by simp⟩
  · split at h
    · next ht =>
      obtain rfl := Option.some.inj h
      exact ⟨ht.symm, by simp⟩
    · split at h
      · next ht =>
        obtain rfl := Option.some.inj h
        exact ⟨ht.symm, by simp⟩
      · exact render_of_pattern? h

/-- Reading is the inverse of writing, except that no text is read as a pattern with the number
    zero. -/
theorem parse_eq_ok_iff (text : String) (name : LayerName) :
    parse text = .ok name ↔ text = name.render ∧ ∀ region, name ≠ .pattern region 0 := by
  constructor
  · intro h
    have parsed : parse? text = some name := by
      unfold parse at h
      split at h
      · next other ho => rw [ho, Except.ok.inj h]
      · cases h
    obtain ⟨hr, positive⟩ := render_of_parse? parsed
    exact ⟨hr.symm, positive⟩
  · rintro ⟨rfl, h⟩
    exact parse_render h

/-! ## Spellings -/

/-- The spelling of a pattern: a region, an underscore, and a decimal numeral without sign and
    leading zero that denotes a number from 1 to 255. -/
def IsNumbered (text : String) : Prop :=
  ∃ word ∈ ["body", "head", "fin"], ∃ digits : List Char,
    text = word ++ "_" ++ String.ofList digits ∧ digits ≠ [] ∧
    (∀ c ∈ digits, '0' ≤ c ∧ c ≤ '9') ∧ digits.head? ≠ some '0' ∧ Decimal.value digits ≤ 255

theorem isNumbered_iff (text : String) : IsNumbered text ↔
    ∃ region number, number ≠ 0 ∧ text = (pattern region number).render := by
  constructor
  · rintro ⟨word, hw, digits, rfl, nonempty, numeral, zero, small⟩
    obtain ⟨region, rfl⟩ : ∃ region : Region, region.name = word := by
      simp only [List.mem_cons, List.not_mem_nil, or_false] at hw
      rcases hw with rfl | rfl | rfl
      exacts [⟨.body, rfl⟩, ⟨.head, rfl⟩, ⟨.fin, rfl⟩]
    have hv : (Decimal.value digits).toUInt8.toNat = Decimal.value digits :=
      Nat.mod_eq_of_lt (by omega)
    refine ⟨region, (Decimal.value digits).toUInt8, ?_, ?_⟩
    · intro h
      have positive := Decimal.value_pos numeral nonempty zero
      rw [← hv, h] at positive
      contradiction
    · apply String.toList_injective
      rw [toList_render_pattern, hv, Decimal.toDigits_value numeral nonempty zero]
      simp
  · rintro ⟨region, number, positive, rfl⟩
    have hpos : 0 < number.toNat := Nat.pos_of_ne_zero fun h => positive (UInt8.toNat_inj.1 h)
    have hlt := number.toNat_lt
    refine ⟨region.name, by cases region <;> decide, Nat.toDigits 10 number.toNat, rfl,
      Nat.toDigits_ne_nil, Decimal.isNumeral_toDigits _, Decimal.head?_toDigits_ne hpos, ?_⟩
    rw [Decimal.value_toDigits]
    omega

/-- A text is read as a name exactly if the name is written so and is no pattern with the number
    zero; any other text is an unknown asset and is named in the failure. So no two texts are read
    as one name. The texts that are read are the three plain names and the spellings of patterns. -/
theorem parse_spelling (text : String) :
    (∀ name, parse text = .ok name ↔ text = name.render ∧ ∀ region, name ≠ .pattern region 0) ∧
    ((∃ name, parse text = .ok name) ∨ parse text = .error (.unknownAsset text)) ∧
    (∀ other name, parse text = .ok name → parse other = .ok name → other = text) ∧
    ((∃ name, parse text = .ok name) ↔
      text = "body" ∨ text = "fin" ∨ text = "outline" ∨ IsNumbered text) := by
  refine ⟨parse_eq_ok_iff text, ?_, ?_, ?_⟩
  · unfold parse
    split
    · next name _ => exact .inl ⟨name, rfl⟩
    · exact .inr rfl
  · intro other name h ho
    rw [((parse_eq_ok_iff text name).1 h).1, ((parse_eq_ok_iff other name).1 ho).1]
  · simp only [parse_eq_ok_iff, isNumbered_iff]
    constructor
    · rintro ⟨name, rfl, positive⟩
      cases name with
      | body => exact .inl rfl
      | fin => exact .inr (.inl rfl)
      | outline => exact .inr (.inr (.inl rfl))
      | pattern region number =>
        refine .inr (.inr (.inr ⟨region, number, ?_, rfl⟩))
        rintro rfl
        exact positive region rfl
    · rintro (rfl | rfl | rfl | ⟨region, number, positive, rfl⟩)
      · exact ⟨.body, rfl, by simp⟩
      · exact ⟨.fin, rfl, by simp⟩
      · exact ⟨.outline, rfl, by simp⟩
      · exact ⟨.pattern region number, rfl, by simp [positive]⟩

/-- The largest number, the number after it, a leading zero and a sign. -/
theorem parse_spelling_bounds :
    parse "fin_255" = .ok (.pattern .fin 255) ∧
    (∀ other, parse other = .ok (.pattern .fin 255) → other = "fin_255") ∧
    ∀ text ∈ ["fin_256", "body_01", "head_+1"], parse text = .error (.unknownAsset text) := by
  have largest : parse "fin_255" = .ok (.pattern .fin 255) :=
    ((parse_spelling "fin_255").1 _).2 ⟨by decide, by simp⟩
  refine ⟨largest, fun other => (parse_spelling "fin_255").2.2.1 other _ largest, ?_⟩
  intro text ht
  have refused : ∀ text ∈ ["fin_256", "body_01", "head_+1"], parse? text = none := by decide
  refine (parse_spelling text).2.1.resolve_left ?_
  rintro ⟨name, h⟩
  rw [parse, refused text ht] at h
  cases h

/-! ## Files -/

theorem parse?_eq_some_iff (text : String) (name : LayerName) :
    parse? text = some name ↔ text = name.render ∧ name.IsReadable := by
  rw [IsReadable, ← parse_eq_ok_iff, parse]
  cases parse? text <;> simp

theorem toList_fileName (name : LayerName) :
    name.fileName.toList = name.render.toList ++ fileEnding.toList := by
  rw [fileName, String.toList_append]

/-- A file holds the mask of a layer only under the name that is written for this layer. -/
theorem ofFileName?_eq_some_iff (file : String) (name : LayerName) :
    ofFileName? file = some name ↔ file = name.fileName ∧ name.IsReadable := by
  unfold ofFileName?
  constructor
  · intro h
    split at h
    · next ending =>
      obtain ⟨stem, readable⟩ := (parse?_eq_some_iff _ _).1 h
      refine ⟨String.toList_injective ?_, readable⟩
      rw [toList_fileName, ← stem, ← ending, String.toList_ofList, List.take_append_drop]
    · cases h
  · rintro ⟨rfl, readable⟩
    have length : name.fileName.length - fileEnding.length = name.render.toList.length := by
      rw [← String.length_toList, toList_fileName, List.length_append, String.length_toList,
        String.length_toList, Nat.add_sub_cancel]
    rw [length, toList_fileName, List.take_left, List.drop_left, if_pos rfl, String.ofList_toList]
    exact (parse?_eq_some_iff _ _).2 ⟨rfl, readable⟩

theorem fileName_injective {name other : LayerName} (readable : name.IsReadable)
    (other_readable : other.IsReadable) (h : name.fileName = other.fileName) : name = other := by
  have first := (ofFileName?_eq_some_iff _ _).2 ⟨rfl, readable⟩
  have second := (ofFileName?_eq_some_iff _ _).2 ⟨rfl, other_readable⟩
  rw [h, second] at first
  exact (Option.some.inj first).symm

end LayerName

end Koi
