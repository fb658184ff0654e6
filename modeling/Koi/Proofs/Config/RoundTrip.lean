import Koi.Proofs.Config.Reading
import Koi.Proofs.Json.RoundTrip

/-!
# Written configurations are read back

A configuration is read back from the object that is written for it, and from a file with the text
of this object, exactly if its sizes are edges of images. Every configuration that comes from
reading is of this kind, so reading it once more changes nothing.

* `Config.ofContent_pretty`: what is read from a file with a written configuration.
* `Config.ofJson_toJson`: which configurations are read back.
-/

namespace Koi.Config

theorem printable_toJson (c : Config) : c.toJson.Printable := by
  have sizes (l : List UInt32) :
      Json.ItemsPrintable (l.map fun size => Json.ofNat size.toNat) := by
    induction l with
    | nil => trivial
    | cons size l ih => exact ⟨Json.Number.isWritten_unsigned _, ih⟩
  exact ⟨trivial, Json.Number.isWritten_unsigned _, Json.Number.isWritten_unsigned _,
    sizes c.warmSizes, Json.Number.isWritten_unsigned _, trivial⟩

theorem itemsDepth_map_ofNat (sizes : List UInt32) :
    Json.itemsDepth (sizes.map fun size => Json.ofNat size.toNat) = 0 := by
  induction sizes with
  | nil => rfl
  | cons size sizes ih =>
    rw [List.map_cons, Json.itemsDepth, ih]
    rfl

theorem depth_toJson_le (c : Config) : c.toJson.depth ≤ Json.maxDepth := by
  have plain (n : Nat) : (Json.ofNat n).depth = 0 := rfl
  simp only [toJson, Json.depth, Json.membersDepth, plain, itemsDepth_map_ofNat]
  decide

theorem fromUTF8?_toUTF8 (text : String) : String.fromUTF8? text.toUTF8 = some text := by
  rw [String.fromUTF8?, String.toUTF8_eq_toByteArray, dif_pos text.isValidUTF8]
  rfl

/-- The text of an object is the content of a configuration file. -/
theorem ofContent_of_parse (path : String) {text : String} {json : Json}
    (parsed : Json.parse text = some json) (object : json.isObject = true) :
    ofContent path text.toUTF8 = .ok (ofJson json) := by
  simp only [ofContent, fromUTF8?_toUTF8, parsed, object, if_true]

/-- What is read from a file with a written configuration is read from its object. -/
theorem ofContent_pretty (path : String) (c : Config) :
    ofContent path c.toJson.pretty.toUTF8 = .ok (ofJson c.toJson) :=
  ofContent_of_parse path (Json.parse_pretty c.printable_toJson c.depth_toJson_le) rfl

/-- A configuration is read back from the object that is written for it exactly if all its sizes lie
    between 1 and 4096, and from a file with this object likewise. So reading what has been read
    and written changes nothing, whatever it was read from. -/
theorem ofJson_toJson :
    (∀ c : Config, ofJson c.toJson = c ↔
      (1 ≤ c.defaultSize.toNat ∧ c.defaultSize.toNat ≤ 4096) ∧
      (1 ≤ c.thumbnailSize.toNat ∧ c.thumbnailSize.toNat ≤ 4096) ∧
      ∀ size ∈ c.warmSizes, 1 ≤ size.toNat ∧ size.toNat ≤ 4096) ∧
    (∀ (c : Config) (path : String),
      ofContent path c.toJson.pretty.toUTF8 = .ok (ofJson c.toJson)) ∧
    ∀ json, ofJson (ofJson json).toJson = ofJson json := by
  have read_back {c : Config} (valid : c.HasValidSizes) : ofJson c.toJson = c :=
    (isReadFrom_iff.1 (isReadFrom_toJson valid)).symm
  refine ⟨fun c => ⟨?_, ?_⟩, fun c path => ofContent_pretty path c, fun json => ?_⟩
  · intro same
    have valid := hasValidSizes_ofJson c.toJson
    rw [same] at valid
    exact ⟨valid.picture, valid.thumbnail, valid.warm⟩
  · rintro ⟨picture, thumbnail, warm⟩
    exact read_back ⟨picture, thumbnail, warm⟩
  · exact read_back (hasValidSizes_ofJson json)

/-- A configuration with the smallest size, some other one, and the largest number of workers. -/
def outermost (size : UInt32) : Config where
  assetDir := ""
  warmSizes := [size, 1, size]
  workerThreads := 0xFFFFFFFFFFFFFFFF
  defaultSize := 1
  thumbnailSize := size

/-- The largest size, and the number after it. -/
theorem ofJson_toJson_outermost :
    ofJson (outermost 4096).toJson = outermost 4096 ∧
      ofJson (outermost 4097).toJson ≠ outermost 4097 := by
  have warm : ValidSizes (outermost 4096).warmSizes := by decide
  refine ⟨(ofJson_toJson.1 (outermost 4096)).2 ⟨by decide, by decide, warm⟩, fun same => ?_⟩
  have thumbnail := ((ofJson_toJson.1 (outermost 4097)).1 same).2.1
  have too_large : (outermost 4097).thumbnailSize.toNat = 4097 := rfl
  omega

end Koi.Config
