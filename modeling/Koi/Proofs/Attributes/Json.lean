import Koi.Attributes.Json
import Koi.Proofs.Attributes.Text
import Koi.Proofs.Color.Hex
import Koi.Proofs.Generation.Emission
import Koi.Proofs.Json.Printer

/-!
# Attributes that were written are read back

An object is read member by member, each field once. So the order of its members does not matter,
and neither do members with other keys.

* `Json.Arranges`: an object that holds given fields among other members.
* `Json.Reading.of_foldlM_ok`, `Json.Reading.of_foldlM_error`: what a reader of fields ends with is
  what it makes of the value of each field, and it fails only where the value of a field does.
* `Attributes.ofJson_of_isWrittenAs`: attributes are read back, or the name of a pattern is refused.
-/

namespace Koi.Json

/-! ## Arrangements of fields -/

/-- The members of an object are the given fields in any order, among members with other keys. -/
def Arranges (fields members : List (String × Json)) : Prop :=
  ∃ others, members.Perm (fields ++ others) ∧ ∀ m ∈ others, m.1 ∉ fields.map Prod.fst

/-- The values of all members with a key. -/
def valuesOf (key : String) (members : List (String × Json)) : List Json :=
  (members.filter (·.1 = key)).map Prod.snd

theorem valuesOf_append (key : String) (before after : List (String × Json)) :
    valuesOf key (before ++ after) = valuesOf key before ++ valuesOf key after := by
  simp [valuesOf]

theorem valuesOf_cons (key : String) (value : Json) (members : List (String × Json)) :
    valuesOf key ((key, value) :: members) = value :: valuesOf key members := by
  simp [valuesOf]

theorem valuesOf_cons_ne {key : String} {m : String × Json} (h : m.1 ≠ key)
    (members : List (String × Json)) : valuesOf key (m :: members) = valuesOf key members := by
  simp [valuesOf, h]

theorem valuesOf_eq_nil {key : String} {members : List (String × Json)}
    (h : ∀ m ∈ members, m.1 ≠ key) : valuesOf key members = [] := by
  simp only [valuesOf, List.map_eq_nil_iff, List.filter_eq_nil_iff, decide_eq_true_eq]
  exact h

theorem Arranges.of_perm {fields members : List (String × Json)} (h : members.Perm fields) :
    Arranges fields members :=
  ⟨[], by simpa using h, by simp⟩

namespace Arranges

variable {fields members : List (String × Json)}

/-- Each field has its value, and no other one. -/
theorem valuesOf_eq (h : Arranges fields members) (distinct : (fields.map Prod.fst).Nodup)
    {key : String} {value : Json} (hm : (key, value) ∈ fields) :
    valuesOf key members = [value] := by
  obtain ⟨others, perm, other⟩ := h
  obtain ⟨before, after, rfl⟩ := List.append_of_mem hm
  have hb : valuesOf key before = [] := by
    refine valuesOf_eq_nil fun m hb heq => ?_
    simp only [List.map_append, List.map_cons] at distinct
    exact List.disjoint_of_nodup_append distinct (List.mem_map_of_mem hb) (by simp [heq])
  have ha : valuesOf key after = [] := by
    refine valuesOf_eq_nil fun m ha heq => ?_
    simp only [List.map_append, List.map_cons] at distinct
    exact (List.nodup_cons.1 distinct.of_append_right).1 (heq ▸ List.mem_map_of_mem ha)
  have ho : valuesOf key others = [] := by
    refine valuesOf_eq_nil fun m ho heq => other m ho ?_
    simp [heq]
  have same : (valuesOf key members).Perm
      (valuesOf key (before ++ (key, value) :: after ++ others)) := (perm.filter _).map _
  rw [valuesOf_append, valuesOf_append, valuesOf_cons, hb, ha, ho] at same
  exact List.perm_singleton.1 same

end Arranges

/-! ## Reading fields -/

namespace Reading

section Fields

variable {σ α : Type} {step : σ → String × Json → Except Problem σ} {slot : σ → Option α}
  {field : String} {read : Reading → Except Problem α}

/-- What a member does to a field: its value is set once, and other members leave it alone. -/
def Takes (field : String) (read : Reading → Except Problem α) (m : String × Json)
    (old new : Option α) : Prop :=
  if m.1 = field then setOnce old (read m.2.reading) = .ok new else new = old

theorem map_eq_ok {α β ε : Type} {f : α → β} {x : Except ε α} {b : β} (h : x.map f = .ok b) :
    ∃ a, x = .ok a ∧ f a = b := by
  cases x with
  | error e => cases h
  | ok a => exact ⟨a, rfl, Except.ok.inj h⟩

theorem map_eq_error {α β ε : Type} {f : α → β} {x : Except ε α} {e : ε}
    (h : x.map f = .error e) : x = .error e := by
  cases x with
  | error e' => exact congrArg _ (Except.error.inj h)
  | ok a => cases h

theorem foldlM_cons_eq_ok {β ε : Type} {step : σ → β → Except ε σ} {b : β} {l : List β} {f g : σ}
    (h : (b :: l).foldlM step f = .ok g) : ∃ f', step f b = .ok f' ∧ l.foldlM step f' = .ok g := by
  rw [List.foldlM_cons] at h
  cases hs : step f b with
  | error e =>
    rw [hs] at h
    cases h
  | ok f' =>
    rw [hs] at h
    exact ⟨f', rfl, h⟩

/-- A fold fails at one of the elements, after the elements before it. -/
theorem exists_of_foldlM_error {β ε : Type} {step : σ → β → Except ε σ} {l : List β} {f : σ} {e : ε}
    (h : l.foldlM step f = .error e) : ∃ before b after g, l = before ++ b :: after ∧
      before.foldlM step f = .ok g ∧ step g b = .error e := by
  induction l generalizing f with
  | nil => cases h
  | cons b l ih =>
    rw [List.foldlM_cons] at h
    cases hs : step f b with
    | error e' =>
      rw [hs] at h
      obtain rfl := Except.error.inj h
      exact ⟨[], b, l, f, rfl, rfl, hs⟩
    | ok f' =>
      rw [hs] at h
      obtain ⟨before, b', after, g, rfl, ran, fails⟩ := ih h
      refine ⟨b :: before, b', after, g, rfl, ?_, fails⟩
      rw [List.foldlM_cons, hs]
      exact ran

/-- A field is set by the values of its members, one after another. -/
theorem foldlM_valuesOf (takes : ∀ {f m g}, step f m = .ok g → Takes field read m (slot f) (slot g))
    {members : List (String × Json)} {f g : σ} (h : members.foldlM step f = .ok g) :
    (valuesOf field members).foldlM (fun old v => setOnce old (read v.reading)) (slot f) =
      .ok (slot g) := by
  induction members generalizing f with
  | nil =>
    obtain rfl := Except.ok.inj h
    rfl
  | cons m members ih =>
    obtain ⟨f', hs, hr⟩ := foldlM_cons_eq_ok h
    have set := takes hs
    obtain ⟨key, value⟩ := m
    by_cases hk : key = field
    · subst hk
      rw [Takes, if_pos rfl] at set
      rw [valuesOf_cons, List.foldlM_cons, set]
      exact ih hr
    · rw [Takes, if_neg hk] at set
      rw [valuesOf_cons_ne hk, ← set]
      exact ih hr

theorem setOnce_eq_ok {old new : Option α} {x : Except Problem α} (h : setOnce old x = .ok new) :
    old = none ∧ ∃ a, x = .ok a ∧ new = some a := by
  unfold setOnce at h
  split at h
  · cases h
  · next hn =>
    obtain ⟨a, hx, ha⟩ := map_eq_ok h
    exact ⟨by simpa using hn, a, hx, ha.symm⟩

/-- A field with one value ends with what is read of this value. -/
theorem of_foldlM_ok (takes : ∀ {f m g}, step f m = .ok g → Takes field read m (slot f) (slot g))
    {members : List (String × Json)} {value : Json} (once : valuesOf field members = [value])
    {f g : σ} (h : members.foldlM step f = .ok g) :
    ∃ a, read value.reading = .ok a ∧ slot g = some a := by
  have set := foldlM_valuesOf takes h
  rw [once] at set
  obtain ⟨new, hs, hr⟩ := foldlM_cons_eq_ok set
  obtain rfl := Except.ok.inj hr
  exact (setOnce_eq_ok hs).2

/-- A field with one value is not set twice, so that it fails only where this value does. -/
theorem of_foldlM_error
    (takes : ∀ {f m g}, step f m = .ok g → Takes field read m (slot f) (slot g))
    {before after : List (String × Json)} {v value : Json}
    (once : valuesOf field (before ++ (field, v) :: after) = [value]) {f g : σ} {e : Problem}
    (empty : slot f = none) (ran : before.foldlM step f = .ok g)
    (h : setOnce (slot g) (read v.reading) = .error e) : read value.reading = .error e := by
  rw [valuesOf_append, valuesOf_cons] at once
  have hb : valuesOf field before = [] := by
    rcases hv : valuesOf field before with _ | ⟨w, ws⟩
    · rfl
    · simp [hv] at once
  have set := foldlM_valuesOf takes ran
  rw [hb, empty] at set
  have free : slot g = none := (Except.ok.inj set).symm
  rw [hb, List.nil_append] at once
  obtain ⟨rfl, -⟩ := List.cons.inj once
  rw [free] at h
  exact map_eq_error h

end Fields

/-! ## Reading a layer -/

theorem skip_reading {σ : Type} (f : σ) (value : Json) : skip f value.reading = .ok f := by
  rw [skip, intact_reading]
  rfl

/-- What a member does to the fields of a layer. -/
structure LayerFields.Taken (m : String × Json) (f g : LayerFields) : Prop where
  name : Takes "name" asLayerName m f.name g.name
  color : Takes "color" asColor m f.color g.color

theorem LayerFields.taken {f g : LayerFields} {m : String × Json}
    (h : f.add (some m.1, m.2.reading) = .ok g) : Taken m f g := by
  obtain ⟨key, value⟩ := m
  unfold add at h
  dsimp only at h
  split at h
  case h_3 =>
    rw [skip_reading] at h
    obtain rfl := Except.ok.inj h
    constructor <;> simp_all [Takes]
  all_goals
    obtain ⟨new, set, rfl⟩ := map_eq_ok h
    constructor <;> simp [Takes, set]

theorem LayerFields.fails {f : LayerFields} {key : String} {value : Json} {e : Problem}
    (h : f.add (some key, value.reading) = .error e) :
    key = "name" ∧ setOnce f.name value.reading.asLayerName = .error e ∨
      key = "color" ∧ setOnce f.color value.reading.asColor = .error e := by
  unfold add at h
  dsimp only at h
  split at h
  case h_3 =>
    rw [skip_reading] at h
    cases h
  all_goals simp [map_eq_error h]

/-- An object with one value for each field of a layer is read as its two values are. -/
theorem asLayer_object {members : List (String × Json)} {name color : Json}
    (hn : valuesOf "name" members = [name]) (hc : valuesOf "color" members = [color]) :
    (∃ layer, (Json.object members).reading.asLayer = .ok layer ∧
      name.reading.asLayerName = .ok layer.name ∧ color.reading.asColor = .ok layer.color) ∨
    ∃ e, (Json.object members).reading.asLayer = .error e ∧
      (name.reading.asLayerName = .error e ∨ color.reading.asColor = .error e) := by
  rw [reading, asLayer, memberReadings_eq_map, List.foldlM_map]
  cases hf : members.foldlM (fun f m => LayerFields.add f (some m.1, m.2.reading)) {} with
  | error e =>
    -- The member at fault is that of a field, and as each field occurs once, its value is at fault.
    obtain ⟨before, ⟨key, value⟩, after, g, rfl, ran, fails⟩ := exists_of_foldlM_error hf
    refine .inr ⟨e, rfl, ?_⟩
    obtain ⟨rfl, fails⟩ | ⟨rfl, fails⟩ := LayerFields.fails fails
    · exact .inl (of_foldlM_error (fun h => (LayerFields.taken h).name) hn rfl ran fails)
    · exact .inr (of_foldlM_error (fun h => (LayerFields.taken h).color) hc rfl ran fails)
  | ok g =>
    obtain ⟨n, read_n, set_n⟩ := of_foldlM_ok (fun h => (LayerFields.taken h).name) hn hf
    obtain ⟨c, read_c, set_c⟩ := of_foldlM_ok (fun h => (LayerFields.taken h).color) hc hf
    refine .inl ⟨⟨n, c⟩, ?_, read_n, read_c⟩
    show g.finish = _
    rw [LayerFields.finish, set_n, set_c]
    rfl

/-! ## Reading attributes -/

/-- What a member does to the fields of attributes. -/
structure AttributesFields.Taken (m : String × Json) (f g : AttributesFields) : Prop where
  variety : Takes "variant" asVariety m f.variety g.variety
  bodyLayers : Takes "body_layers" (asList asLayer) m f.bodyLayers g.bodyLayers
  headLayers : Takes "head_layers" (asList asLayer) m f.headLayers g.headLayers
  finLayers : Takes "fin_layers" (asList asLayer) m f.finLayers g.finLayers
  bodyColor : Takes "body_color" asColor m f.bodyColor g.bodyColor
  finColor : Takes "fin_color" asColor m f.finColor g.finColor
  primaryColor : Takes "primary_color" asColor m f.primaryColor g.primaryColor

theorem AttributesFields.taken {f g : AttributesFields} {m : String × Json}
    (h : f.add (some m.1, m.2.reading) = .ok g) : Taken m f g := by
  obtain ⟨key, value⟩ := m
  unfold add at h
  dsimp only at h
  split at h
  case h_8 =>
    rw [skip_reading] at h
    obtain rfl := Except.ok.inj h
    constructor <;> simp_all [Takes]
  all_goals
    obtain ⟨new, set, rfl⟩ := map_eq_ok h
    constructor <;> simp [Takes, set]

theorem AttributesFields.fails {f : AttributesFields} {key : String} {value : Json} {e : Problem}
    (h : f.add (some key, value.reading) = .error e) :
    key = "variant" ∧ setOnce f.variety value.reading.asVariety = .error e ∨
      key = "body_layers" ∧ setOnce f.bodyLayers (value.reading.asList asLayer) = .error e ∨
      key = "head_layers" ∧ setOnce f.headLayers (value.reading.asList asLayer) = .error e ∨
      key = "fin_layers" ∧ setOnce f.finLayers (value.reading.asList asLayer) = .error e ∨
      key = "body_color" ∧ setOnce f.bodyColor value.reading.asColor = .error e ∨
      key = "fin_color" ∧ setOnce f.finColor value.reading.asColor = .error e ∨
      key = "primary_color" ∧ setOnce f.primaryColor value.reading.asColor = .error e := by
  unfold add at h
  dsimp only at h
  split at h
  case h_8 =>
    rw [skip_reading] at h
    cases h
  all_goals simp [map_eq_error h]

/-- One value for each of the seven fields. -/
structure FieldValues where
  variety : Json
  bodyLayers : Json
  headLayers : Json
  finLayers : Json
  bodyColor : Json
  finColor : Json
  primaryColor : Json

/-- Each field occurs once among the members of an object, with the given value. -/
structure FieldValues.AreIn (v : FieldValues) (members : List (String × Json)) : Prop where
  variety : valuesOf "variant" members = [v.variety]
  bodyLayers : valuesOf "body_layers" members = [v.bodyLayers]
  headLayers : valuesOf "head_layers" members = [v.headLayers]
  finLayers : valuesOf "fin_layers" members = [v.finLayers]
  bodyColor : valuesOf "body_color" members = [v.bodyColor]
  finColor : valuesOf "fin_color" members = [v.finColor]
  primaryColor : valuesOf "primary_color" members = [v.primaryColor]

/-- Attributes hold what is read of the values. -/
structure FieldValues.AreReadAs (v : FieldValues) (a : Attributes) : Prop where
  variety : v.variety.reading.asVariety = .ok a.variety
  bodyLayers : v.bodyLayers.reading.asList asLayer = .ok a.bodyLayers
  headLayers : v.headLayers.reading.asList asLayer = .ok a.headLayers
  finLayers : v.finLayers.reading.asList asLayer = .ok a.finLayers
  bodyColor : v.bodyColor.reading.asColor = .ok a.bodyColor
  finColor : v.finColor.reading.asColor = .ok a.finColor
  primaryColor : v.primaryColor.reading.asColor = .ok a.primaryColor

/-- One of the values is refused. -/
def FieldValues.Refuse (v : FieldValues) (e : Problem) : Prop :=
  v.variety.reading.asVariety = .error e ∨
    (∃ layers ∈ [v.bodyLayers, v.headLayers, v.finLayers],
      layers.reading.asList asLayer = .error e) ∨
    ∃ color ∈ [v.bodyColor, v.finColor, v.primaryColor], color.reading.asColor = .error e

/-- An object with one value for each field is read as its seven values are. -/
theorem ofReading_object {members : List (String × Json)} {v : FieldValues} (h : v.AreIn members) :
    (∃ a, Attributes.ofReading (Json.object members).reading = .ok a ∧ v.AreReadAs a) ∨
      ∃ e, Attributes.ofReading (Json.object members).reading = .error e ∧ v.Refuse e := by
  rw [reading, Attributes.ofReading, memberReadings_eq_map, List.foldlM_map]
  cases hf : members.foldlM (fun f m => AttributesFields.add f (some m.1, m.2.reading)) {} with
  | error e =>
    obtain ⟨before, ⟨key, value⟩, after, g, rfl, ran, fails⟩ := exists_of_foldlM_error hf
    refine .inr ⟨e, rfl, ?_⟩
    have layers {j : Json} (hj : j ∈ [v.bodyLayers, v.headLayers, v.finLayers])
        (refused : j.reading.asList asLayer = .error e) : v.Refuse e := .inr (.inl ⟨j, hj, refused⟩)
    have color {j : Json} (hj : j ∈ [v.bodyColor, v.finColor, v.primaryColor])
        (refused : j.reading.asColor = .error e) : v.Refuse e := .inr (.inr ⟨j, hj, refused⟩)
    obtain ⟨rfl, fails⟩ | ⟨rfl, fails⟩ | ⟨rfl, fails⟩ | ⟨rfl, fails⟩ | ⟨rfl, fails⟩ | ⟨rfl, fails⟩ |
      ⟨rfl, fails⟩ := AttributesFields.fails fails
    · exact .inl (of_foldlM_error (fun h => (AttributesFields.taken h).variety) h.variety
        rfl ran fails)
    · exact layers (by simp) (of_foldlM_error (fun h => (AttributesFields.taken h).bodyLayers)
        h.bodyLayers rfl ran fails)
    · exact layers (by simp) (of_foldlM_error (fun h => (AttributesFields.taken h).headLayers)
        h.headLayers rfl ran fails)
    · exact layers (by simp) (of_foldlM_error (fun h => (AttributesFields.taken h).finLayers)
        h.finLayers rfl ran fails)
    · exact color (by simp) (of_foldlM_error (fun h => (AttributesFields.taken h).bodyColor)
        h.bodyColor rfl ran fails)
    · exact color (by simp) (of_foldlM_error (fun h => (AttributesFields.taken h).finColor)
        h.finColor rfl ran fails)
    · exact color (by simp) (of_foldlM_error (fun h => (AttributesFields.taken h).primaryColor)
        h.primaryColor rfl ran fails)
  | ok g =>
    obtain ⟨variety, read₁, set₁⟩ :=
      of_foldlM_ok (fun h => (AttributesFields.taken h).variety) h.variety hf
    obtain ⟨body, read₂, set₂⟩ :=
      of_foldlM_ok (fun h => (AttributesFields.taken h).bodyLayers) h.bodyLayers hf
    obtain ⟨head, read₃, set₃⟩ :=
      of_foldlM_ok (fun h => (AttributesFields.taken h).headLayers) h.headLayers hf
    obtain ⟨fin, read₄, set₄⟩ :=
      of_foldlM_ok (fun h => (AttributesFields.taken h).finLayers) h.finLayers hf
    obtain ⟨bodyColor, read₅, set₅⟩ :=
      of_foldlM_ok (fun h => (AttributesFields.taken h).bodyColor) h.bodyColor hf
    obtain ⟨finColor, read₆, set₆⟩ :=
      of_foldlM_ok (fun h => (AttributesFields.taken h).finColor) h.finColor hf
    obtain ⟨primaryColor, read₇, set₇⟩ :=
      of_foldlM_ok (fun h => (AttributesFields.taken h).primaryColor) h.primaryColor hf
    refine .inl ⟨⟨variety, body, head, fin, bodyColor, finColor, primaryColor⟩, ?_,
      ⟨read₁, read₂, read₃, read₄, read₅, read₆, read₇⟩⟩
    show g.finish = _
    rw [AttributesFields.finish, set₁, set₂, set₃, set₄, set₅, set₆, set₇]
    rfl

/-! ## Written texts -/

theorem asColor_toJson (c : Color) : c.toJson.reading.asColor = .ok c := by
  show (Color.ofHex c.toHex).mapError Problem.content = _
  rw [Color.ofHex_toHex]
  rfl

theorem asVariety_toJson (variety : Variety) : variety.toJson.reading.asVariety = .ok variety := by
  rw [Variety.toJson, reading, asVariety, Variety.ofName?_name]

end Reading

end Koi.Json

namespace Koi

open Json (Reading Arranges Denotes)

theorem LayerName.asLayerName_toJson {name : LayerName} (h : name.IsReadable) :
    name.toJson.reading.asLayerName = .ok name := by
  show (parse name.render).mapError Json.Problem.content = _
  rw [parse_render h]
  rfl

theorem LayerName.asLayerName_toJson_of_not {name : LayerName} (h : ¬ name.IsReadable) :
    name.toJson.reading.asLayerName = .error (.content (.unknownAsset name.render)) := by
  obtain ⟨region, rfl⟩ : ∃ region, name = .pattern region 0 := by
    simpa [IsReadable] using h
  show (parse (pattern region 0).render).mapError Json.Problem.content = _
  rw [parse_render_zero]
  rfl

/-! ## Written layers -/

namespace Layer

/-- The object that is written for a layer, its members in any order among any others. -/
inductive IsWrittenAs (layer : Layer) : Json → Prop
  | object {members : List (String × Json)}
      (fields : Arranges [("color", layer.color.toJson), ("name", layer.name.toJson)] members) :
      IsWrittenAs layer (.object members)

/-- Why a list of layers is refused: the name of one of them is that of no asset. -/
def Refuse (layers : List Layer) (e : Json.Problem) : Prop :=
  ∃ layer ∈ layers, ¬ layer.name.IsReadable ∧ e = .content (.unknownAsset layer.name.render)

theorem asLayer_of_isWrittenAs {layer : Layer} {j : Json} (h : layer.IsWrittenAs j) :
    layer.name.IsReadable ∧ j.reading.asLayer = .ok layer ∨
      ¬ layer.name.IsReadable ∧
        j.reading.asLayer = .error (.content (.unknownAsset layer.name.render)) := by
  obtain ⟨fields⟩ := h
  have color := Reading.asColor_toJson layer.color
  have name_value : Json.valuesOf "name" _ = [layer.name.toJson] :=
    fields.valuesOf_eq (by simp) (by simp)
  have color_value : Json.valuesOf "color" _ = [layer.color.toJson] :=
    fields.valuesOf_eq (by simp) (by simp)
  obtain ⟨read, hr, hn, hc⟩ | ⟨e, hr, hn | hc⟩ := Reading.asLayer_object name_value color_value
  · by_cases readable : layer.name.IsReadable
    · have same : read = layer := by
        rw [LayerName.asLayerName_toJson readable] at hn
        rw [color] at hc
        cases read
        cases layer
        simp_all
      exact .inl ⟨readable, same ▸ hr⟩
    · cases (LayerName.asLayerName_toJson_of_not readable).symm.trans hn
  · by_cases readable : layer.name.IsReadable
    · cases (LayerName.asLayerName_toJson readable).symm.trans hn
    · obtain rfl := Except.error.inj ((LayerName.asLayerName_toJson_of_not readable).symm.trans hn)
      exact .inr ⟨readable, hr⟩
  · cases color.symm.trans hc

/-- A list of written layers is read back, or one of the layers is refused. -/
theorem asList_of_isWrittenAs {layers : List Layer} {items : List Json}
    (h : List.Forall₂ IsWrittenAs layers items) :
    (∀ layer ∈ layers, layer.name.IsReadable) ∧
        (Json.array items).reading.asList Reading.asLayer = .ok layers ∨
      ∃ e, Refuse layers e ∧ (Json.array items).reading.asList Reading.asLayer = .error e := by
  rw [Json.reading, Reading.asList, Json.itemReadings_eq_map]
  induction h with
  | nil => exact .inl ⟨by simp, rfl⟩
  | @cons layer item layers items hw hws ih =>
    rw [List.map_cons, List.mapM_cons]
    obtain ⟨hr, first⟩ | ⟨hr, first⟩ := asLayer_of_isWrittenAs hw
    · rw [first]
      obtain ⟨rest, all⟩ | ⟨e, ⟨other, hm, refused⟩, fails⟩ := ih
      · rw [all]
        exact .inl ⟨List.forall_mem_cons.2 ⟨hr, rest⟩, rfl⟩
      · rw [fails]
        exact .inr ⟨e, ⟨other, List.mem_cons_of_mem _ hm, refused⟩, rfl⟩
    · rw [first]
      exact .inr ⟨_, ⟨layer, List.mem_cons_self, hr, rfl⟩, rfl⟩

theorem eq_of_asList_eq_ok {layers read : List Layer} {items : List Json}
    (h : List.Forall₂ IsWrittenAs layers items)
    (ok : (Json.array items).reading.asList Reading.asLayer = .ok read) :
    read = layers ∧ ∀ layer ∈ layers, layer.name.IsReadable := by
  obtain ⟨readable, same⟩ | ⟨e, -, error⟩ := asList_of_isWrittenAs h
  · exact ⟨(Except.ok.inj (same.symm.trans ok)).symm, readable⟩
  · cases error.symm.trans ok

theorem refuse_of_asList_eq_error {layers : List Layer} {items : List Json} {e : Json.Problem}
    (h : List.Forall₂ IsWrittenAs layers items)
    (error : (Json.array items).reading.asList Reading.asLayer = .error e) : Refuse layers e := by
  obtain ⟨-, ok⟩ | ⟨e', refused, same⟩ := asList_of_isWrittenAs h
  · cases ok.symm.trans error
  · exact Except.error.inj (same.symm.trans error) ▸ refused

theorem Refuse.mono {layers all : List Layer} {e : Json.Problem} (h : Refuse layers e)
    (sub : layers ⊆ all) : Refuse all e := by
  obtain ⟨layer, hm, refused⟩ := h
  exact ⟨layer, sub hm, refused⟩

theorem isWrittenAs_toJson (layer : Layer) : layer.IsWrittenAs layer.toJson :=
  .object (.of_perm (.refl _))

end Layer

/-! ## Written attributes -/

namespace Attributes

/-- The object that is written for attributes, the members of all objects in any order among any
    others. -/
inductive IsWrittenAs (a : Attributes) : Json → Prop
  | object {items : Region → List Json} {members : List (String × Json)}
      (layers : ∀ region, List.Forall₂ Layer.IsWrittenAs (a.layersOf region) (items region))
      (fields : Arranges
        [("body_color", a.bodyColor.toJson), ("body_layers", .array (items .body)),
          ("fin_color", a.finColor.toJson), ("fin_layers", .array (items .fin)),
          ("head_layers", .array (items .head)), ("primary_color", a.primaryColor.toJson),
          ("variant", a.variety.toJson)] members) :
      IsWrittenAs a (.object members)

/-- The attributes that a value holds. -/
def ofJson (j : Json) : Except Json.Problem Attributes := ofReading j.reading

theorem decode_of_denotes {text : String} {j : Json} (h : Denotes text j) :
    decode text = ofJson j := by
  rw [decode, h, ofJson]
  show (ofReading j.reading >>= fun a => pure a) = _
  exact bind_pure _

theorem isWrittenAs_toJson (a : Attributes) : a.IsWrittenAs a.toJson := by
  have layers (region : Region) : List.Forall₂ Layer.IsWrittenAs (a.layersOf region)
      ((a.layersOf region).map Layer.toJson) :=
    List.forall₂_map_right_iff.2 (List.forall₂_same.2 fun layer _ => layer.isWrittenAs_toJson)
  exact .object layers (.of_perm (.refl _))

theorem layersOf_subset_patterns (a : Attributes) (region : Region) :
    a.layersOf region ⊆ a.patterns := by
  intro layer hl
  refine List.mem_flatMap.2 ⟨region, ?_, hl⟩
  cases region <;> decide

/-- Written attributes are read back, or one of their layers is refused. -/
theorem ofJson_of_isWrittenAs {a : Attributes} {j : Json} (h : a.IsWrittenAs j) :
    (∀ layer ∈ a.patterns, layer.name.IsReadable) ∧ ofJson j = .ok a ∨
      ∃ e, Layer.Refuse a.patterns e ∧ ofJson j = .error e := by
  obtain @⟨items, members, layers, fields⟩ := h
  have once : Reading.FieldValues.AreIn ⟨a.variety.toJson, .array (items .body),
      .array (items .head), .array (items .fin), a.bodyColor.toJson, a.finColor.toJson,
      a.primaryColor.toJson⟩ members := by
    constructor <;> exact fields.valuesOf_eq (by simp) (by simp)
  obtain ⟨read, hr, ⟨variety, body, head, fin, bodyColor, finColor, primaryColor⟩⟩ |
    ⟨e, hr, fails⟩ := Reading.ofReading_object once
  · rw [Reading.asVariety_toJson] at variety
    rw [Reading.asColor_toJson] at bodyColor finColor primaryColor
    have hb := Layer.eq_of_asList_eq_ok (layers .body) body
    have hh := Layer.eq_of_asList_eq_ok (layers .head) head
    have hf := Layer.eq_of_asList_eq_ok (layers .fin) fin
    have same : read = a := by
      cases read
      cases a
      simp_all [layersOf]
    refine .inl ⟨?_, same ▸ hr⟩
    intro layer hl
    obtain ⟨region, -, hl⟩ := List.mem_flatMap.1 hl
    cases region with
    | body => exact hb.2 layer hl
    | head => exact hh.2 layer hl
    | fin => exact hf.2 layer hl
  · refine .inr ⟨e, ?_, hr⟩
    have of_list (region : Region)
        (refused : (Json.array (items region)).reading.asList Reading.asLayer = .error e) :
        Layer.Refuse a.patterns e :=
      (Layer.refuse_of_asList_eq_error (layers region) refused).mono
        (a.layersOf_subset_patterns region)
    obtain variety | ⟨list, hm, refused⟩ | ⟨color, hm, refused⟩ := fails
    -- Varieties and colors are always read back: only a list of layers can be refused.
    · cases (Reading.asVariety_toJson _).symm.trans variety
    · simp only [List.mem_cons, List.not_mem_nil, or_false] at hm
      obtain rfl | rfl | rfl := hm
      exacts [of_list .body refused, of_list .head refused, of_list .fin refused]
    · simp only [List.mem_cons, List.not_mem_nil, or_false] at hm
      obtain rfl | rfl | rfl := hm <;> cases (Reading.asColor_toJson _).symm.trans refused

theorem printable_toJson (a : Attributes) : a.toJson.Printable := by
  have layers (l : List Layer) : Json.ItemsPrintable (l.map Layer.toJson) := by
    induction l with
    | nil => trivial
    | cons layer l ih => exact ⟨⟨trivial, trivial, trivial⟩, ih⟩
  exact ⟨trivial, layers _, trivial, layers _, layers _, trivial, trivial, trivial⟩

/-- Every pattern that some token brings forth has a number from 1 on. -/
theorem isReadable_ofToken (token : TokenId) :
    ∀ layer ∈ (ofToken token).patterns, layer.name.IsReadable := by
  intro layer hl region heq
  have occurs : Occurs layer.name := (occurs_iff_ofToken _).2 ⟨token, layer, hl, rfl⟩
  rw [occurs_iff, heq] at occurs
  obtain ⟨number, hn, h₁, -⟩ | hn | hn := occurs
  · obtain ⟨-, rfl⟩ := LayerName.pattern.inj hn
    exact absurd h₁ (by decide)
  · exact absurd (LayerName.pattern.inj hn).2 (by decide)
  · exact absurd (LayerName.pattern.inj hn).2 (by decide)

/-- Attributes are read back from the object that is written for them, also with its members in
    another order and among others, if and only if no pattern has the number zero; otherwise the
    name of such a pattern is refused. Generated attributes are always read back. -/
theorem json_round_trip :
    (∀ (a : Attributes) (j : Json), a.IsWrittenAs j →
      (ofJson j = .ok a ↔ ∀ layer ∈ a.patterns, ∀ region, layer.name ≠ .pattern region 0) ∧
      (∀ layer ∈ a.patterns, ∀ region, layer.name = .pattern region 0 →
        ∃ refused ∈ a.patterns, (∃ region, refused.name = .pattern region 0) ∧
          ofJson j = .error (.content (.unknownAsset refused.name.render))) ∧
      ∀ text, Denotes text j → decode text = ofJson j) ∧
    (∀ a : Attributes, a.IsWrittenAs a.toJson ∧ Denotes a.toJson.pretty a.toJson) ∧
    ∀ token, ofJson (ofToken token).toJson = .ok (ofToken token) := by
  refine ⟨fun a j h => ⟨?_, ?_, fun text ht => decode_of_denotes ht⟩, fun a => ?_, fun token => ?_⟩
  · obtain ⟨readable, ok⟩ | ⟨e, ⟨refused, hm, zero, -⟩, error⟩ := ofJson_of_isWrittenAs h
    · exact ⟨fun _ => readable, fun _ => ok⟩
    · constructor
      · intro ok
        cases error.symm.trans ok
      · intro readable
        exact absurd (readable refused hm) zero
  · rintro layer hl region hz
    obtain ⟨readable, -⟩ | ⟨e, ⟨refused, hm, zero, rfl⟩, error⟩ := ofJson_of_isWrittenAs h
    · exact absurd hz (readable layer hl region)
    · exact ⟨refused, hm, by simpa [LayerName.IsReadable] using zero, error⟩
  · exact ⟨a.isWrittenAs_toJson, Json.denotes_pretty a.printable_toJson⟩
  · obtain ⟨-, ok⟩ | ⟨e, ⟨refused, hm, zero, -⟩, -⟩ :=
      ofJson_of_isWrittenAs (isWrittenAs_toJson (ofToken token))
    · exact ok
    · exact absurd (isReadable_ofToken token refused hm) zero

/-- A koi with one pattern. -/
def spotted (number : UInt8) : Attributes where
  variety := .kohaku
  bodyLayers := [⟨.pattern .body number, ⟨200, 10, 10⟩⟩]
  headLayers := []
  finLayers := []
  bodyColor := ⟨230, 230, 230⟩
  finColor := ⟨220, 221, 222⟩
  primaryColor := ⟨200, 10, 10⟩

/-- An object with the opposite order of members and one member more. -/
def turned (fields : List (String × Json)) : Json := .object (("note", .null) :: fields.reverse)

theorem arranges_turned {fields : List (String × Json)} (h : "note" ∉ fields.map Prod.fst) :
    Arranges fields (("note", .null) :: fields.reverse) :=
  ⟨[("note", .null)], ((List.reverse_perm fields).cons _).trans
    (List.perm_append_singleton _ fields).symm, by simpa using h⟩

/-- The objects of the layers of such a koi, all turned. -/
def spottedLayers (number : UInt8) (region : Region) : List Json :=
  ((spotted number).layersOf region).map fun layer =>
    turned [("color", layer.color.toJson), ("name", layer.name.toJson)]

/-- The object of such a koi, turned as well. -/
def spottedJson (number : UInt8) : Json :=
  turned [("body_color", (spotted number).bodyColor.toJson),
    ("body_layers", .array (spottedLayers number .body)),
    ("fin_color", (spotted number).finColor.toJson),
    ("fin_layers", .array (spottedLayers number .fin)),
    ("head_layers", .array (spottedLayers number .head)),
    ("primary_color", (spotted number).primaryColor.toJson),
    ("variant", (spotted number).variety.toJson)]

theorem isWrittenAs_spottedJson (number : UInt8) :
    (spotted number).IsWrittenAs (spottedJson number) := by
  have layers (region : Region) : List.Forall₂ Layer.IsWrittenAs ((spotted number).layersOf region)
      (spottedLayers number region) :=
    List.forall₂_map_right_iff.2 (List.forall₂_same.2 fun layer _ =>
      .object (arranges_turned (by simp)))
  exact .object layers (arranges_turned (by simp))

/-- A pattern with the number zero is refused, and one with another number is not. -/
theorem json_round_trip_spotted :
    ofJson (spottedJson 0) = .error (.content (.unknownAsset "body_0")) ∧
      ofJson (spottedJson 3) = .ok (spotted 3) := by
  obtain ⟨round, -⟩ := json_round_trip
  have patterns (number : UInt8) :
      (spotted number).patterns = [⟨.pattern .body number, ⟨200, 10, 10⟩⟩] := rfl
  constructor
  · obtain ⟨-, refused, -⟩ := round _ _ (isWrittenAs_spottedJson 0)
    obtain ⟨layer, hm, -, error⟩ := refused ⟨.pattern .body 0, ⟨200, 10, 10⟩⟩
      (by rw [patterns]; exact List.mem_singleton_self _) .body rfl
    rw [patterns, List.mem_singleton] at hm
    rw [error, hm]
    decide
  · refine (round _ _ (isWrittenAs_spottedJson 3)).1.2 fun layer hl region => ?_
    rw [patterns, List.mem_singleton] at hl
    rw [hl]
    cases region <;> decide

end Attributes

end Koi
