import Koi.Attributes
import Koi.Json.Printer
import Koi.Json.Problem
import Koi.Json.Reading

/-!
# Attributes as JSON

Attributes are written as an object with seven members. They are read from such an object, its
members in any order and among other members, or from the array of the seven values.

* `Attributes.toJson`, `Attributes.metadata`: writing.
* `Attributes.ofReading`, `Attributes.decode`: reading. Values are taken from left to right, and
  the first problem is the result.
-/

namespace Koi

/-! ## Writing -/

def Color.toJson (c : Color) : Json := .string c.toHex

def LayerName.toJson (name : LayerName) : Json := .string name.render

def Variety.toJson (variety : Variety) : Json := .string variety.name

def Layer.toJson (layer : Layer) : Json :=
  .object [("color", layer.color.toJson), ("name", layer.name.toJson)]

namespace Attributes

/-- The attributes as an object (`serialize`). -/
def toJson (a : Attributes) : Json :=
  .object
    [("body_color", a.bodyColor.toJson),
      ("body_layers", .array (a.bodyLayers.map Layer.toJson)),
      ("fin_color", a.finColor.toJson),
      ("fin_layers", .array (a.finLayers.map Layer.toJson)),
      ("head_layers", .array (a.headLayers.map Layer.toJson)),
      ("primary_color", a.primaryColor.toJson),
      ("variant", a.variety.toJson)]

/-- The summary that accompanies the attributes of a token (`metadata`). -/
def metadata (a : Attributes) : Json :=
  .object
    [("bodyColor", a.bodyColor.toJson),
      ("finColor", a.finColor.toJson),
      ("isDark", .bool a.primaryColor.isDark),
      ("patternQuantity", .ofNat a.patternQuantity),
      ("primaryColor", a.primaryColor.toJson),
      ("species", a.variety.toJson)]

end Attributes

/-! ## Reading -/

namespace Json.Reading

def asString : Reading → Except Problem String
  | .string (some text) => .ok text
  | _ => .error .shape

def asColor (r : Reading) : Except Problem Color := do
  let text ← r.asString
  (Color.ofHex text).mapError .content

def asLayerName (r : Reading) : Except Problem LayerName := do
  let text ← r.asString
  (LayerName.parse text).mapError .content

/-- A variety is a string, or an object with the variety as its only key and the value null. -/
def asVariety : Reading → Except Problem Variety
  | .string (some text) | .object [(some text, .null)] =>
    match Variety.ofName? text with
    | some variety => .ok variety
    | none => .error .shape
  | _ => .error .shape

/-- A list of values, each read by `read`. -/
def asList {α : Type} (read : Reading → Except Problem α) : Reading → Except Problem (List α)
  | .array items => items.mapM read
  | _ => .error .shape

/-- Sets a field that has not been set before. -/
def setOnce {α : Type} (old : Option α) (new : Except Problem α) : Except Problem (Option α) :=
  if old.isSome then .error .shape else new.map some

/-- Passes over a value that nobody asked for. -/
def skip {α : Type} (state : α) (r : Reading) : Except Problem α :=
  if r.intact then .ok state else .error .shape

/-- A field that must have been set. -/
def required {α : Type} : Option α → Except Problem α
  | some a => .ok a
  | none => .error .shape

/-- The next item of an array, read by `read`, and the items after it. -/
def nextItem {α : Type} (read : Reading → Except Problem α) :
    List Reading → Except Problem (α × List Reading)
  | [] => .error .shape
  | item :: items => (read item).map fun a => (a, items)

/-- The end of an array. -/
def noMore {α : Type} (a : α) (items : List Reading) : Except Problem α :=
  if items.isEmpty then .ok a else .error .shape

/-! ### Layers -/

/-- The fields of a layer that have been read so far. -/
structure LayerFields where
  name : Option LayerName := none
  color : Option Color := none

def LayerFields.add (f : LayerFields) :
    Option String × Reading → Except Problem LayerFields
  | (none, _) => .error .shape
  | (some key, value) =>
    match key with
    | "name" => (setOnce f.name value.asLayerName).map fun v => { f with name := v }
    | "color" => (setOnce f.color value.asColor).map fun v => { f with color := v }
    | _ => skip f value

def LayerFields.finish (f : LayerFields) : Except Problem Layer := do
  return ⟨← required f.name, ← required f.color⟩

/-- The two fields in a fixed order. -/
def layerOfItems (items : List Reading) : Except Problem Layer := do
  let (name, items) ← nextItem asLayerName items
  let (color, items) ← nextItem asColor items
  noMore ⟨name, color⟩ items

def asLayer : Reading → Except Problem Layer
  | .object members => do (← members.foldlM LayerFields.add {}).finish
  | .array items => layerOfItems items
  | _ => .error .shape

/-! ### Attributes -/

/-- The fields of the attributes that have been read so far. -/
structure AttributesFields where
  variety : Option Variety := none
  bodyLayers : Option (List Layer) := none
  headLayers : Option (List Layer) := none
  finLayers : Option (List Layer) := none
  bodyColor : Option Color := none
  finColor : Option Color := none
  primaryColor : Option Color := none

def AttributesFields.add (f : AttributesFields) :
    Option String × Reading → Except Problem AttributesFields
  | (none, _) => .error .shape
  | (some key, value) =>
    match key with
    | "variant" => (setOnce f.variety value.asVariety).map fun v => { f with variety := v }
    | "body_layers" =>
      (setOnce f.bodyLayers (value.asList asLayer)).map fun v => { f with bodyLayers := v }
    | "head_layers" =>
      (setOnce f.headLayers (value.asList asLayer)).map fun v => { f with headLayers := v }
    | "fin_layers" =>
      (setOnce f.finLayers (value.asList asLayer)).map fun v => { f with finLayers := v }
    | "body_color" => (setOnce f.bodyColor value.asColor).map fun v => { f with bodyColor := v }
    | "fin_color" => (setOnce f.finColor value.asColor).map fun v => { f with finColor := v }
    | "primary_color" =>
      (setOnce f.primaryColor value.asColor).map fun v => { f with primaryColor := v }
    | _ => skip f value

def AttributesFields.finish (f : AttributesFields) : Except Problem Attributes := do
  return {
    variety := ← required f.variety
    bodyLayers := ← required f.bodyLayers
    headLayers := ← required f.headLayers
    finLayers := ← required f.finLayers
    bodyColor := ← required f.bodyColor
    finColor := ← required f.finColor
    primaryColor := ← required f.primaryColor }

/-- The seven fields in a fixed order. -/
def attributesOfItems (items : List Reading) : Except Problem Attributes := do
  let (variety, items) ← nextItem asVariety items
  let (bodyLayers, items) ← nextItem (asList asLayer) items
  let (headLayers, items) ← nextItem (asList asLayer) items
  let (finLayers, items) ← nextItem (asList asLayer) items
  let (bodyColor, items) ← nextItem asColor items
  let (finColor, items) ← nextItem asColor items
  let (primaryColor, items) ← nextItem asColor items
  noMore { variety, bodyLayers, headLayers, finLayers, bodyColor, finColor, primaryColor } items

end Json.Reading

namespace Attributes

open Json (Reading)

/-- The attributes of a reading (`deserialize`). -/
def ofReading : Reading → Except Json.Problem Attributes
  | .object members => do
    (← members.foldlM Reading.AttributesFields.add {}).finish
  | .array items => Reading.attributesOfItems items
  | _ => .error .shape

/-- The attributes of a text. -/
def decode (text : String) : Except Json.Problem Attributes := do
  let (reading, complete) := Reading.ofText text
  let attributes ← ofReading reading
  if complete then return attributes else throw .shape

end Attributes

end Koi
