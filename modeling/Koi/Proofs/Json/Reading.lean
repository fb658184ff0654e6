import Koi.Json.Reading

/-!
# Values and their readings

A value stands for a reading in which nothing is broken and everything has a value. Many texts have
this reading: they differ in layout and in the escapes of their strings.

* `Json.reading`: the reading of a value; `intact_reading` says that nothing in it is broken.
* `Json.Denotes`: a text that is read as a value.
-/

namespace Koi.Json

/-! ## The reading of a value -/

mutual

/-- The reading that a value stands for. -/
def reading : Json → Reading
  | .null => .null
  | .bool b => .bool b
  | .number n => .number (some n)
  | .string s => .string (some s)
  | .array items => .array (itemReadings items)
  | .object members => .object (memberReadings members)

/-- `reading` for the items of an array. -/
def itemReadings : List Json → List Reading
  | [] => []
  | item :: items => item.reading :: itemReadings items

/-- `reading` for the members of an object. -/
def memberReadings : List (String × Json) → List (Option String × Reading)
  | [] => []
  | (key, value) :: members => (some key, value.reading) :: memberReadings members

end

theorem itemReadings_eq_map (items : List Json) : itemReadings items = items.map reading := by
  induction items with
  | nil => rfl
  | cons item items ih => rw [itemReadings, ih, List.map_cons]

theorem memberReadings_eq_map (members : List (String × Json)) :
    memberReadings members = members.map fun m => (some m.1, m.2.reading) := by
  induction members with
  | nil => rfl
  | cons m members ih => rw [memberReadings, ih, List.map_cons]

mutual

/-- A value is well formed. -/
theorem intact_reading : (value : Json) → value.reading.intact = true
  | .null | .bool _ | .number _ | .string _ => by simp [reading, Reading.intact]
  | .array items => by
    rw [reading, Reading.intact]
    exact intactItems_reading items
  | .object members => by
    rw [reading, Reading.intact]
    exact intactMembers_reading members

theorem intactItems_reading : (items : List Json) →
    Reading.intactItems (itemReadings items) = true
  | [] => rfl
  | item :: items => by
    rw [itemReadings, Reading.intactItems, intact_reading item, intactItems_reading items]
    rfl

theorem intactMembers_reading : (members : List (String × Json)) →
    Reading.intactMembers (memberReadings members) = true
  | [] => rfl
  | (_, value) :: members => by
    rw [memberReadings, Reading.intactMembers, intact_reading value,
      intactMembers_reading members]
    rfl

end

/-- A text is read as a value, from end to end. -/
def Denotes (text : String) (value : Json) : Prop :=
  Reading.ofText text = (value.reading, true)

end Koi.Json
