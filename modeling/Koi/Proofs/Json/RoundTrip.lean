import Koi.Proofs.Json.Printer
import Koi.Proofs.Json.Reading

/-!
# Written values are parsed

A value whose arrays and objects are not nested too deep is parsed from the text that it is written
as.

* `Json.depth`: how deep arrays and objects are nested.
* `Json.toJson?_reading`: a value is found again in its reading if that is deep enough.
* `Json.parse_pretty`: a value is parsed from its text.
-/

namespace Koi.Json

mutual

/-- How deep arrays and objects are nested in a value. -/
def depth : Json → Nat
  | .array items => itemsDepth items + 1
  | .object members => membersDepth members + 1
  | _ => 0

/-- `depth` for the items of an array. -/
def itemsDepth : List Json → Nat
  | [] => 0
  | item :: items => max item.depth (itemsDepth items)

/-- `depth` for the members of an object. -/
def membersDepth : List (String × Json) → Nat
  | [] => 0
  | (_, value) :: members => max value.depth (membersDepth members)

end

mutual

/-- A value is found again in its reading. -/
theorem toJson?_reading : (value : Json) → {bound : Nat} → value.depth ≤ bound →
    value.reading.toJson? bound = some value
  | .null, _, _ | .bool _, _, _ | .number _, _, _ | .string _, _, _ => rfl
  | .array items, bound, h => by
    rw [depth] at h
    rw [reading, Reading.toJson?, if_neg (by omega), itemsToJson?_itemReadings items (by omega)]
    rfl
  | .object members, bound, h => by
    rw [depth] at h
    rw [reading, Reading.toJson?, if_neg (by omega),
      membersToJson?_memberReadings members (by omega)]
    rfl

theorem itemsToJson?_itemReadings : (items : List Json) → {bound : Nat} →
    itemsDepth items ≤ bound → Reading.itemsToJson? bound (itemReadings items) = some items
  | [], _, _ => rfl
  | item :: items, bound, h => by
    rw [itemsDepth] at h
    rw [itemReadings, Reading.itemsToJson?, toJson?_reading item (by omega),
      itemsToJson?_itemReadings items (by omega)]
    rfl

theorem membersToJson?_memberReadings : (members : List (String × Json)) → {bound : Nat} →
    membersDepth members ≤ bound →
    Reading.membersToJson? bound (memberReadings members) = some members
  | [], _, _ => rfl
  | (key, value) :: members, bound, h => by
    rw [membersDepth] at h
    rw [memberReadings, Reading.membersToJson?, Option.bind_eq_bind, Option.bind_some,
      toJson?_reading value (by omega), membersToJson?_memberReadings members (by omega)]
    rfl

end

/-- The text that a value is written as is parsed as this value. -/
theorem parse_pretty {value : Json} (printable : value.Printable)
    (shallow : value.depth ≤ maxDepth) : parse value.pretty = some value := by
  have denotes : Reading.ofText value.pretty = (value.reading, true) := denotes_pretty printable
  rw [parse, denotes]
  exact toJson?_reading value shallow

end Koi.Json
