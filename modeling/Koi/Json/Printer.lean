import Koi.Color
import Koi.Json.Value

/-!
# Writing JSON

A value is written over several lines, each level of nesting indented by two spaces; an array or
object without content stays on one line.

* `Json.quote`: a string with its escapes.
* `Json.pretty`: a whole value.
-/

namespace Koi.Json

/-! ## Strings -/

/-- The form of one character inside a quoted string. -/
def escape (c : Char) : List Char :=
  match c with
  | '"' => ['\\', '"']
  | '\\' => ['\\', '\\']
  | '\n' => ['\\', 'n']
  | '\r' => ['\\', 'r']
  | '\t' => ['\\', 't']
  | '\x08' => ['\\', 'b']
  | '\x0c' => ['\\', 'f']
  | c => if c.toNat < 0x20 then ['\\', 'u', '0', '0'] ++ Color.hexByte c.toNat.toUInt8 else [c]

/-- A string in quotes. -/
def quote (text : String) : List Char :=
  '"' :: text.toList.flatMap escape ++ ['"']

/-! ## Values -/

def Number.render : Number → List Char
  | .unsigned n => (toString n.toNat).toList
  | .other text => text.toList

/-- A line break and the indentation of a level. -/
def newLine (level : Nat) : List Char :=
  '\n' :: List.replicate (2 * level) ' '

mutual

/-- The text of a value whose first line starts at the given level. -/
def print (level : Nat) : Json → List Char
  | .null => "null".toList
  | .bool true => "true".toList
  | .bool false => "false".toList
  | .number n => n.render
  | .string s => quote s
  | .array [] => ['[', ']']
  | .array (item :: items) =>
    '[' :: (newLine (level + 1) ++ print (level + 1) item ++ printItems (level + 1) items ++
      newLine level ++ [']'])
  | .object [] => ['\x7b', '\x7d']
  | .object ((key, value) :: members) =>
    '\x7b' :: (newLine (level + 1) ++ quote key ++ [':', ' '] ++ print (level + 1) value ++
      printMembers (level + 1) members ++ newLine level ++ ['\x7d'])

/-- The items after the first one, each after a comma and on a line of its own. -/
def printItems (level : Nat) : List Json → List Char
  | [] => []
  | item :: items => ',' :: (newLine level ++ print level item ++ printItems level items)

/-- The members after the first one. -/
def printMembers (level : Nat) : List (String × Json) → List Char
  | [] => []
  | (key, value) :: members =>
    ',' :: (newLine level ++ quote key ++ [':', ' '] ++ print level value ++
      printMembers level members)

end

/-- The text of a value. -/
def pretty (value : Json) : String := String.ofList (print 0 value)

end Koi.Json
