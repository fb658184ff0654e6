import Koi.Json.Lexeme

/-!
# Reading JSON as far as it goes

A text that stops being JSON somewhere still has a beginning that can be used: who reads values
from left to right meets the first problem at its place. A reading is the tree of a text up to
that place, where a leaf `broken` stands.

* `Json.Reading`: the tree; strings and numbers without a value are kept as such.
* `Json.Reading.ofText`: the reading of a text.
* `Json.Reading.intact`: nothing in it is broken.
* `Json.Reading.toJson?`, `Json.parse`: the JSON value of a text, if all of it is well formed.
-/

namespace Koi.Json

/-- What can be read of a JSON text. -/
inductive Reading where
  | null
  | bool (value : Bool)
  | number (value : Option Number)
  | string (value : Option String)
  | array (items : List Reading)
  | object (members : List (Option String × Reading))
  /-- The text is not JSON from here on. Nothing follows a broken part. -/
  | broken
  deriving Repr, Inhabited

namespace Reading

/-! ## From lexemes to a tree -/

/-- A container that is still open. -/
inductive Frame where
  /-- The items so far, the last one first. -/
  | items (done : List Reading)
  /-- The members so far, the last one first, and the key whose value is being read. -/
  | members (done : List (Option String × Reading)) (key : Option String)

/-- What may come next. -/
inductive State where
  | value
  /-- Just after the opening of an array. -/
  | firstItem
  /-- Just after the opening of an object. -/
  | firstKey
  /-- A key, after the given members. -/
  | key (done : List (Option String × Reading))
  /-- The colon between key and value. -/
  | colon (done : List (Option String × Reading)) (key : Option String)
  /-- A value has been read. -/
  | done (value : Reading)

/-- Closes all open containers around the last thing that was read. -/
def close (last : Reading) : List Frame → Reading
  | [] => last
  | .items done :: frames => close (.array (done.reverse ++ [last])) frames
  | .members done key :: frames => close (.object (done.reverse ++ [(key, last)])) frames

/-- The reading of a text that breaks in the given state. -/
def breakOff (frames : List Frame) : State → Reading
  | .value | .firstItem => close .broken frames
  | .firstKey => close (.object [(none, .broken)]) frames
  | .key done => close (.object (done.reverse ++ [(none, .broken)])) frames
  | .colon done key => close (.object (done.reverse ++ [(key, .broken)])) frames
  | .done value =>
    match frames with
    | [] => value
    | .items done :: frames => close (.array ((value :: done).reverse ++ [.broken])) frames
    | .members done key :: frames =>
      close (.object (((key, value) :: done).reverse ++ [(none, .broken)])) frames

/-- What a lexeme does where a value is expected. -/
def startValue (frames : List Frame) : Lexeme → Option (State × List Frame)
  | .null => some (.done .null, frames)
  | .bool b => some (.done (.bool b), frames)
  | .number n => some (.done (.number n), frames)
  | .string s => some (.done (.string s), frames)
  | .openBracket => some (.firstItem, frames)
  | .openBrace => some (.firstKey, frames)
  | _ => none

/-- The state and the open containers after one more lexeme; `none` if it does not fit. -/
def step (state : State) (frames : List Frame) (lexeme : Lexeme) : Option (State × List Frame) :=
  match state, lexeme with
  | .firstItem, .closeBracket => some (.done (.array []), frames)
  | .firstItem, lexeme => startValue (.items [] :: frames) lexeme
  | .value, lexeme => startValue frames lexeme
  | .firstKey, .closeBrace => some (.done (.object []), frames)
  | .firstKey, .string key => some (.colon [] key, frames)
  | .key done, .string key => some (.colon done key, frames)
  | .colon done key, .colon => some (.value, .members done key :: frames)
  | .done value, lexeme =>
    match frames, lexeme with
    | .items done :: frames, .comma => some (.value, .items (value :: done) :: frames)
    | .items done :: frames, .closeBracket =>
      some (.done (.array (value :: done).reverse), frames)
    | .members done key :: frames, .comma => some (.key ((key, value) :: done), frames)
    | .members done key :: frames, .closeBrace =>
      some (.done (.object ((key, value) :: done).reverse), frames)
    | _, _ => none
  | _, _ => none

/-- The reading of a sequence of lexemes, and whether the sequence is used up by it. -/
def run (state : State) (frames : List Frame) : List Lexeme → Reading × Bool
  | [] => (breakOff frames state, true)
  | lexeme :: lexemes =>
    match step state frames lexeme with
    | some (state, frames) => run state frames lexemes
    | none => (breakOff frames state, false)

/-- The reading of a text, and whether nothing but blanks follows the value. -/
def ofText (text : String) : Reading × Bool :=
  run .value [] (lexemes text.toList)

/-! ## Well-formedness -/

mutual

/-- Nothing is broken. Strings and numbers without a value may occur. -/
def intact : Reading → Bool
  | .broken => false
  | .array items => intactItems items
  | .object members => intactMembers members
  | _ => true

/-- Nothing is broken in the items of an array. -/
def intactItems : List Reading → Bool
  | [] => true
  | item :: items => intact item && intactItems items

/-- Nothing is broken in the members of an object. -/
def intactMembers : List (Option String × Reading) → Bool
  | [] => true
  | (_, value) :: members => intact value && intactMembers members

end

mutual

/-- The JSON value of a reading in which nothing is broken, everything has a value, and containers
    are nested at most `depth` deep. -/
def toJson? (depth : Nat) : Reading → Option Json
  | .null => some .null
  | .bool b => some (.bool b)
  | .number n => n.map .number
  | .string s => s.map .string
  | .array items =>
    if depth = 0 then none else (itemsToJson? (depth - 1) items).map .array
  | .object members =>
    if depth = 0 then none else (membersToJson? (depth - 1) members).map .object
  | .broken => none

/-- `toJson?` for the items of an array. -/
def itemsToJson? (depth : Nat) : List Reading → Option (List Json)
  | [] => some []
  | item :: items => do
    let item ← toJson? depth item
    let items ← itemsToJson? depth items
    return item :: items

/-- `toJson?` for the members of an object. -/
def membersToJson? (depth : Nat) : List (Option String × Reading) → Option (List (String × Json))
  | [] => some []
  | (key, value) :: members => do
    let key ← key
    let value ← toJson? depth value
    let members ← membersToJson? depth members
    return (key, value) :: members

end

end Reading

/-- How deep arrays and objects may be nested in a value that is read as a whole. -/
def maxDepth : Nat := 127

/-- The JSON value of a text. -/
def parse (text : String) : Option Json :=
  let (reading, complete) := Reading.ofText text
  if complete then reading.toJson? maxDepth else none

end Koi.Json
