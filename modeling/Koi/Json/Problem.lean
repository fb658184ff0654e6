import Koi.Decimal
import Koi.Error

/-!
# Problems of a JSON text

A text may not be JSON, or not the JSON that is asked for, or hold a string that is refused.

* `Json.Problem`: why a text is not what it should be.
* `Json.Problem.message?`: the message of a refused string.
* `Json.withoutPosition`: a message that does not say where it arose.
-/

namespace Koi.Json

/-! ## Positions in messages -/

/-- The numbers of lines and columns are smaller. -/
def positionBound : Nat := UInt64.size

/-- The characters in front of a word and a number with which the characters end; both the
    characters and the word are given from the end on. -/
def beforeNumber? (word text : List Char) : Option (List Char) :=
  let digits := text.takeWhile Char.isDigit
  let rest := text.drop digits.length
  if digits ≠ [] ∧ Decimal.value digits.reverse < positionBound ∧ word <+: rest
  then some (rest.drop word.length)
  else none

/-- The words in front of the two numbers of a position, from the end on. -/
def lineWord : List Char := " at line ".toList.reverse
def columnWord : List Char := " column ".toList.reverse

/-- A message without the position that it ends with, if it ends with one. -/
def withoutPosition (message : String) : String :=
  match (beforeNumber? columnWord message.toList.reverse).bind (beforeNumber? lineWord) with
  | some text => String.ofList text.reverse
  | none => message

/-! ## Problems -/

/-- Why a text is not what it should be. -/
inductive Problem where
  /-- Not JSON, or JSON of another shape. -/
  | shape
  /-- A string is refused where it stands. -/
  | content (error : Error)
  deriving DecidableEq, Repr

/-- The message of a refused string. The end of a message is the place for its position, so that
    what looks like one there is not part of it. -/
def Problem.message? : Problem → Option String
  | .shape => none
  | .content error => some (withoutPosition error.message)

end Koi.Json
