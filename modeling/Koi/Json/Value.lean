/-!
# JSON values

* `Json`: a value; an object keeps its members in the order of the text.
* `Json.Number`: a number is an unsigned 64-bit integer only if it is written as plain digits.
* `Json.member?`: looking up a key, where the last of several equal keys counts.
-/

namespace Koi

/-- A JSON number. -/
inductive Json.Number where
  /-- Plain digits whose value fits 64 bits. -/
  | unsigned (value : UInt64)
  /-- Any other number, as it was written. -/
  | other (text : String)
  deriving DecidableEq, Repr

/-- A JSON value. -/
inductive Json where
  | null
  | bool (value : Bool)
  | number (value : Json.Number)
  | string (value : String)
  | array (items : List Json)
  | object (members : List (String × Json))
  deriving Repr, Inhabited

namespace Json

/-- The number for a count. -/
def ofNat (n : Nat) : Json := .number (.unsigned n.toUInt64)

/-- The value under a key of an object. -/
def member? (key : String) : Json → Option Json
  | .object members => members.reverse.lookup key
  | _ => none

def unsigned? : Json → Option UInt64
  | .number (.unsigned n) => some n
  | _ => none

def string? : Json → Option String
  | .string s => some s
  | _ => none

def array? : Json → Option (List Json)
  | .array items => some items
  | _ => none

def isObject : Json → Bool
  | .object _ => true
  | _ => false

end Json

end Koi
