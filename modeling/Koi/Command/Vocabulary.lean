import Koi.Decimal

/-!
# The words of the command line

A command line names a verb and gives options to it. Some options go with any verb, and may stand
in front of it too.

* `Verb`: the verbs.
* `Switch`: the options, with their spellings.
* `switches`: the options that are known in front of the verb and after it.
* `Switch.accepts`: the texts that an option takes.
-/

namespace Koi.Command

/-- What a command does. -/
inductive Verb where
  | attributes
  | render
  | list
  | checkAssets
  deriving DecidableEq, Repr

namespace Verb

def all : List Verb := [.attributes, .render, .list, .checkAssets]

def name : Verb → String
  | .attributes => "attributes"
  | .render => "render"
  | .list => "list"
  | .checkAssets => "check-assets"

def ofName? (text : String) : Option Verb :=
  all.find? fun verb => verb.name = text

/-- Whether the verb needs a token. -/
def needsToken : Verb → Bool
  | .attributes | .render => true
  | .list | .checkAssets => false

end Verb

/-- The word that asks for help instead of a verb. -/
def helpWord : String := "help"

/-- An option. -/
inductive Switch where
  | json
  | config
  | assets
  | size
  | thumbnail
  | output
  | variant
  | warm
  | help
  deriving DecidableEq, Repr

namespace Switch

/-- The name behind two dashes. -/
def name : Switch → String
  | .json => "json"
  | .config => "config"
  | .assets => "assets"
  | .size => "size"
  | .thumbnail => "thumbnail"
  | .output => "output"
  | .variant => "variant"
  | .warm => "warm"
  | .help => "help"

/-- The letter behind one dash. -/
def letter? : Switch → Option Char
  | .size => some 's'
  | .output => some 'o'
  | .help => some 'h'
  | _ => none

/-- Whether a text goes with the option. -/
def takesText : Switch → Bool
  | .config | .assets | .size | .output | .variant => true
  | .json | .thumbnail | .warm | .help => false

end Switch

/-- The options that go with any verb. -/
def commonSwitches : List Switch := [.json, .config, .assets]

/-- The options of a verb alone. -/
def Verb.ownSwitches : Verb → List Switch
  | .attributes => []
  | .render => [.size, .thumbnail, .output]
  | .list => [.variant]
  | .checkAssets => [.warm]

/-- The options that are known after a verb, or in front of it. -/
def switches : Option Verb → List Switch
  | none => commonSwitches ++ [.help]
  | some verb => verb.ownSwitches ++ commonSwitches ++ [.help]

/-! ## Texts -/

/-- A number of 32 bits, of plain digits. -/
def plainSize? (digits : List Char) : Option UInt32 :=
  if digits ≠ [] ∧ digits.all Char.isDigit ∧ Decimal.value digits < UInt32.size
  then some (Decimal.value digits).toUInt32
  else none

/-- A number of 32 bits behind an optional sign. -/
def size? (text : String) : Option UInt32 :=
  match text.toList with
  | '+' :: digits => plainSize? digits
  | '-' :: digits => (plainSize? digits).filter (· = 0)
  | digits => plainSize? digits

/-- Whether an option takes a text: a size has to be a number, and a path is not empty. -/
def Switch.accepts (switch : Switch) (text : String) : Bool :=
  match switch with
  | .size => (size? text).isSome
  | .config | .assets | .output => text ≠ ""
  | _ => true

end Koi.Command
