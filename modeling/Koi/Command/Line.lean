import Koi.Command
import Koi.Command.Vocabulary

/-!
# Reading a command line

A command line is read word by word. A word that starts with a dash gives options, and any other
one is the verb, a token, or the text of the option before it. Two dashes alone end the options.
An option is given once in front of the verb and once after it at most; what stands after the verb
counts. Whether the text of an option makes sense is settled by the next option or at the end of the
line, so that help about a verb is given even if the option in front of the verb makes no sense.

* `Reading.step`: what a word does.
* `Command.ofLine`: the settings and command of a whole line.
-/

namespace Koi.Command

/-- What help is asked about. -/
inductive Topic where
  | program
  | verb (verb : Verb)
  | help
  deriving DecidableEq, Repr

/-- Why a line has no command. -/
inductive Stop where
  /-- The line makes no sense. -/
  | misuse
  /-- The line asks for help. -/
  | help (topic : Topic)
  deriving DecidableEq, Repr

/-- What the next word can be. -/
inductive Mode where
  | any
  /-- The text of an option. -/
  | textOf (switch : Switch)
  /-- No option. -/
  | verbatim
  /-- What help is asked about. -/
  | topic (topic : Topic)
  deriving DecidableEq, Repr

/-- Options with their texts; the text of a flag is empty. -/
abbrev Given := List (Switch × String)

/-- What has been read of a line. -/
structure Reading where
  verb : Option Verb := none
  /-- The options in front of the verb. -/
  before : Given := []
  /-- The options after the verb. -/
  after : Given := []
  /-- The last option in front of the verb, while nothing has settled whether its text, a word of
      its own, makes sense. -/
  unsettled : Option (Switch × String) := none
  token : Option String := none
  mode : Mode := .any

namespace Reading

/-! ## Options -/

/-- The topic of the place that has been reached. -/
def topic (r : Reading) : Topic :=
  match r.verb with
  | none => .program
  | some verb => .verb verb

/-- The options on this side of the verb. -/
def given (r : Reading) : Given :=
  if r.verb.isNone then r.before else r.after

/-- Whether an option with its text can follow others. -/
def fits (given : Given) (switch : Switch) (text : String) : Bool :=
  switch.accepts text && (given.lookup switch).isNone

/-- Settles the option in front of the verb that is not settled yet. -/
def settle (r : Reading) : Except Stop Reading :=
  match r.unsettled with
  | none => .ok r
  | some (switch, text) =>
    if fits r.before switch text then
      .ok { r with before := (switch, text) :: r.before, unsettled := none }
    else .error .misuse

/-- Makes place for another option on this side of the verb. -/
def beginOption (r : Reading) : Except Stop Reading :=
  if r.verb.isNone then r.settle else .ok r

/-- Takes in an option with its text. -/
def give (r : Reading) (switch : Switch) (text : String) : Except Stop Reading := do
  let r ← r.beginOption
  if switch = .help then .error (.help r.topic)
  else if !fits r.given switch text then .error .misuse
  else if r.verb.isNone then .ok { r with before := (switch, text) :: r.before, mode := .any }
  else .ok { r with after := (switch, text) :: r.after, mode := .any }

/-- Takes in an option with the text that is attached to it, if one is. An option that needs a text
    and has none gets the next word. -/
def giveAttached (r : Reading) (switch : Switch) (attached : Option String) :
    Except Stop Reading :=
  match switch.takesText, attached with
  | true, some text => r.give switch text
  | true, none => r.beginOption.map fun r => { r with mode := .textOf switch }
  | false, some _ => .error .misuse
  | false, none => r.give switch ""

/-- Takes in the word that is the text of an option. -/
def giveWord (r : Reading) (switch : Switch) (word : String) : Except Stop Reading :=
  if r.verb.isNone then .ok { r with unsettled := some (switch, word), mode := .any }
  else r.give switch word

/-- Reads what follows two dashes: a name, and behind an equals sign its text. -/
def long (r : Reading) (word : List Char) : Except Stop Reading :=
  let name := String.ofList (word.takeWhile (· ≠ '='))
  match (switches r.verb).find? fun switch => switch.name = name with
  | none => .error .misuse
  | some switch =>
    match word.dropWhile (· ≠ '=') with
    | [] => r.giveAttached switch none
    | _ :: text => r.giveAttached switch (some (String.ofList text))

/-- The text behind a letter. An equals sign in front of it does not count. -/
def attachedText? : List Char → Option String
  | [] => none
  | '=' :: text => some (String.ofList text)
  | text => some (String.ofList text)

/-- Reads what follows one dash: letters of flags, and at the end maybe a letter with its text. -/
def letters (r : Reading) : List Char → Except Stop Reading
  | [] => .ok r
  | c :: rest =>
    match (switches r.verb).find? fun switch => switch.letter? = some c with
    | none => .error .misuse
    | some switch =>
      if switch.takesText then r.giveAttached switch (attachedText? rest)
      else do (← r.giveAttached switch none).letters rest

/-! ## Words -/

/-- Reads the verb. -/
def nameVerb (r : Reading) (word : String) : Except Stop Reading :=
  if word = helpWord then .ok { r with mode := .topic .program }
  else
    match Verb.ofName? word with
    | some verb => .ok { r with verb := some verb }
    | none => .error .misuse

/-- Reads the token of a verb that needs one. -/
def nameToken (r : Reading) (verb : Verb) (word : String) : Except Stop Reading :=
  if verb.needsToken && r.token.isNone then .ok { r with token := some word }
  else .error .misuse

/-- Reads a verb's name, or `help`, behind the word `help`. -/
def nameTopic (r : Reading) (topic : Topic) (word : String) : Except Stop Reading :=
  match topic, Verb.ofName? word with
  | .program, some verb => .ok { r with mode := .topic (.verb verb) }
  | .program, none =>
    if word = helpWord then .ok { r with mode := .topic .help } else .error .misuse
  | _, _ => .error .misuse

/-- Whether a word gives options; a dash alone does not. -/
def isOption (word : String) : Bool :=
  match word.toList with
  | '-' :: _ :: _ => true
  | _ => false

/-- Reads a word where options are possible. -/
def stepAny (r : Reading) (word : String) : Except Stop Reading :=
  match word.toList with
  | ['-', '-'] => .ok { r with mode := .verbatim }
  | '-' :: '-' :: rest => r.long rest
  | '-' :: c :: rest => r.letters (c :: rest)
  | _ =>
    match r.verb with
    | none => r.nameVerb word
    | some verb => r.nameToken verb word

/-- Reads a word. -/
def step (r : Reading) (word : String) : Except Stop Reading :=
  match r.mode with
  | .any => r.stepAny word
  | .textOf switch => if isOption word then .error .misuse else r.giveWord switch word
  | .topic topic => r.nameTopic topic word
  | .verbatim =>
    match r.verb with
    | none => .error .misuse
    | some verb => r.nameToken verb word

/-! ## The end of the line -/

/-- The text of an option; after the verb it counts more. -/
def text? (r : Reading) (switch : Switch) : Option String :=
  (r.after.lookup switch).or (r.before.lookup switch)

def has (r : Reading) (switch : Switch) : Bool := (r.text? switch).isSome

def settings (r : Reading) : Settings where
  json := r.has .json
  config := r.text? .config
  assets := r.text? .assets

/-- Where pictures go that no file is named for. -/
def defaultOutput : String := "koi.png"

/-- The command of a verb, unless it misses its token. -/
def command? (r : Reading) : Verb → Option Command
  | .attributes => r.token.map Command.attributes
  | .render => r.token.map fun token =>
    .render
      { token
        size := (r.text? .size).bind size?
        thumbnail := r.has .thumbnail
        output := (r.text? .output).getD defaultOutput }
  | .list => some (.list (r.text? .variant))
  | .checkAssets => some (.checkAssets (r.has .warm))

/-- What the whole line asks for. -/
def finish (r : Reading) : Except Stop (Settings × Command) :=
  match r.mode with
  | .topic topic => .error (.help topic)
  | .textOf _ => .error .misuse
  | .any | .verbatim => do
    let r ← r.settle
    match r.verb.bind r.command? with
    | some command => return (r.settings, command)
    | none => throw .misuse

end Reading

/-- The settings and command of a line. -/
def ofLine (words : List String) : Except Stop (Settings × Command) := do
  (← words.foldlM Reading.step {}).finish

end Koi.Command
