import Koi.Command.Line

/-!
# Help

The help on a topic says what it is about, how it is used, and what the words mean. The entries of
a table have their explanations in one column.

* `Topic.helpLines`: the lines of the help on a topic.
-/

namespace Koi.Command

/-- The program's name. -/
def programName : String := "koi-engine"

/-! ## Explanations -/

def Verb.about : Verb → String
  | .attributes => "Print the attributes derived from a token id"
  | .render => "Render a token and write a PNG"
  | .list => "List variants and the layer names they draw from"
  | .checkAssets => "Load and verify the asset directory"

def Switch.about : Switch → String
  | .json => "Output as JSON instead of human-readable text"
  | .config => "JSON config file (asset_dir, warm_sizes, worker_threads, ...)"
  | .assets => "Asset directory; overrides the config file"
  | .size => "Output edge length in pixels; defaults to the configured size"
  | .thumbnail => "Render over the primary color at thumbnail size"
  | .output => s!"Output file path [default: {Reading.defaultOutput}]"
  | .variant => "Show one variant's pattern count bounds and candidate layers"
  | .warm => "Also pre-scale every mask to the configured sizes"
  | .help => "Print help"

def Topic.about : Topic → String
  | .program => "Koi NFT attribute and image generator"
  | .verb v => v.about
  | .help => "Print this message or the help of the given subcommand(s)"

/-! ## Tables -/

/-- A text filled up with blanks. -/
def padded (width : Nat) (text : String) : String :=
  text ++ String.ofList (List.replicate (width - text.length) ' ')

/-- A table under a title, or nothing if it is empty. -/
def table (title : String) (entries : List (String × String)) : List String :=
  if entries.isEmpty then []
  else
    let width := entries.foldl (fun width entry => max width entry.1.length) 0
    ["", title] ++ entries.map fun entry => "  " ++ padded width entry.1 ++ "  " ++ entry.2

/-- An option with both of its spellings. -/
def Switch.usage (switch : Switch) : String :=
  let letter := match switch.letter? with
    | some c => "-" ++ c.toString ++ ", "
    | none => "    "
  let text := if switch.takesText then " <" ++ switch.name.toUpper ++ ">" else ""
  letter ++ "--" ++ switch.name ++ text

/-- What decides between two options at the same place: the letter, or else the name. -/
def Switch.key (switch : Switch) : String :=
  match switch.letter? with
  | some c => c.toString
  | none => switch.name

/-- Two lists in one. Of two options at the same place the one with the smaller key comes first. -/
def interleave : List Switch → List Switch → List Switch
  | a :: as, b :: bs => (if a.key ≤ b.key then [a, b] else [b, a]) ++ interleave as bs
  | as, [] => as
  | [], bs => bs

/-- The options of a topic in the order of its help. -/
def Topic.switches : Topic → List Switch
  | .program => commonSwitches ++ [.help]
  | .verb v => interleave v.ownSwitches commonSwitches ++ [.help]
  | .help => []

/-! ## The whole text -/

def Topic.usage : Topic → String
  | .program => programName ++ " [OPTIONS] <COMMAND>"
  | .verb v =>
    programName ++ " " ++ v.name ++ " [OPTIONS]" ++ if v.needsToken then " <TOKEN>" else ""
  | .help => programName ++ " " ++ helpWord ++ " [COMMAND]..."

def Topic.commands : Topic → List (String × String)
  | .program => Verb.all.map (fun verb => (verb.name, verb.about)) ++ [(helpWord, Topic.help.about)]
  | _ => []

def Topic.arguments : Topic → List (String × String)
  | .program => []
  | .verb v => if v.needsToken then [("<TOKEN>", "Decimal token id")] else []
  | .help => [("[COMMAND]...", "Print help for the subcommand(s)")]

/-- The lines of the help on a topic. -/
def Topic.helpLines (topic : Topic) : List String :=
  [topic.about, "", "Usage: " ++ topic.usage] ++ table "Commands:" topic.commands ++
    table "Arguments:" topic.arguments ++
    table "Options:" (topic.switches.map fun switch => (switch.usage, switch.about))

end Koi.Command
