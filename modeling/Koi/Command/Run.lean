import Koi.Command.Help
import Koi.Command.Report
import Koi.Engine

/-!
# Running a command

A command runs on a host, which gives access to files, a format for images and a clock. The
configuration is read first, then the masks if the command needs them, and only then its own words
are looked at.

* `Command.report`: what a command does (`run`).
* `Command.run`: a whole program run, from the words of the line to the output (`main`).
-/

namespace Koi

/-- What a command needs from outside. -/
structure Host (m : Type → Type) where
  files : FileAccess m
  /-- The format of masks and pictures. -/
  codec : ImageCodec
  /-- The time in milliseconds. -/
  clock : m Nat

/-- Work on a cache that starts empty and is not kept. -/
def runFresh {α : Type} (work : CacheM α) : Except Error α :=
  (work.run.run Cache.empty).1

namespace Command

variable {m : Type → Type} [Monad m]

/-- Makes the picture of an order. -/
def draw (engine : Engine) (order : RenderOrder) (size : UInt32) : Except Error Image :=
  runFresh (if order.thumbnail then engine.thumbnail order.token size
    else engine.picture order.token size)

/-- Makes a picture and writes its file. -/
def renderReport (host : Host m) (config : Config) (order : RenderOrder) :
    ExceptT Halt m Report := do
  let size := order.edge config
  let engine ← Engine.load host.codec host.files config
  let picture ← draw engine order size
  host.codec.save host.files order.output picture
  return .rendered order size

/-- Scales the masks of an engine to the configured sizes. -/
def warming (host : Host m) (engine : Engine) : ExceptT Halt m Warming := do
  let start ← host.clock
  let counts ← runFresh engine.warmConfigured
  let stop ← host.clock
  return ⟨counts, stop - start⟩

/-- Checks the masks, and scales them if that is wanted. -/
def checkReport (host : Host m) (config : Config) (warm : Bool) : ExceptT Halt m Report := do
  let engine ← Engine.load host.codec host.files config
  let warmed ← if warm then some <$> warming host engine else pure none
  return .checked config.assetDir engine.store.size warmed

def listReport : Option String → Except Error Report
  | none => .ok .varieties
  | some name =>
    match Variety.ofName? name with
    | some variety => .ok (.variety variety)
    | none => .error (.unknownVariety name)

/-- Does what a command asks for under a configuration (`run`). -/
def report (host : Host m) (config : Config) : Command → ExceptT Halt m Report
  | .attributes token => do return .attributes token (← Attributes.generate token)
  | .render order => renderReport host config order
  | .list variety => listReport variety
  | .checkAssets warm => checkReport host config warm

/-- Does what a command asks for. -/
def execute (host : Host m) (settings : Settings) (command : Command) : m (Except Halt Report) :=
  ExceptT.run do command.report host (← settings.configure host.files)

/-- The output for a line without command. -/
def Stop.output : Stop → Output
  | .help topic => ⟨topic.helpLines, [], 0⟩
  | .misuse =>
    ⟨[], ["error: the arguments cannot be understood", "",
      "For more information, try '--" ++ Switch.help.name ++ "'."], 2⟩

/-- Runs the program with the words of its command line (`main`). -/
def run (host : Host m) (words : List String) : m Output :=
  match ofLine words with
  | .error stop => pure stop.output
  | .ok (settings, command) => do return .ofResult settings.json (← command.execute host settings)

end Command

end Koi
