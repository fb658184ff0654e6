import Koi.Attributes.Json
import Koi.Catalog
import Koi.Command
import Koi.Json.Printer
import Koi.Mask.Cache

/-!
# Reports

A command that succeeds makes a report, and one that fails an error. Both are written as text or as
JSON, to the standard output or to the error output, and decide about the exit code.

* `Report.lines`, `Report.toJson`: what a report says.
* `Error.exitCode`: the exit code of a failure; a panic has its own in `Output.panicked`.
* `Output.ofResult`: everything that is written.
-/

namespace Koi

/-- What scaling in advance did, and how long it took in milliseconds. -/
structure Warming where
  counts : WarmCounts
  milliseconds : Nat
  deriving DecidableEq, Repr

/-- What a command has done. -/
inductive Report where
  | attributes (token : String) (attributes : Attributes)
  | rendered (order : RenderOrder) (size : UInt32)
  | varieties
  | variety (variety : Variety)
  | checked (dir : String) (masks : Nat) (warming : Option Warming)
  deriving DecidableEq, Repr

namespace Report

/-! ## Text -/

/-- Names in a row. -/
def commaSeparated (names : List String) : String := ", ".intercalate names

def attributesLines (token : String) (a : Attributes) : List String :=
  ["Token:   " ++ token, "Variant: " ++ a.variety.name, "Primary: " ++ a.primaryColor.toHex,
    "Body:    " ++ a.bodyColor.toHex, "Fin:     " ++ a.finColor.toHex,
    s!"Patterns ({a.patternQuantity}):"] ++
  a.patterns.map fun layer => "  " ++ layer.name.render ++ " " ++ layer.color.toHex

/-- The names in the pool of a region. They do not depend on the seed of the palette. -/
def poolNames (variety : Variety) (region : Region) : List String :=
  ((Palette.pick variety 0).candidates region).map fun layer => layer.name.render

/-- The bounds on the number of patterns of a region. -/
def poolCounts (variety : Variety) (region : Region) : CountRange :=
  (Palette.pick variety 0).counts region

def regionLine (variety : Variety) (region : Region) : String :=
  let counts := poolCounts variety region
  s!"  {region.name} ({counts.least}..{counts.bound}): " ++
    commaSeparated (poolNames variety region)

def catalogNames : List String := Catalog.names.map LayerName.render

def checkedLines (dir : String) (masks : Nat) (warming : Option Warming) : List String :=
  s!"{dir}: {masks} masks, catalog complete" ::
    match warming with
    | none => []
    | some ⟨counts, ms⟩ => [s!"warmed {counts.sizes} sizes ({counts.scaled} masks) in {ms}ms"]

/-- A report for people. -/
def lines : Report → List String
  | .attributes token a => attributesLines token a
  | .rendered order size => [s!"rendered {order.token} ({size}x{size}) -> {order.output}"]
  | .varieties =>
    "Variants:" :: (Variety.all.map fun variety => "  " ++ variety.name) ++
      ["Layers:", "  " ++ commaSeparated catalogNames]
  | .variety v => (v.name ++ ":") :: Region.all.map (regionLine v)
  | .checked dir masks warming => checkedLines dir masks warming

/-- Whether the text of a report goes to the standard output. The standard output of a picture
    stays free. -/
def isResult : Report → Bool
  | .rendered _ _ => false
  | _ => true

/-! ## JSON -/

def ofStrings (texts : List String) : Json := .array (texts.map Json.string)

def ofCount? (count : Option Nat) : Json :=
  match count with
  | none => .null
  | some n => .ofNat n

def regionJson (variety : Variety) (region : Region) : Json :=
  let counts := poolCounts variety region
  .object
    [("category", .string region.name), ("layers", ofStrings (poolNames variety region)),
      ("max", .ofNat counts.bound), ("min", .ofNat counts.least)]

/-- A report for programs. -/
def toJson : Report → Json
  | .attributes token a =>
    .object
      [("attributes", a.toJson), ("metadata", a.metadata), ("token", .string token)]
  | .rendered order size =>
    .object
      [("output", .string order.output), ("size", .ofNat size.toNat),
        ("thumbnail", .bool order.thumbnail), ("token", .string order.token)]
  | .varieties =>
    .object
      [("layers", ofStrings catalogNames), ("variants", ofStrings (Variety.all.map Variety.name))]
  | .variety v =>
    .object
      [("categories", .array (Region.all.map (regionJson v))), ("variant", .string v.name)]
  | .checked dir masks warming =>
    .object
      [("asset_dir", .string dir), ("masks", .ofNat masks),
        ("scaled", ofCount? (warming.map fun w => w.counts.scaled)),
        ("warm_ms", ofCount? (warming.map Warming.milliseconds)),
        ("warmed_sizes", ofCount? (warming.map fun w => w.counts.sizes))]

end Report

/-! ## Failures -/

/-- The exit code of a failure (`exit_code`): 11 if a file cannot be written, 12 if the token, the
    configuration or the variety is wrong, and 10 for masks and for sizes. -/
def Error.exitCode : Error → UInt8
  | .notWritten _ => 11
  | .invalidToken _ | .config _ _ | .unknownVariety _ => 12
  | _ => 10

def Error.toJson (e : Error) : Json :=
  .object [("error", .string e.message), ("exit_code", .ofNat e.exitCode.toNat)]

/-! ## Output -/

/-- What a program run writes, in lines or several lines together, and its exit code. -/
structure Output where
  out : List String
  err : List String
  exitCode : UInt8
  deriving DecidableEq, Repr

namespace Output

def ofReport (json : Bool) (report : Report) : Output :=
  if json then ⟨[report.toJson.pretty], [], 0⟩
  else if report.isResult then ⟨report.lines, [], 0⟩
  else ⟨[], report.lines, 0⟩

def ofError (json : Bool) (e : Error) : Output :=
  ⟨[], [if json then e.toJson.pretty else "error: " ++ e.message], e.exitCode⟩

/-- The output for a panic. The program itself writes nothing: what can be seen besides is the
    report of its runtime, which also chooses the exit code. -/
def panicked : Output := ⟨[], [], 101⟩

/-- The output for what a command has come to. -/
def ofResult (json : Bool) : Except Halt Report → Output
  | .ok report => ofReport json report
  | .error (.failure e) => ofError json e
  | .error .panic => panicked

end Output

end Koi
