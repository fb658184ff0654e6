/-!
# What can go wrong

Every failure of the library is a cause with the data that caused it. The wording stands in
`Error.message` alone.

* `TokenFault`, `ColorFault`, `ConfigFault`: why a piece of text was refused.
* `Error`: the causes, over all parts of the library (`EngineError`).
* `Halt`: how work on files ends before it is done, with a failure or with a panic.
-/

namespace Koi

/-- Why a text is not a token id. -/
inductive TokenFault where
  | empty
  | notDecimal (text : String)
  | tooLarge (text : String)
  deriving DecidableEq, Repr

/-- One of the three components of a color. -/
inductive Component where
  | red
  | green
  | blue
  deriving DecidableEq, Repr

/-- Why a text is not a color; `digits` is the text without a leading `#`. -/
inductive ColorFault where
  | wrongLength (digits : String)
  | badComponent (component : Component)
  deriving DecidableEq, Repr

/-- Why a configuration file was refused. -/
inductive ConfigFault where
  | unreadable
  | notJson
  | notAnObject
  deriving DecidableEq, Repr

/-- The failures of the library (`EngineError`). -/
inductive Error where
  | invalidToken (fault : TokenFault)
  | unknownAsset (name : String)
  /-- A directory of masks, or a mask in it, that cannot be read. -/
  | assetLoad (path : String)
  | invalidDimensions
  | invalidColor (fault : ColorFault)
  | emptyPalette
  | unknownVariety (name : String)
  | config (path : String) (fault : ConfigFault)
  | notWritten (path : String)
  deriving DecidableEq, Repr

/-- How work on files ends before it is done. -/
inductive Halt where
  /-- A failure, which is handed to the caller. -/
  | failure (e : Error)
  /-- A panic. Nobody is told of a cause: the program ends where it stands. -/
  | panic
  deriving DecidableEq, Repr

instance {m : Type → Type} [Monad m] : MonadLift (Except Error) (ExceptT Halt m) where
  monadLift result := ExceptT.mk (pure (result.mapError .failure))

/-- The longest edge, in pixels, that an image may have (`MAX_SIZE`). -/
def maxEdge : Nat := 4096

def Component.name : Component → String
  | .red => "red"
  | .green => "green"
  | .blue => "blue"

def TokenFault.message : TokenFault → String
  | .empty => "empty token id"
  | .notDecimal text => s!"'{text}' is not a decimal integer"
  | .tooLarge text => s!"'{text}' exceeds 256 bits"

def ColorFault.message : ColorFault → String
  | .wrongLength digits => s!"expected 6 hex digits, got '{digits}'"
  | .badComponent component =>
    "invalid " ++ component.name ++ " component: invalid digit found in string"

/-- The text that is shown for a failure. -/
def Error.message : Error → String
  | .invalidToken fault => "invalid token id: " ++ fault.message
  | .unknownAsset name => s!"unknown asset: {name}"
  | .assetLoad path => s!"failed to load asset '{path}'"
  | .invalidDimensions =>
    s!"invalid dimensions: width and height must be between 1 and {maxEdge}"
  | .invalidColor fault => "invalid color: " ++ fault.message
  | .emptyPalette => "invalid palette: pick_among requires at least 1 color range"
  | .unknownVariety name => s!"unknown variant: {name}"
  | .config path .notAnObject => s!"invalid configuration: {path}: expected a JSON object"
  | .config path _ => s!"invalid configuration: {path}"
  | .notWritten path => s!"i/o error: {path} cannot be written"

end Koi
