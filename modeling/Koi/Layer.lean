import Koi.Color
import Koi.Decimal
import Koi.Rank

/-!
# Layers

A koi is drawn in layers. Three layers belong to every koi: the body, the fins and the outline.
The others are numbered patterns, each made for one region.

* `LayerName.render`, `LayerName.parse`: a name's text, such as `body_7`, and reading it.
* `LayerName.rank`: the order of names, body, fin and outline first, then the patterns.
* `LayerName.fileName`, `LayerName.ofFileName?`: the file with a layer's mask.
* `Layer`: a name with the color it is painted in.
-/

namespace Koi

/-- The part of the fish that a pattern is made for (`Category`). -/
inductive Region where
  | body
  | head
  | fin
  deriving DecidableEq, Repr

namespace Region

/-- All regions, in the order in which they are painted (`ALL`). -/
def all : List Region := [.body, .head, .fin]

def name : Region → String
  | .body => "body"
  | .head => "head"
  | .fin => "fin"

def ofName? (text : String) : Option Region :=
  all.find? fun region => region.name = text

/-- The place of a region in the painting order. -/
def rank : Region → Nat
  | .body => 0
  | .head => 1
  | .fin => 2

theorem rank_injective {a b : Region} (h : a.rank = b.rank) : a = b := by
  cases a <;> cases b <;> first | rfl | exact absurd h (by decide)

end Region

/-- The name of a layer (`LayerName`). -/
inductive LayerName where
  | body
  | fin
  | outline
  | pattern (region : Region) (number : UInt8)
  deriving DecidableEq, Repr

namespace LayerName

/-! ## Text -/

/-- The text of a name. -/
def render : LayerName → String
  | .body => "body"
  | .fin => "fin"
  | .outline => "outline"
  | .pattern region number => region.name ++ "_" ++ toString number.toNat

instance : ToString LayerName := ⟨render⟩

/-- A pattern number is written without sign and leading zero, and lies between 1 and 255. -/
def number? (digits : List Char) : Option UInt8 :=
  if digits ≠ [] ∧ digits.head? ≠ some '0' ∧ digits.all Char.isDigit ∧ Decimal.value digits < 256
  then some (Decimal.value digits).toUInt8
  else none

/-- The name of a pattern, cut at its first underscore. -/
def pattern? (text : String) : Option LayerName :=
  match text.toList.dropWhile (· ≠ '_') with
  | [] => none
  | _ :: digits => do
    let region ← Region.ofName? (String.ofList (text.toList.takeWhile (· ≠ '_')))
    let number ← number? digits
    return .pattern region number

/-- Reads a name. -/
def parse? (text : String) : Option LayerName :=
  if text = "body" then some .body
  else if text = "fin" then some .fin
  else if text = "outline" then some .outline
  else pattern? text

/-- Reads a name (`from_str`); any other text is an asset that nobody knows. -/
def parse (text : String) : Except Error LayerName :=
  match parse? text with
  | some name => .ok name
  | none => .error (.unknownAsset text)

/-! ## Files -/

/-- How the names of mask files end. -/
def fileEnding : String := ".png"

/-- The name of the file that holds a layer's mask (`file_name`). -/
def fileName (name : LayerName) : String :=
  name.render ++ fileEnding

/-- The layer whose mask a file holds, by the file's name. -/
def ofFileName? (file : String) : Option LayerName :=
  let stem := file.toList.take (file.length - fileEnding.length)
  if file.toList.drop (file.length - fileEnding.length) = fileEnding.toList then
    parse? (String.ofList stem)
  else none

/-! ## Order -/

/-- The place of a name in the order of names. -/
def rank : LayerName → Nat
  | .body => 0
  | .fin => 1
  | .outline => 2
  | .pattern region number => 3 + 256 * region.rank + number.toNat

theorem rank_injective {a b : LayerName} (h : a.rank = b.rank) : a = b := by
  cases a <;> cases b <;> simp only [rank] at h <;> try first | rfl | omega
  case pattern.pattern ra m rb n =>
    have hm := m.toNat_lt
    have hn := n.toNat_lt
    have hr : ra = rb := Region.rank_injective (by omega)
    subst hr
    rw [UInt8.toNat_inj.1 (by omega : m.toNat = n.toNat)]

theorem rank_lt (name : LayerName) : name.rank < 1024 := by
  cases name <;> simp only [rank] <;> try omega
  case pattern region number =>
    have := number.toNat_lt
    cases region <;> simp only [Region.rank] <;> omega

instance : Ord LayerName := ⟨compareRank rank⟩

instance : Std.TransOrd LayerName := inferInstanceAs (Std.TransCmp (compareRank rank))

instance : Std.LawfulEqOrd LayerName := lawfulEqCmp_compareRank rank_injective

/-- Puts a name in front of the first one that does not come before it. -/
def insertSorted (name : LayerName) : List LayerName → List LayerName
  | [] => [name]
  | other :: rest =>
    if name.rank ≤ other.rank then name :: other :: rest else other :: insertSorted name rest

/-- Names in order; repeated ones stay. -/
def sort : List LayerName → List LayerName
  | [] => []
  | name :: rest => insertSorted name (sort rest)

end LayerName

/-- A layer and the color it is painted in (`ColoredLayer`). -/
structure Layer where
  name : LayerName
  color : Color
  deriving DecidableEq, Repr

/-- The patterns of a region with the numbers from `first` to `last`, all in one color
    (`numbered`). -/
def Layer.numbered (region : Region) (first last : Nat) (color : Color) : List Layer :=
  (List.range' first (last + 1 - first)).map fun i => ⟨.pattern region i.toUInt8, color⟩

end Koi
