import Koi.Png.Inflate

/-!
# Expanding data as it comes

Compressed data comes to hand in portions, and the room for its output grows in steps. As long as
more output may come, a repetition can reach back to the end of what is there, so that part of it
is kept back and cannot be used yet.

* `Arrival`: data that comes in portions.
* `Expansion.usable`: how much of the output can be used.
* `Expansion.until?`: the output as soon as enough of it can be used.
-/

namespace Koi.Png

/-! ## Portions -/

/-- What comes after all data. -/
inductive Ending where
  /-- Something else. -/
  | other
  /-- A sign that the data is damaged. -/
  | damage
  /-- Nothing at all, so that the data may have been cut off. -/
  | nothing
  deriving DecidableEq, Repr

/-- Bytes that come to hand little by little: at first up to the first stop, and so on. -/
structure Arrival where
  bytes : ByteArray
  stops : Array Nat
  ending : Ending

namespace Arrival

/-- No bytes. -/
def none : Arrival := ⟨.empty, #[], .other⟩

/-- Some more bytes, with their own stops. -/
def append (a : Arrival) (bytes : ByteArray) (stops : List Nat) : Arrival :=
  let before := a.bytes.size
  { a with
    bytes := a.bytes ++ bytes
    stops := stops.foldl (fun all stop => all.push (before + stop)) a.stops }

/-- The same bytes, with something else that comes after them. -/
def endingIn (a : Arrival) (ending : Ending) : Arrival := { a with ending }

end Arrival

/-! ## Output -/

/-- How far data has been expanded. Of the output, the first `filled` bytes have found room. -/
structure Expansion where
  state : Inflation
  filled : Nat

namespace Expansion

/-- Repetitions reach back so far. -/
def reach : Nat := 32768

/-- The room for output grows by so many bytes at a time. -/
def roomStep : Nat := 8192

/-- Whether no more output can come when `total` bytes are expected. -/
def isComplete (total : Nat) (e : Expansion) : Bool := e.filled = total || e.state.isClosed

/-- How many bytes of output can be used. -/
def usable (total : Nat) (e : Expansion) : Nat :=
  if e.isComplete total then e.filled else e.filled - reach

theorem usable_le_filled (total : Nat) (e : Expansion) : e.usable total ≤ e.filled := by
  unfold usable
  split
  · exact Nat.le_refl _
  · exact Nat.sub_le _ _

/-- Expands further, up to a stop and with room for so many bytes in all. -/
def advance? (room stop : Nat) : Expansion → Option Expansion
  | ⟨⟨out, phase, bits⟩, _⟩ =>
    (Inflation.run room ⟨out, phase, { bits with stop := 8 * stop }⟩).map fun state =>
      ⟨state, min room state.out.size⟩

/-- The output after the last portion, if the first `needed` bytes of it can be used. Where
    something else comes after the data, all output has to be there. -/
def conclude? (total needed : Nat) (ending : Ending) (e : Expansion) : Option ByteArray :=
  match ending with
  | .other => do
    let stop := e.state.bits.stop / 8
    let e ← e.advance? total stop
    if e.isComplete total ∧ needed ≤ e.filled then some e.state.out else none
  | .damage => none
  | .nothing => if needed ≤ e.filled then some e.state.out else none

/-- Expands further, up to each of the stops in turn, until the first `needed` bytes of the output
    can be used. What follows then does not matter. -/
def until? (total needed : Nat) (ending : Ending) (stops : List Nat) (e : Expansion) :
    Option ByteArray :=
  match stops with
  | [] => e.conclude? total needed ending
  | stop :: rest =>
    let filled := e.filled
    match e.advance? (min total (filled + roomStep)) stop with
    | none => none
    | some e =>
      if needed ≤ e.usable total then some e.state.out
      else if filled + roomStep ≤ e.filled ∧ e.filled < total ∧ !e.state.hasTakenAll then
        until? total needed ending (stop :: rest) e
      else until? total needed ending rest e
termination_by (stops.length, total - e.filled)
decreasing_by
  · have : 0 < roomStep := by decide
    apply Prod.Lex.right
    omega
  · apply Prod.Lex.left
    simp

end Expansion

end Koi.Png
