import IoSource.Indent.TabWidth

/-!
# The lines above

A history is what an estimate may look at: a buffer, or another history up to some line. A view
reads through to the buffer and copies nothing, as long as there are not too many views in between.
It refuses every index outside it, while a buffer counts negative indices from its end. The error
shows the index, unless it has too many digits.
-/

namespace IoSource

/-- The place that an index names among `size` elements; negative indices count from the end. -/
def indexIn? (size : Nat) (index : Int) : Option Nat :=
  if 0 ≤ index then if index < size then some index.toNat else none
  else if -(size : Int) ≤ index then some (index + size).toNat else none

def bufferLine (lines : List Text) (index : Int) : Except EditError Text :=
  if !isIndex index then .error .indexTooLarge
  else match (indexIn? lines.length index).bind (lines[·]?) with
    | some line => .ok line
    | none => .error .noSuchLine

/-- The lines of a buffer, or those of a history before some line. -/
inductive History
  | buffer (lines : List Text)
  | upTo (history : History) (stop : Int)

namespace History

/-- The number of lines; a stop beyond the ends is moved to them. -/
def size : History → Nat
  | buffer lines => lines.length
  | upTo history stop => (min stop history.size).toNat

/-- The number of views between a history and its buffer. -/
def depth : History → Nat
  | buffer _ => 0
  | upTo history _ => history.depth + 1

variable [Platform]

def line : History → (index : Int) → Except EditError Text
  | buffer lines, index => bufferLine lines index
  | upTo history stop, index =>
    if 0 ≤ index ∧ index < (upTo history stop).size then
      if Platform.viewDepth < (upTo history stop).depth then .error .tooDeep
      else history.line index
    else if (Number.decimalInt? index).isSome then .error (.outsideView index)
    else .error .tooManyDigits

/-- The last of the lines before `n` that holds more than white space. -/
def lastNonBlankBelow (history : History) : (n : Nat) → Except EditError (Option Nat)
  | 0 => .ok none
  | n + 1 => do
    let line ← history.line n
    if line.isWhite then history.lastNonBlankBelow n else return some n

def lastNonBlank (history : History) (before : Int) : Except EditError (Option Nat) :=
  history.lastNonBlankBelow (min before history.size).toNat

end History

end IoSource
