import IoSource.Comment
import IoSource.Indent.History

/-!
# Estimating indentation

The estimate goes one step deeper than the current indentation, and back to column zero where that
would leave the line more than one step deeper than the line above it. Repeated, it walks through
the depths that are worth offering. A line opened after another one starts at that line's depth, in
whole steps, and continues its comment.
-/

namespace IoSource

/-- One step deeper, unless the indentation is past that of the line above already. -/
def nextIndentation (tabWidth current previous : Nat) : Nat :=
  if previous < current then 0 else current + tabWidth

variable [Platform]

/-- The columns of a line of a history. -/
def History.indentation (history : History) (tabWidth : Nat) : Option Nat → Except EditError Nat
  | none => .ok 0
  | some index => do return (← history.line index).indentation tabWidth

/-- The indentation of a line below a history. An empty line stands in for the last line above it
that is not blank, and is compared with the one above that. -/
def estimateIndent (history : History) (line : Text) (tabWidth : Value) : Except EditError Nat := do
  let width ← checkTabWidth tabWidth
  let above ← history.lastNonBlank history.size
  if line.isWhite && line.indentation width = 0 then
    match above with
    | none => return nextIndentation width 0 0
    | some anchor =>
      let current ← history.indentation width (some anchor)
      let previous ← history.indentation width (← history.lastNonBlank anchor)
      return nextIndentation width current previous
  else
    let previous ← history.indentation width above
    return nextIndentation width (line.indentation width) previous

/-- How a line starts that is opened behind another one: its indentation, and the comment markers
that it continues. -/
structure Continuation where
  indent : Nat
  opening : Text
  deriving DecidableEq, Repr

/-- Whole steps of indentation, and the markers of a comment line. -/
def continuation (tabWidth indent : Nat) (line : Text) : Continuation :=
  ⟨indent / tabWidth * tabWidth, (Comment.opening? line).getD []⟩

/-- `continuation` for a tab width that has not been checked; a negative indentation is none. -/
def continuationIndent (indent : Int) (line : Text) (tabWidth : Value) :
    Except EditError Continuation := do
  return continuation (← checkTabWidth tabWidth) indent.toNat line

end IoSource
