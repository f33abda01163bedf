import IoSource.Indent.Estimate

/-!
# Editing a buffer

An edit is a program over the lines of a buffer that may fail. What it has changed before it fails
stays changed, so that an edit leaves a buffer alone on failure only if it checks first and changes
last; breaking a line cuts it before there is room for the next one. Indices may be negative and
then count from the end.
-/

namespace IoSource

abbrev Buffer := List Text

/-- A program that reads and changes a buffer and may fail. -/
abbrev Edit := ExceptT EditError (StateM Buffer)

/-- The place before which an index inserts or cuts, among `size` elements. -/
def cutIn (size : Nat) (index : Int) : Nat :=
  if 0 ≤ index then min index.toNat size else (index + size).toNat

namespace Edit
def ofExcept {α : Type} : Except EditError α → Edit α
  | .ok x => pure x
  | .error e => throw e

def lineAt (index : Int) : Edit Text := do ofExcept (bufferLine (← get) index)

/-- The place of a line that is to be changed. -/
def placeOf (index : Int) : Edit Nat := do
  if !isIndex index then throw .indexTooLarge
  match indexIn? (← get).length index with
  | some place => return place
  | none => throw .noSuchLineToChange

def replaceLine (index : Int) (line : Text) : Edit Unit := do
  let place ← placeOf index
  modify fun lines => lines.set place line

def removeLine (index : Int) : Edit Unit := do
  let place ← placeOf index
  modify fun lines => lines.eraseIdx place

/-- Insert a line before an index; an index beyond the ends inserts there. -/
def insertLine (index : Int) (line : Text) : Edit Unit := do
  if !isIndex index then throw .placeTooLarge
  modify fun lines =>
    let place := cutIn lines.length index
    lines.take place ++ line :: lines.drop place

variable [Platform]

def spaces (width : Nat) : Edit Text := ofExcept ((Text.spaces width).mapError .spaces)

/-- Give a line the indentation estimated from the lines before it, in spaces. -/
def applyIndent (index : Int) (tabWidth : Value) : Edit Nat := do
  let line ← lineAt index
  let width ← ofExcept (estimateIndent (.upTo (.buffer (← get)) index) line tabWidth)
  replaceLine index ((← spaces width) ++ line.dropWhile isBlank)
  return width

/-- Break a line at a column and open the next one with the rest of it. -/
def splitLine (index column : Int) (tabWidth : Value) : Edit Continuation := do
  let line ← lineAt index
  let head := line.take (cutIn line.length column)
  let tail := line.drop (cutIn line.length column)
  discard (ofExcept (line.measure tabWidth))
  let width ← ofExcept (checkTabWidth tabWidth)
  let next := continuation width (line.indentation width) head
  replaceLine index (Text.dropEndWhile isBlank head)
  insertLine (index + 1) ((← spaces next.indent) ++ (next.opening ++ tail.dropWhile isBlank))
  return next

end Edit

end IoSource
