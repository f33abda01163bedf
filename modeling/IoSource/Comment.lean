import IoSource.Text.Pattern

/-!
# Comments

A line comment starts with `#` or `//` and ends before the next line break. A block comment starts
with `/*` and ends with the first `*/` behind that marker, or with the text. `length?` is the only
place that knows this grammar: deleting comments and highlighting them both read it, so they agree
on what a comment is.
-/

namespace IoSource.Comment

/-- The characters of a line that a line comment takes. -/
def restOfLine (t : Text) : Text := t.takeWhile fun c => !isLineBreak c

/-- The number of characters up to the end of an open block comment, its end marker included. -/
def blockLength : Text → Nat
  | [] => 0
  | '*' :: '/' :: _ => 2
  | _ :: rest => blockLength rest + 1

/-- The length of the comment that starts a text. -/
def length? : Text → Option Nat
  | '#' :: rest => some ((restOfLine rest).length + 1)
  | '/' :: '/' :: rest => some ((restOfLine rest).length + 2)
  | '/' :: '*' :: rest => some (blockLength rest + 2)
  | _ => none

def pattern : Pattern := fun _ rest => length? rest

/-- Keep the characters outside comments. -/
def erase (t : Text) : Text :=
  (t.zip (pattern.marks t)).filterMap fun (c, mark) => if mark.isNone then some c else none

/-- Whether a whole text reads as one comment. A block comment that spans the whole text may hold
end markers of its own. -/
def isWhole : Text → Bool
  | '#' :: rest => rest.all fun c => !isLineBreak c
  | '/' :: '/' :: rest => rest.all fun c => !isLineBreak c
  | '/' :: '*' :: _ => true
  | _ => false

/-! ### Comment lines

A line that starts with markers, behind its indentation, carries them on to the line that follows.
-/

/-- The line comment markers at the start of a text. -/
def leadingMarkers : Text → Text
  | '#' :: rest => '#' :: leadingMarkers rest
  | '/' :: '/' :: rest => '/' :: '/' :: leadingMarkers rest
  | _ => []

/-- The markers of a comment line and one space, if a space follows them. -/
def opening? (line : Text) : Option Text :=
  let body := line.dropWhile isBlank
  match leadingMarkers body with
  | [] => none
  | markers =>
    some (markers ++ if (body.drop markers.length).head? = some ' ' then [' '] else [])

def isLine (line : Text) : Bool := (opening? line).isSome

end IoSource.Comment
