import IoSource.Text.Run

/-!
# Cleaning up a file

Blanks at the end of a line and empty lines at the end of the text go. A line ends at a line feed,
also behind a carriage return, or at the end of the text.
-/

namespace IoSource.Text

/-- Whether the text that follows a place ends the line there. -/
def endsLine : (after : Text) → Bool
  | [] | ['\r'] => true
  | '\n' :: _ | '\r' :: '\n' :: _ => true
  | _ => false

def trimLineEnds (t : Text) : Text :=
  replaceRuns isBlank (fun _ run after => if endsLine after then [] else run) none t

/-- The line end that a cleaned text gets back: none if the text had none, and the Windows form
only if the text ended with it. -/
def finalLineEnd (t : Text) : Text :=
  match t.reverse with
  | '\n' :: '\r' :: _ => ['\r', '\n']
  | '\n' :: _ | '\r' :: _ => ['\n']
  | _ => []

/-- Remove blanks at line ends and empty lines at the end of the text. -/
def cleanUp (t : Text) : Text :=
  match dropEndWhile isLineBreak (trimLineEnds t) with
  | [] => []
  | body => body ++ finalLineEnd t

end IoSource.Text
