import IoSource.Comment
import IoSource.Text.Run

/-!
# The one-line form of a fragment

An interpreter that reads line by line gets a whole fragment as one line: without comments, with
single blanks, closed up after `(` and `,` and before `)`, and with every other line break read as
the end of a statement. String literals are not told apart from code.
-/

namespace IoSource

/-- What stands between two statements on one line. -/
def statementSeparator : Text := [';', ' ']

namespace Text

/-- Each run of blanks becomes one space. -/
def squeezeBlanks (t : Text) : Text := replaceRuns isBlank (fun _ _ _ => [' ']) none t

/-- Whether a line broken after this character goes on without a new statement. -/
def opensGap (c : Char) : Bool := c = '(' || c = ','

/-- Drop the white space behind `(` and `,` and in front of `)`. -/
def closeBrackets (t : Text) : Text :=
  replaceRuns isSpace
    (fun before run after =>
      if before.any opensGap || after.head? = some ')' then [] else run) none t

/-- White space that holds a line break separates two statements. -/
def separateStatements (t : Text) : Text :=
  replaceRuns isSpace
    (fun _ run _ => if run.any isLineBreak then statementSeparator else run) none t

/-- The one-line form. Comments go first, so that the white space around them becomes one run. -/
def normalize (t : Text) : Text :=
  separateStatements (closeBrackets (strip (squeezeBlanks (Comment.erase t))))

/-- Cut at every separator; there is one more piece than there are separators. -/
def splitAtSeparators : Text → List Text
  | [] => [[]]
  | ';' :: ' ' :: rest => [] :: splitAtSeparators rest
  | c :: rest =>
    match splitAtSeparators rest with
    | [] => [[c]]
    | piece :: pieces => (c :: piece) :: pieces

/-- The statements of a one-line form; an empty line has none. -/
def statements (line : Text) : List Text :=
  match line with
  | [] => []
  | _ => splitAtSeparators line

end Text

end IoSource
