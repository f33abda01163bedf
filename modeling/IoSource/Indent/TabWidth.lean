import IoSource.Text.Spaces
import IoSource.Value

/-!
# Tab widths and columns

Spaces take one column and tabs go to the next multiple of the tab width. A tab width is a positive
integer; before it has been checked it may be any value, and measuring a line with it fails only if
the line leads with a tab and the value cannot be computed with.
-/

namespace IoSource

/-- Why an edit, or an estimate that it needs, fails. -/
inductive EditError
  /-- The value is no positive integer. -/
  | badTabWidth (given : Value)
  /-- A tab cannot be measured in steps of zero columns. -/
  | zeroTabWidth
  /-- A tab cannot be measured with what is no number. -/
  | tabWidthNotANumber (typeName : Text)
  /-- The buffer has no such line to read. -/
  | noSuchLine
  /-- The buffer has no such line to change. -/
  | noSuchLineToChange
  /-- The line lies outside a view of the buffer. -/
  | outsideView (index : Int)
  /-- So does this one, and its index has too many digits to be shown. -/
  | tooManyDigits
  /-- There are too many views of views. -/
  | tooDeep
  /-- The integer is too large for the index of a line. -/
  | indexTooLarge
  /-- The integer is too large for the place of a new line. -/
  | placeTooLarge
  /-- A line cannot be indented that much. -/
  | spaces (cause : SpacesError)

namespace EditError

def message : EditError → Text
  | badTabWidth given =>
    match given.shown? with
    | some t => "Tab width must be a positive integer, got ".toList ++ t
    | none => Number.tooManyDigits
  | zeroTabWidth => "division by zero".toList
  | tabWidthNotANumber name => "a tab width cannot be a ".toList ++ name
  | noSuchLine => "list index out of range".toList
  | noSuchLineToChange => "list assignment index out of range".toList
  | outsideView index => "line index ".toList ++ Number.decimalInt index ++ " out of range".toList
  | tooManyDigits => Number.tooManyDigits
  | tooDeep => depthExceeded
  | indexTooLarge => IoSource.indexTooLarge
  | placeTooLarge => "Python int too large to convert to C ssize_t".toList
  | spaces cause => cause.message

end EditError

def defaultTabWidth : Nat := 8

/-- The tab width that a value stands for. -/
def checkTabWidth : Value → Except EditError Nat
  | .int i => if 0 < i then .ok i.toNat else .error (.badTabWidth (.int i))
  | value => .error (.badTabWidth value)

namespace Text

/-- The column behind the leading spaces and tabs of a text that starts in some column. -/
def indentationFrom (tabWidth column : Nat) : Text → Nat
  | ' ' :: rest => indentationFrom tabWidth (column + 1) rest
  | '\t' :: rest => indentationFrom tabWidth (column + (tabWidth - column % tabWidth)) rest
  | _ => column

/-- The columns of a line's leading spaces and tabs. -/
def indentation (tabWidth : Nat) (line : Text) : Nat := indentationFrom tabWidth 0 line

/-- `indentationFrom` for a tab width that has not been checked. -/
def measureFrom (tabWidth : Value) (column : Number) : Text → Except EditError Number
  | ' ' :: rest => measureFrom tabWidth (column.add (.int 1)) rest
  | '\t' :: rest =>
    match tabWidth.number? with
    | none => .error (.tabWidthNotANumber tabWidth.typeName)
    | some width =>
      match column.mod? width with
      | none => .error .zeroTabWidth
      | some past => measureFrom tabWidth (column.add (width.sub past)) rest
  | _ => .ok column

/-- `indentation` for a tab width that has not been checked. -/
def measure (tabWidth : Value) (line : Text) : Except EditError Number :=
  measureFrom tabWidth (.int 0) line

end Text

end IoSource
