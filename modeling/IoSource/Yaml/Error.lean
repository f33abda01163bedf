import IoSource.Platform
import IoSource.Text.Wide
import IoSource.Time.Timestamp

/-!
# Errors in YAML

What is wrong with the form of a document has no message of its own. What is wrong with a scalar
has: it shows the text that does not mean what its tag says.
-/

namespace IoSource.Yaml

/-- Why a text is not read as a value. -/
inductive Error
  | malformed
  /-- The text ends where something must follow. -/
  | unfinished
  /-- The bytes of the document are no text; `message` says where. -/
  | encoding (message : Text)
  /-- The text of an integer of a base is none. -/
  | notAnInteger (base : Nat) (text : WideText)
  /-- A decimal integer has more digits than are read. -/
  | tooManyDigits (count : Nat)
  /-- A number has no characters. -/
  | emptyNumber
  | notAFloat (text : WideText)
  /-- A digit of base sixty stands so far in front that its weight is no float. -/
  | weightTooLarge
  | notATruthValue (text : WideText)
  /-- An escape names a code that no text can hold. -/
  | noSuchCharacter (code : Nat)
  | notATimestamp
  /-- A mapping stands for a timestamp. -/
  | timestampOfMapping
  | noSuchTime (cause : TimeError)
  /-- Nodes nest too deeply, or a mapping that stands for the scalar in it contains itself. -/
  | tooDeep
  deriving DecidableEq, Repr

namespace Error

/-- The length beyond which the text of an integer is cut off in a message. -/
def maxShownInteger : Nat := 200

/-- The codes that are too large to be looked at. -/
def maxEscape : Nat := 0x7FFFFFFF

def message : Error → Text
  | malformed | unfinished => "malformed document".toList
  | encoding message => message
  | notAnInteger base t =>
    "invalid literal for int() with base ".toList ++ Number.decimal base ++
      ':' :: ' ' :: t.quoted.take maxShownInteger
  | tooManyDigits count => Number.tooManyDigitsGiven count
  | emptyNumber => "string index out of range".toList
  | notAFloat t => "could not convert string to float: ".toList ++ t.quoted
  | weightTooLarge => "int too large to convert to float".toList
  | notATruthValue t => t.quoted
  | noSuchCharacter code =>
    if maxEscape < code then "Python int too large to convert to C int".toList
    else "chr() arg not in range(0x110000)".toList
  | notATimestamp => "not a timestamp".toList
  | timestampOfMapping => "a mapping is not a timestamp".toList
  | noSuchTime cause => cause.message
  | tooDeep => depthExceeded

end Error

end IoSource.Yaml
