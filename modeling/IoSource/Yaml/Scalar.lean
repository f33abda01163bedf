import IoSource.Base64
import IoSource.Number.Literal
import IoSource.Text.Lowercase
import IoSource.Yaml.Datum
import IoSource.Yaml.Error
import IoSource.Yaml.Tag

/-!
# Scalars

What the text of a scalar stands for under a tag. Underscores in numbers say nothing, a leading zero
makes an integer octal, and colons stand between digits of base sixty.
-/

namespace IoSource.Yaml.Scalar

def readInteger (base : Nat) (t : WideText) : Except Error Int :=
  match Number.readInteger base t.visible with
  | .ok i => .ok i
  | .error .malformed => .error (.notAnInteger base t)
  | .error (.tooManyDigits count) => .error (.tooManyDigits count)

/-- A number without its underscores and its sign, of which it has at least a character, and whether
the sign is a minus. -/
def takeSign (t : WideText) : Except Error (Bool × WideText) :=
  match t.filter (· ≠ .char '_') with
  | [] => .error .emptyNumber
  | .char '-' :: rest => .ok (true, rest)
  | .char '+' :: rest => .ok (false, rest)
  | t => .ok (false, t)

/-- An integer without sign, by the notation of its base. -/
def readSize : WideText → Except Error Int
  | [] => .error .emptyNumber
  | [.char '0'] => .ok 0
  | .char '0' :: .char 'b' :: digits => readInteger 2 digits
  | .char '0' :: .char 'x' :: digits => readInteger 16 digits
  | .char '0' :: rest => readInteger 8 (.char '0' :: rest)
  | t => (t.cutAt ':').foldlM (fun n part => do return 60 * n + (← readInteger 10 part)) 0

def readInt (t : WideText) : Except Error Datum := do
  let (negative, t) ← takeSign t
  let size ← readSize t
  return .int (if negative then -size else size)

def readPart (t : WideText) : Except Error Float :=
  match Number.float? t.visible with
  | some x => .ok x
  | none => .error (.notAFloat t)

/-- The sum of digits of base sixty, the last of which comes first and weighs `weight`. -/
def sumSixtieths (sum : Float) (weight : Nat) : List Float → Except Error Float
  | [] => .ok sum
  | d :: ds =>
    let w := Float.ofNat weight
    if w.isInf then .error .weightTooLarge
    else sumSixtieths (sum + d * w) (weight * 60) ds

def readFloat (t : WideText) : Except Error Datum := do
  let (negative, t) ← takeSign t
  let t := t.lowercase
  let signed (x : Float) : Datum := .float (if negative then -x else x)
  if t = .ofText ".inf".toList then return signed (1.0 / 0.0)
  else if t = .ofText ".nan".toList then return .nan
  else
    match t.cutAt ':' with
    | [part] => return signed (← readPart part)
    | parts =>
      let digits ← parts.mapM readPart
      return signed (← sumSixtieths 0.0 1 digits.reverse)

def readTruth (t : WideText) : Except Error Datum :=
  let word := t.lowercase
  let isAmong (words : List String) : Bool := words.any fun w => word = .ofText w.toList
  if isAmong Tag.trueWords then .ok (.bool true)
  else if isAmong Tag.falseWords then .ok (.bool false)
  else .error (.notATruthValue word)

def readBytes (t : WideText) : Except Error Datum :=
  match t.text? with
  | none => .error .malformed
  | some t =>
    if t.any (0x80 ≤ ·.toNat) then .error .malformed
    else (Base64.decode? t).elim (.error .malformed) (.ok ∘ .bytes)

def readTimestamp (t : WideText) : Except Error Datum :=
  match t.text?.bind fun t => Timestamp.fields? (Tag.dropLineEnd t) with
  | none => .error .notATimestamp
  | some fields =>
    match Timestamp.ofFields fields with
    | .ok (.date d) => .ok (.date d)
    | .ok (.moment m) => .ok (.moment m)
    | .error cause => .error (.noSuchTime cause)

def tags : List Tag := [.null, .bool, .int, .float, .text, .binary, .timestamp]

/-- The datum of a text under the tag of a scalar; other tags have none. -/
def read (tag : Tag) (t : WideText) : Except Error Datum :=
  match tag with
  | .null => .ok .null
  | .bool => readTruth t
  | .int => readInt t
  | .float => readFloat t
  | .text => .ok (.text t)
  | .binary => readBytes t
  | .timestamp => readTimestamp t
  | _ => .error .malformed

end IoSource.Yaml.Scalar
