import IoSource.Json.Basic
import IoSource.Text.Spaces
import IoSource.Value

/-!
# Writing values as JSON

A value becomes a document first, and its text second, so a layout cannot change what is written. It
can change how many calls that takes: data that nest too deeply in one way may be written in another.
Sets are written in order; dictionaries and results are too, by their keys as they are and not by
the texts that the keys become, if the writer sorts.
-/

namespace IoSource

/-- Why a value has no JSON form. -/
inductive WriteError
  /-- The value has no JSON form. -/
  | unsupported (typeName : Text)
  /-- The key is not a text, a number, a truth value or nothing. -/
  | badKey (typeName : Text)
  /-- Two keys or elements have no order. -/
  | unordered
  /-- The type of a result stands where a result should. -/
  | notAResult
  /-- The indentation is neither a number of spaces nor a text. -/
  | badIndent (typeName : Text)
  /-- The indentation is too many spaces. -/
  | indentTooLarge (cause : SpacesError)
  /-- An integer has too many digits. -/
  | tooManyDigits
  /-- Data nest too deeply. -/
  | tooDeep
  deriving DecidableEq, Repr

namespace WriteError

def message : WriteError → Text
  | unsupported name =>
    "Object of type <class '".toList ++ name ++ "'> is not JSON serializable".toList
  | badKey name => "keys must be str, int, float, bool or None, not ".toList ++ name
  | unordered => "the keys have no order".toList
  | notAResult => "a type is not a result".toList
  | badIndent name =>
    "can't multiply sequence by non-int of type ".toList ++ Text.quoted name
  | indentTooLarge cause => cause.message
  | tooManyDigits => Number.tooManyDigits
  | tooDeep => depthExceeded

end WriteError

namespace Json

def keyText? : Value → Except WriteError Text
  | .text t => .ok t
  | .float x => .ok (floatText x)
  | .bool true => .ok ['t', 'r', 'u', 'e']
  | .bool false => .ok ['f', 'a', 'l', 's', 'e']
  | .null => .ok ['n', 'u', 'l', 'l']
  | .int i => (Number.decimalInt? i).elim (.error .tooManyDigits) .ok
  | key => .error (.badKey key.typeName)

/-- The first error of a list of results, or all of them. -/
def allOk {α : Type} : List (Except WriteError α) → Except WriteError (List α)
  | [] => .ok []
  | .error e :: _ => .error e
  | .ok x :: rest => do
    let xs ← allOk rest
    return x :: xs

/-- Sort what has been made of values by the values it was made of. -/
def sortedByValue {α : Type} (pairs : List (Value × α)) : Except WriteError (List (Value × α)) :=
  match sorted? (fun p q => p.1.before? q.1) pairs with
  | some pairs => .ok pairs
  | none => .error .unordered

def ofEntries (sortKeys : Bool) (entries : List (Value × Except WriteError Json)) :
    Except WriteError Json := do
  let entries ← if sortKeys then sortedByValue entries else .ok entries
  let members ← allOk (entries.map fun (key, json) => do return (← keyText? key, ← json))
  return object members

def ofElements (elements : List (Value × Except WriteError Json)) : Except WriteError Json := do
  let elements ← sortedByValue elements
  return array (← allOk (elements.map Prod.snd))

mutual

/-- The document that a value becomes. -/
def ofValue (sortKeys : Bool) : Value → Except WriteError Json
  | .null => .ok null
  | .bool b => .ok (bool b)
  | .int i => if (Number.decimalInt? i).isSome then .ok (int i) else .error .tooManyDigits
  | .float x => .ok (float x)
  | .text t => .ok (string t)
  | .list items => do return array (← allOk (ofItems sortKeys items))
  | .tuple items => do return array (← allOk (ofItems sortKeys items))
  | .set elements => ofElements (elements.zip (ofItems sortKeys elements))
  | .dict entries => ofEntries sortKeys ((entries.map Prod.fst).zip (ofValues sortKeys entries))
  | .path p => .ok (string p.text)
  | .category c => .ok (string c.label.toList)
  | .record fields =>
    ofEntries sortKeys ((fields.map fun f => Value.text f.1).zip (ofFields sortKeys fields))
  | .kind reports => .error (if reports then .notAResult else .unsupported "type".toList)
  | .foreign name _ => .error (.unsupported name)

def ofItems (sortKeys : Bool) : List Value → List (Except WriteError Json)
  | [] => []
  | value :: values => ofValue sortKeys value :: ofItems sortKeys values

def ofValues (sortKeys : Bool) : List (Value × Value) → List (Except WriteError Json)
  | [] => []
  | (_, value) :: entries => ofValue sortKeys value :: ofValues sortKeys entries

def ofFields (sortKeys : Bool) : List (Text × Value) → List (Except WriteError Json)
  | [] => []
  | (_, value) :: fields => ofValue sortKeys value :: ofFields sortKeys fields

end

end Json

namespace Value

mutual

/-- How many calls nest while a value is written, if each layer of it takes some. -/
def calls (cost : Layer → Nat) : Value → Nat
  | list items | tuple items => cost .list + callsOfItems cost items
  | set elements => cost .set + callsOfItems cost elements
  | dict entries => cost .dict + callsOfValues cost entries
  | record fields => cost .record + callsOfFields cost fields
  | path _ | category _ => cost .name
  | _ => 0

def callsOfItems (cost : Layer → Nat) : List Value → Nat
  | [] => 0
  | value :: values => max (calls cost value) (callsOfItems cost values)

def callsOfValues (cost : Layer → Nat) : List (Value × Value) → Nat
  | [] => 0
  | (_, value) :: entries => max (calls cost value) (callsOfValues cost entries)

def callsOfFields (cost : Layer → Nat) : List (Text × Value) → Nat
  | [] => 0
  | (_, value) :: fields => max (calls cost value) (callsOfFields cost fields)

end

/-- Whether the stack suffices for writing a value. -/
def fits [Platform] (value : Value) (mode : WritingMode) : Bool :=
  value.calls (Platform.calls mode) ≤ Platform.stack mode

end Value

/-- How values are written: over several lines unless `prettyPrint` is off, indented by a number of
spaces or by a text, and with sorted keys or not. -/
structure Writer where
  prettyPrint : Bool := true
  indent : Value := .int 2
  sortKeys : Bool := true

namespace Writer
variable [Platform]

/-- Truth values count as one space and none. -/
def layout? (w : Writer) : Except WriteError Json.Layout :=
  if w.prettyPrint then
    match w.indent with
    | .null => .ok .oneLine
    | .int i => .indented <$> (Text.spaces i).mapError .indentTooLarge
    | .bool b => .ok (.indented (if b then [' '] else []))
    | .text unit => .ok (.indented unit)
    | indent => .error (.badIndent indent.typeName)
  else .ok .oneLine

/-- Whether items start lines of their own. -/
def isIndented (w : Writer) : Bool :=
  w.prettyPrint && match w.indent with
    | .null => false
    | _ => true

/-- The document of a value, if it can be written in some way. That a value has no JSON form is said
first. -/
def document (w : Writer) (mode : WritingMode) (data : Value) : Except WriteError Json := do
  let json ← Json.ofValue w.sortKeys data
  if data.fits mode then return json else throw .tooDeep

def stream (w : Writer) (data : Value) : Except WriteError Text := do
  let layout ← w.layout?
  return (← w.document (.stream w.isIndented) data).write layout

/-- The text of a value. A text on its own needs no layout, whatever the indentation is. -/
def write (w : Writer) : (data : Value) → Except WriteError Text
  | .text t => .ok (Json.quote t)
  | data => do
    let layout ← w.layout?
    return (← w.document (.text w.isIndented) data).write layout

def compact (w : Writer) (data : Value) : Except WriteError Text := do
  return (← w.document .compact data).write .compact

end Writer

end IoSource
