import IoSource.Files.Utf8
import IoSource.Text.Wide
import IoSource.Time.Timestamp
import IoSource.Value

/-!
# Data with identity

What a document says is kept in a store: each datum has a number, and a collection holds the numbers
of what it contains. So one list can be the value of two keys, and be told apart from another list
that holds the same, and a collection can contain itself. Functions that follow the numbers take
fuel, of which the size of the store is enough.
-/

namespace IoSource.Yaml

inductive Datum
  | null
  | bool (b : Bool)
  | int (i : Int)
  | float (x : Float)
  /-- The float that is no number, by its name. -/
  | nan
  | text (t : WideText)
  | bytes (content : Utf8.Bytes)
  | date (d : Date)
  | moment (m : Moment)
  | list (items : List Nat)
  | pairs (items : List (Nat × Nat))
  | set (elements : List Nat)
  | dict (entries : List (Nat × Nat))
  deriving Inhabited

namespace Datum

/-- What a scalar says of itself. The number that is no number counts as a float. -/
def number? : Datum → Option Number
  | bool b => some (.int (if b then 1 else 0))
  | int i => some (.int i)
  | float x => some (.float x)
  | nan => some (.float (0.0 / 0.0))
  | _ => none

/-- Nothing, zero and what is empty do not hold; everything else does. -/
def holds : Datum → Bool
  | null => false
  | text [] | bytes [] | list [] | pairs [] | set [] | dict [] => false
  | datum => !datum.number?.any Number.isZero

def typeName : Datum → Text
  | null => "NoneType".toList
  | bool _ => "bool".toList
  | int _ => "int".toList
  | float _ | nan => "float".toList
  | text _ => "str".toList
  | bytes _ => "bytes".toList
  | date _ => "datetime.date".toList
  | moment _ => "datetime.datetime".toList
  | list _ | pairs _ => "list".toList
  | set _ => "set".toList
  | dict _ => "dict".toList

/-- Whether a datum can be a key. -/
def canBeKey : Datum → Bool
  | list _ | pairs _ | set _ | dict _ => false
  | _ => true

/-- Whether two data are one key, if they are not one and the same datum. -/
def same : Datum → Datum → Bool
  | null, null => true
  | nan, nan => true
  | text s, text t => s = t
  | bytes s, bytes t => s = t
  | date d, date e => d = e
  | moment m, moment n => m.same n
  | d, e =>
    match d.number?, e.number? with
    | some m, some n => m.compare? n == some .eq
    | _, _ => false

def shownBytes (content : Utf8.Bytes) : Text :=
  let t := content.map fun b => Char.ofNat b.toNat
  let quote := Text.quoteFor t
  let shown (c : Char) : Text :=
    if 0x7F ≤ c.toNat then '\\' :: 'x' :: Number.hexadecimal 2 c.toNat
    else Text.quotedChar quote c
  'b' :: quote :: (t.flatMap shown ++ [quote])

end Datum

/-- Data, each of which is known by its place. -/
abbrev Store := Array Datum

namespace Store

def datum (s : Store) (n : Nat) : Datum := s.getD n .null

/-- Whether two numbers stand for one key. -/
def sameKey (s : Store) (m n : Nat) : Bool := m = n || (s.datum m).same (s.datum n)

/-- The entries of a dictionary with one entry set: a new key goes to the end, a key that is there
keeps its place. -/
def setEntry (s : Store) (entries : List (Nat × Nat)) (key value : Nat) : List (Nat × Nat) :=
  match entries with
  | [] => [(key, value)]
  | (k, v) :: rest =>
    if s.sameKey k key then (k, value) :: rest else (k, v) :: setEntry s rest key value

def setEntries (s : Store) (entries added : List (Nat × Nat)) : List (Nat × Nat) :=
  added.foldl (fun all e => s.setEntry all e.1 e.2) entries

/-- The value at a key of a list of entries. -/
def lookup? (s : Store) (key : Datum) : List (Nat × Nat) → Option Nat
  | [] => none
  | (k, v) :: rest => if (s.datum k).same key then some v else lookup? s key rest

/-- What is shown in the place of a collection inside itself. -/
def shownAgain : Datum → Text
  | .dict _ => "{...}".toList
  | .set _ => "set(...)".toList
  | _ => "[...]".toList

mutual

/-- How messages show a datum inside those of some numbers, unless it holds an integer of too many
digits. -/
def shownIn? (s : Store) : (fuel : Nat) → (around : List Nat) → (n : Nat) → Option Text
  | 0, _, _ => none
  | fuel + 1, around, n =>
    if around.contains n then some (shownAgain (s.datum n))
    else
      let within := n :: around
      match s.datum n with
      | .null => some "None".toList
      | .bool true => some "True".toList
      | .bool false => some "False".toList
      | .int i => Number.decimalInt? i
      | .float x => some (Number.floatText Value.messageFloats x)
      | .nan => some Value.messageFloats.nan
      | .text t => some t.quoted
      | .bytes content => some (Datum.shownBytes content)
      | .date d => some d.shown
      | .moment m => some m.shown
      | .list items => do
        return '[' :: (Value.commaSeparated (← shownAll? s fuel within items) ++ [']'])
      | .pairs items => do
        let shown ← shownPairs? s fuel within items
        let pairs := shown.map fun (key, value) => '(' :: (key ++ ',' :: ' ' :: (value ++ [')']))
        return '[' :: (Value.commaSeparated pairs ++ [']'])
      | .set [] => some "set()".toList
      | .set elements => do
        return '\x7b' :: (Value.commaSeparated (← shownAll? s fuel within elements) ++ ['\x7d'])
      | .dict entries => do
        let shown ← shownPairs? s fuel within entries
        let entries := shown.map fun (key, value) => key ++ ':' :: ' ' :: value
        return '\x7b' :: (Value.commaSeparated entries ++ ['\x7d'])

def shownAll? (s : Store) : (fuel : Nat) → (around : List Nat) → List Nat → Option (List Text)
  | _, _, [] => some []
  | 0, _, _ => none
  | fuel + 1, around, n :: ns => do
    return (← shownIn? s fuel around n) :: (← shownAll? s (fuel + 1) around ns)

def shownPairs? (s : Store) :
    (fuel : Nat) → (around : List Nat) → List (Nat × Nat) → Option (List (Text × Text))
  | _, _, [] => some []
  | 0, _, _ => none
  | fuel + 1, around, (m, n) :: more => do
    let pair := (← shownIn? s fuel around m, ← shownIn? s fuel around n)
    return pair :: (← shownPairs? s (fuel + 1) around more)

end

/-- How messages show a datum. Between a collection and one inside it two calls nest. -/
def shown? (s : Store) (n : Nat) : Option Text := s.shownIn? (2 * s.size + 2) [] n

/-- A value that is not looked into. -/
def closedValue (s : Store) (n : Nat) : Value :=
  .foreign (s.datum n).typeName (s.shown? n)

/-- The value of a datum, which is not looked into unless it is a scalar. -/
def value (s : Store) (n : Nat) : Value :=
  match s.datum n with
  | .null => .null
  | .bool b => .bool b
  | .int i => .int i
  | .float x => .float x
  | .nan => .float (0.0 / 0.0)
  | .text t =>
    match t.text? with
    | some t => .text t
    | none => s.closedValue n
  | _ => s.closedValue n

end Store

end IoSource.Yaml
