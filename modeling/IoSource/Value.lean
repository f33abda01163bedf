import IoSource.Files.Path
import IoSource.Highlight.Category
import IoSource.Number.Mixed
import IoSource.Number.Shortest
import IoSource.Text.Order
import IoSource.Text.Quoted

/-!
# Values

What a configuration holds, what a tab width may be given as, and what a JSON writer accepts: data
of any shape, among them some that have no use in one place or another. Each user of a value says
which of them it takes.
-/

namespace IoSource

/-- Data of any shape. `record` is a result that shows its fields by name, `kind` the type of a
result in place of a result (`reports` tells whether its results know how to show themselves), and
`foreign` a value of which only the name of its type and what messages show are known. -/
inductive Value
  | null
  | bool (b : Bool)
  | int (i : Int)
  | float (x : Float)
  | text (t : Text)
  | list (items : List Value)
  | tuple (items : List Value)
  | set (elements : List Value)
  | dict (entries : List (Value × Value))
  | path (p : Path)
  | category (c : Category)
  | record (fields : List (Text × Value))
  | kind (reports : Bool)
  | foreign (typeName : Text) (shown? : Option Text)
  deriving Inhabited

namespace Value

/-- The number that a value counts as; truth values count as one and zero. -/
def number? : Value → Option Number
  | bool b => some (.int (if b then 1 else 0))
  | int i => some (.int i)
  | float x => some (.float x)
  | _ => none

/-- Nothing, zero and what is empty do not hold; everything else does. -/
def holds : Value → Bool
  | null => false
  | text [] | list [] | tuple [] | set [] | dict [] => false
  | value => !value.number?.any Number.isZero

/-- The name of a value's type in messages. -/
def typeName : Value → Text
  | null => "NoneType".toList
  | bool _ => "bool".toList
  | int _ => "int".toList
  | float _ => "float".toList
  | text _ => "str".toList
  | list _ => "list".toList
  | tuple _ => "tuple".toList
  | set _ => "set".toList
  | dict _ => "dict".toList
  | path _ => "PosixPath".toList
  | category _ => "HighlightCategory".toList
  | record _ => "object".toList
  | kind _ => "type".toList
  | foreign name _ => name

def messageFloats : Number.FloatNotation :=
  ⟨['n', 'a', 'n'], ['i', 'n', 'f'], ['-', 'i', 'n', 'f']⟩

def commaSeparated (ts : List Text) : Text := (ts.intersperse [',', ' ']).flatten

mutual

/-- How messages show a value, unless it holds an integer of too many digits. -/
def shown? : Value → Option Text
  | null => some "None".toList
  | bool true => some "True".toList
  | bool false => some "False".toList
  | int i => Number.decimalInt? i
  | float x => some (Number.floatText messageFloats x)
  | text t => some t.quoted
  | list items => do return '[' :: (commaSeparated (← shownItems? items) ++ [']'])
  | tuple items => do
    let close := if items.length = 1 then [',', ')'] else [')']
    return '(' :: (commaSeparated (← shownItems? items) ++ close)
  | set elements => do return '{' :: (commaSeparated (← shownItems? elements) ++ ['}'])
  | dict entries => do return '{' :: (commaSeparated (← shownEntries? entries) ++ ['}'])
  | path p => some ("PosixPath(".toList ++ p.text.quoted ++ [')'])
  | category c => some c.label.toList
  | record fields => do return '{' :: (commaSeparated (← shownFields? fields) ++ ['}'])
  | kind _ => some "<class 'type'>".toList
  | foreign _ shown? => shown?

def shownItems? : List Value → Option (List Text)
  | [] => some []
  | value :: values => do return (← value.shown?) :: (← shownItems? values)

def shownEntries? : List (Value × Value) → Option (List Text)
  | [] => some []
  | (key, value) :: entries => do
    return ((← key.shown?) ++ ':' :: ' ' :: (← value.shown?)) :: (← shownEntries? entries)

def shownFields? : List (Text × Value) → Option (List Text)
  | [] => some []
  | (name, value) :: fields => do
    return (name ++ '=' :: (← value.shown?)) :: (← shownFields? fields)

end

mutual

/-- Whether two values are one key or one element: numbers by what they count as. -/
def same : Value → Value → Bool
  | null, null => true
  | text s, text t => s == t
  | path p, path q => p == q
  | category c, category d => c == d
  | tuple xs, tuple ys => sameItems xs ys
  | v, w =>
    match v.number?, w.number? with
    | some m, some n => m.compare? n == some .eq
    | _, _ => false

def sameItems : List Value → List Value → Bool
  | [], [] => true
  | v :: vs, w :: ws => v.same w && sameItems vs ws
  | _, _ => false

end

mutual

/-- Whether a value comes before another one; values of unlike kinds have no order. -/
def before? : Value → Value → Option Bool
  | text s, text t => some (Text.before s t)
  | path p, path q => some (p.before q)
  | tuple xs, tuple ys => itemsBefore? xs ys
  | foreign s _, foreign t _ => if s = t then some false else none
  | v, w => do
    let m ← v.number?
    let n ← w.number?
    return m.compare? n == some .lt

/-- Tuples are ordered by the first items in which they differ. -/
def itemsBefore? : List Value → List Value → Option Bool
  | _, [] => some false
  | [], _ :: _ => some true
  | v :: vs, w :: ws => if v.same w then itemsBefore? vs ws else v.before? w

end

/-- The entries of a dictionary with one entry set: a new key goes to the end, a key that is there
keeps its place. -/
def setEntry (entries : List (Value × Value)) (key value : Value) : List (Value × Value) :=
  match entries with
  | [] => [(key, value)]
  | (k, v) :: rest =>
    if k.same key then (k, value) :: rest else (k, v) :: setEntry rest key value

def setEntries (entries added : List (Value × Value)) : List (Value × Value) :=
  added.foldl (fun all e => setEntry all e.1 e.2) entries

/-- The set of some values: of those that are the same the first stays. -/
def ofElements (values : List Value) : Value :=
  set (values.foldl (fun kept v => if kept.any (·.same v) then kept else kept ++ [v]) [])

end Value

end IoSource
