import IoSource.Number.Shortest

/-!
# JSON documents

A document is written in a layout, which says what stands between the items and whether each item
starts a line of its own. Layouts change white space outside strings only. Strings keep every
character that JSON does not force to be escaped.
-/

namespace IoSource

/-- A JSON document. The members of an object are kept in order, and numbers with a fraction or an
exponent apart from integers. -/
inductive Json
  | null
  | bool (b : Bool)
  | int (i : Int)
  | float (x : Float)
  | string (t : Text)
  | array (items : List Json)
  | object (members : List (Text × Json))
  deriving Inhabited

namespace Json

/-- What stands between items and behind a key, and what one step of indentation is, if items start
lines of their own. -/
structure Layout where
  comma : Text
  colon : Text
  indent? : Option Text
  deriving DecidableEq, Repr

namespace Layout

/-- No white space at all. -/
def compact : Layout := ⟨[','], [':'], none⟩

/-- One line, with a space behind commas and colons. -/
def oneLine : Layout := ⟨[',', ' '], [':', ' '], none⟩

def indented (unit : Text) : Layout := ⟨[','], [':', ' '], some unit⟩

/-- What comes before an item at a depth. -/
def lineStart (layout : Layout) (depth : Nat) : Text :=
  match layout.indent? with
  | none => []
  | some unit => '\n' :: (List.replicate depth unit).flatten

end Layout

def escapedChar (c : Char) : Text :=
  if c = '"' ∨ c = '\\' then ['\\', c]
  else if c = '\n' then ['\\', 'n']
  else if c = '\r' then ['\\', 'r']
  else if c = '\t' then ['\\', 't']
  else if c = '\x08' then ['\\', 'b']
  else if c = '\x0c' then ['\\', 'f']
  else if c.toNat < 0x20 then '\\' :: 'u' :: Number.hexadecimal 4 c.toNat
  else [c]

def quote (t : Text) : Text := '"' :: (t.flatMap escapedChar ++ ['"'])

/-- Special floats, which are no JSON numbers but are written all the same. -/
def specialFloats : Number.FloatNotation :=
  ⟨['N', 'a', 'N'], "Infinity".toList, "-Infinity".toList⟩

def floatText (x : Float) : Text := Number.floatText specialFloats x

mutual

/-- The text of a document of which the first character stands at a depth. -/
def render (layout : Layout) (depth : Nat) : Json → Text
  | null => ['n', 'u', 'l', 'l']
  | bool true => ['t', 'r', 'u', 'e']
  | bool false => ['f', 'a', 'l', 's', 'e']
  | int i => Number.decimalInt i
  | float x => floatText x
  | string t => quote t
  | array [] => ['[', ']']
  | array (item :: items) =>
    '[' :: (layout.lineStart (depth + 1) ++ (render layout (depth + 1) item ++
      (renderItems layout (depth + 1) items ++ (layout.lineStart depth ++ [']']))))
  | object [] => ['\x7b', '\x7d']
  | object ((key, value) :: members) =>
    '\x7b' :: (layout.lineStart (depth + 1) ++ (quote key ++ (layout.colon ++
      (render layout (depth + 1) value ++ (renderMembers layout (depth + 1) members ++
        (layout.lineStart depth ++ ['\x7d']))))))

def renderItems (layout : Layout) (depth : Nat) : List Json → Text
  | [] => []
  | item :: items =>
    layout.comma ++ (layout.lineStart depth ++
      (render layout depth item ++ renderItems layout depth items))

def renderMembers (layout : Layout) (depth : Nat) : List (Text × Json) → Text
  | [] => []
  | (key, value) :: members =>
    layout.comma ++ (layout.lineStart depth ++ (quote key ++ (layout.colon ++
      (render layout depth value ++ renderMembers layout depth members))))

end

def write (layout : Layout) (json : Json) : Text := json.render layout 0

end Json

end IoSource
