import IoSource.Text.Wide
import IoSource.Time.Timestamp

/-!
# Tags

A tag is the type of a node. A plain scalar gets its tag from how it looks, by the rules of YAML
1.1; everything else is a text, a list or a mapping unless it carries a tag.
-/

namespace IoSource.Yaml

inductive Tag
  | null
  | bool
  | int
  | float
  | text
  | binary
  | list
  /-- A list of pairs, each written as a mapping of one entry. -/
  | pairs
  | mapping
  | set
  /-- The key whose value is a mapping to take entries from. -/
  | merge
  /-- The key whose value stands for its mapping. -/
  | default
  | timestamp
  | other (uri : Text)
  deriving DecidableEq, Repr

namespace Tag

/-- How the tags of the standard types start. -/
def standardStart : Text := "tag:yaml.org,2002:".toList

def ofUri (uri : Text) : Tag :=
  if standardStart.isPrefixOf uri then
    match String.ofList (uri.drop standardStart.length) with
    | "null" => null
    | "bool" => bool
    | "int" => int
    | "float" => float
    | "str" => text
    | "binary" => binary
    | "seq" => list
    | "omap" => pairs
    | "pairs" => pairs
    | "map" => mapping
    | "set" => set
    | "merge" => merge
    | "value" => default
    | "timestamp" => timestamp
    | _ => other uri
  else other uri

/-! ### The looks of plain scalars -/

def trueWords : List String := ["yes", "Yes", "YES", "true", "True", "TRUE", "on", "On", "ON"]

def falseWords : List String := ["no", "No", "NO", "false", "False", "FALSE", "off", "Off", "OFF"]

def nullWords : List String := ["", "~", "null", "Null", "NULL"]

def isOneOf (words : List String) (t : Text) : Bool := words.any (·.toList = t)

def dropSign : Text → Text
  | '+' :: rest | '-' :: rest => rest
  | t => t

def isDigitOrUnderscore (c : Char) : Bool := c.isDigit || c = '_'

def isDigits (t : Text) : Bool := (t.head?.any Char.isDigit) && t.all isDigitOrUnderscore

/-- A number below sixty of one or two digits. -/
def isSixtieth : Text → Bool
  | [c] => c.isDigit
  | [c, d] => '0' ≤ c && c ≤ '5' && d.isDigit
  | _ => false

/-- Digits of base sixty between colons; there are at least two. -/
def isSexagesimal (t : Text) : Bool :=
  match t.cutAt ':' with
  | first :: second :: more => isDigits first && (second :: more).all isSixtieth
  | _ => false

def looksInt (t : Text) : Bool :=
  match dropSign t with
  | '0' :: 'b' :: digits => digits ≠ [] && digits.all fun c => c = '0' || c = '1' || c = '_'
  | '0' :: 'x' :: digits =>
    digits ≠ [] && digits.all fun c => Number.isDigitOf 16 c || c = '_'
  | '0' :: digits => digits.all fun c => Number.isDigitOf 8 c || c = '_'
  | t => (isDigits t || isSexagesimal t) && t.head? ≠ some '0'

def isExponent : Text → Bool
  | [] => true
  | e :: sign :: digits =>
    (e = 'e' || e = 'E') && (sign = '+' || sign = '-') && digits ≠ [] && digits.all Char.isDigit
  | _ => false

def isFraction (t : Text) : Bool := isExponent (t.dropWhile isDigitOrUnderscore)

def looksFloat (t : Text) : Bool :=
  isOneOf [".inf", ".Inf", ".INF"] (dropSign t) || isOneOf [".nan", ".NaN", ".NAN"] t ||
    match t.head?, (dropSign t).takeWhile (· ≠ '.'), (dropSign t).dropWhile (· ≠ '.') with
    | some '.', _, _ => (t.drop 1).head?.any Char.isDigit && isFraction (t.drop 1)
    | _, whole, '.' :: rest =>
      (isDigits whole && isFraction rest) || (isSexagesimal whole && rest.all isDigitOrUnderscore)
    | _, _, _ => false

/-- A date on its own has two digits for month and day. -/
def looksTimestamp (t : Text) : Bool :=
  match Timestamp.fields? t with
  | some fields => fields.clock?.isSome || t.length = 10
  | none => false

def dropLineEnd : Text → Text
  | [] => []
  | [c, '\n'] => [c]
  | c :: rest => c :: dropLineEnd rest

/-- The tag of a scalar by its looks. -/
def ofLooks (t : Text) : Tag :=
  let t := dropLineEnd t
  if isOneOf trueWords t || isOneOf falseWords t then bool
  else if isOneOf nullWords t then null
  else if looksFloat t then float
  else if looksInt t then int
  else if t = ['<', '<'] then merge
  else if t = ['='] then default
  else if looksTimestamp t then timestamp
  else text

/-- The tag of a plain scalar. One that holds halves of surrogate pairs looks like nothing else. -/
def ofPlain (w : WideText) : Tag := (w.text?.map ofLooks).getD text

end Tag

end IoSource.Yaml
