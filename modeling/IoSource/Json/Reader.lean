import IoSource.Json.Basic

/-!
# Reading JSON

The reader follows the grammar of RFC 8259, and takes the words that are written for special floats
besides. Each function returns what it has read and the text behind that. Nesting and items are
bounded by `fuel`, which the length of a text always suffices for.
-/

namespace IoSource.Json

/-- The white space that may stand between tokens. -/
def isInsignificant (c : Char) : Bool := c = ' ' || c = '\n' || c = '\r' || c = '\t'

def skipWhite (t : Text) : Text := t.dropWhile isInsignificant

def codeUnit? : Text → Option (Nat × Text)
  | a :: b :: c :: d :: rest => do
    let a ← Number.digitValue? 16 a
    let b ← Number.digitValue? 16 b
    let c ← Number.digitValue? 16 c
    let d ← Number.digitValue? 16 d
    return (((a * 16 + b) * 16 + c) * 16 + d, rest)
  | _ => none

/-- The character behind a backslash and a letter other than `u`. -/
def unescape? : Char → Option Char
  | '"' => some '"'
  | '\\' => some '\\'
  | '/' => some '/'
  | 'b' => some '\x08'
  | 'f' => some '\x0c'
  | 'n' => some '\n'
  | 'r' => some '\r'
  | 't' => some '\t'
  | _ => none

/-- The character of one code unit, or of two that form a surrogate pair. -/
def escapedUnit? (t : Text) : Option (Char × Text) := do
  let (high, rest) ← codeUnit? t
  if 0xD800 ≤ high ∧ high < 0xDC00 then
    match rest with
    | '\\' :: 'u' :: rest =>
      let (low, rest) ← codeUnit? rest
      if 0xDC00 ≤ low ∧ low < 0xE000 then
        return (Char.ofNat (0x10000 + (high - 0xD800) * 0x400 + (low - 0xDC00)), rest)
      else none
    | _ => none
  else if 0xDC00 ≤ high ∧ high < 0xE000 then none
  else return (Char.ofNat high, rest)

def readString? : (fuel : Nat) → Text → Option (Text × Text)
  | 0, _ => none
  | _, [] => none
  | _ + 1, '"' :: rest => some ([], rest)
  | fuel + 1, '\\' :: 'u' :: rest => do
    let (c, rest) ← escapedUnit? rest
    let (t, rest) ← readString? fuel rest
    return (c :: t, rest)
  | fuel + 1, '\\' :: letter :: rest => do
    let c ← unescape? letter
    let (t, rest) ← readString? fuel rest
    return (c :: t, rest)
  | fuel + 1, c :: rest =>
    if c.toNat < 0x20 ∨ c = '\\' then none
    else do
      let (t, rest) ← readString? fuel rest
      return (c :: t, rest)

def takeDigits (t : Text) : Text × Text := (t.takeWhile Char.isDigit, t.dropWhile Char.isDigit)

def readFraction? : Text → Option (Text × Text)
  | '.' :: rest =>
    match takeDigits rest with
    | ([], _) => none
    | result => some result
  | t => some ([], t)

def readExponent? : Text → Option (Option Int × Text)
  | c :: rest =>
    if c = 'e' ∨ c = 'E' then
      let (negative, rest) := match rest with
        | '-' :: rest => (true, rest)
        | '+' :: rest => (false, rest)
        | rest => (false, rest)
      match takeDigits rest with
      | ([], _) => none
      | (digits, rest) =>
        let size : Int := Number.ofDigits 10 digits
        some (some (if negative then -size else size), rest)
    else some (none, c :: rest)
  | [] => some (none, [])

/-- A number without its sign; it is an integer unless it has a fraction or an exponent. -/
def readUnsigned? (negative : Bool) (t : Text) : Option (Json × Text) :=
  match takeDigits t with
  | ([], _) | ('0' :: _ :: _, _) => none
  | (digits, rest) => do
    let (fraction, rest) ← readFraction? rest
    let (exponent, rest) ← readExponent? rest
    if fraction = [] ∧ exponent = none then
      let size : Int := Number.ofDigits 10 digits
      return (int (if negative then -size else size), rest)
    else
      let size := Number.floatOfDecimal (Number.ofDigits 10 (digits ++ fraction))
        (exponent.getD 0 - fraction.length)
      return (float (if negative then -size else size), rest)

def readNumber? : Text → Option (Json × Text)
  | '-' :: rest => readUnsigned? true rest
  | t => readUnsigned? false t

/-- The special floats, by the words that are written for them. -/
def specialWords : List (Text × Float) := [
  (specialFloats.nan, 0.0 / 0.0), (specialFloats.infinity, 1.0 / 0.0),
  (specialFloats.negativeInfinity, -1.0 / 0.0)]

/-- A number, or the word for a special float. -/
def readNumberOrWord? (t : Text) : Option (Json × Text) :=
  match specialWords.find? (·.1.isPrefixOf t) with
  | some (word, x) => some (float x, t.drop word.length)
  | none => readNumber? t

mutual

/-- A value, white space in front of it included. -/
def readValue? : (fuel : Nat) → Text → Option (Json × Text)
  | 0, _ => none
  | fuel + 1, t =>
    match skipWhite t with
    | 'n' :: 'u' :: 'l' :: 'l' :: rest => some (null, rest)
    | 't' :: 'r' :: 'u' :: 'e' :: rest => some (bool true, rest)
    | 'f' :: 'a' :: 'l' :: 's' :: 'e' :: rest => some (bool false, rest)
    | '"' :: rest => (readString? (rest.length + 1) rest).map fun (s, rest) => (string s, rest)
    | '[' :: rest =>
      match skipWhite rest with
      | ']' :: rest => some (array [], rest)
      | _ => do
        let (item, rest) ← readValue? fuel rest
        let (items, rest) ← readItems? fuel rest
        return (array (item :: items), rest)
    | '\x7b' :: rest =>
      match skipWhite rest with
      | '\x7d' :: rest => some (object [], rest)
      | _ => do
        let (member, rest) ← readMember? fuel rest
        let (members, rest) ← readMembers? fuel rest
        return (object (member :: members), rest)
    | t => readNumberOrWord? t

/-- The items behind the first one, up to the closing bracket. -/
def readItems? : (fuel : Nat) → Text → Option (List Json × Text)
  | 0, _ => none
  | fuel + 1, t =>
    match skipWhite t with
    | ']' :: rest => some ([], rest)
    | ',' :: rest => do
      let (item, rest) ← readValue? fuel rest
      let (items, rest) ← readItems? fuel rest
      return (item :: items, rest)
    | _ => none

def readMember? : (fuel : Nat) → Text → Option ((Text × Json) × Text)
  | 0, _ => none
  | fuel + 1, t =>
    match skipWhite t with
    | '"' :: rest => do
      let (key, rest) ← readString? (rest.length + 1) rest
      match skipWhite rest with
      | ':' :: rest => do
        let (value, rest) ← readValue? fuel rest
        return ((key, value), rest)
      | _ => none
    | _ => none

def readMembers? : (fuel : Nat) → Text → Option (List (Text × Json) × Text)
  | 0, _ => none
  | fuel + 1, t =>
    match skipWhite t with
    | '\x7d' :: rest => some ([], rest)
    | ',' :: rest => do
      let (member, rest) ← readMember? fuel rest
      let (members, rest) ← readMembers? fuel rest
      return (member :: members, rest)
    | _ => none

end

def read? (t : Text) : Option Json := do
  let (json, rest) ← readValue? (t.length + 1) t
  if skipWhite rest = [] then return json else none

/-- The member of an object with a key; of several the last one. -/
def member? (key : String) : Json → Option Json
  | object members => (members.reverse.find? (·.1 = key.toList)).map Prod.snd
  | _ => none

end IoSource.Json
