import IoSource.Files.Utf8
import IoSource.Yaml.Token

/-!
# Anchors, tags and directives

Each function reads what one indicator introduces, from the indicator on, and returns it with the
spots behind it.
-/

namespace IoSource.Yaml

def isNameChar (c : Char) : Bool := c.isAlphanum || c = '-' || c = '_'

def isTagChar (c : Char) : Bool := c.isAlphanum || "-;/?:@&=+$,_.!~*'()[]".toList.contains c

def endsName (c : Char) : Bool := isGap c || "?:,]\x7d%@\x60".toList.contains c

def endsTag (c : Char) : Bool := c = ' ' || isBreakOrEnd c

def readName (s : Spots) : Except Error (Text × Spots) :=
  match Spots.run isNameChar (s.drop 1) with
  | ([], s) => .error (Spots.unexpected s)
  | (name, s) => if endsName (Spots.charAt s 0) then .ok (name, s) else .error .malformed

def readHexDigits : (count : Nat) → Spots → Except Error Text
  | 0, _ => .ok []
  | count + 1, s =>
    if Number.isDigitOf 16 (Spots.charAt s 0) then do
      return Spots.charAt s 0 :: (← readHexDigits count (s.drop 1))
    else .error (Spots.unexpected s)

/-- The bytes of escapes, each a percent sign and two hexadecimal digits. -/
def readEscapedBytes : (fuel : Nat) → Spots → Except Error (Utf8.Bytes × Spots)
  | 0, s => .ok ([], s)
  | fuel + 1, s =>
    if Spots.charAt s 0 = '%' then do
      let digits ← readHexDigits 2 (s.drop 1)
      let (bytes, s) ← readEscapedBytes fuel (s.drop 3)
      return (UInt8.ofNat (Number.ofDigits 16 digits) :: bytes, s)
    else return ([], s)

/-- The characters of a tag; escapes stand for bytes in UTF-8. -/
def readTagChars : (fuel : Nat) → Spots → Except Error (Text × Spots)
  | 0, s => .ok ([], s)
  | fuel + 1, s => do
    let c := Spots.charAt s 0
    if c = '%' then
      let (bytes, s) ← readEscapedBytes s.length s
      match Utf8.decode bytes with
      | .error _ => throw .malformed
      | .ok t =>
        let (more, s) ← readTagChars fuel s
        return (t ++ more, s)
    else if isTagChar c then
      let (more, s) ← readTagChars fuel (s.drop 1)
      return (c :: more, s)
    else return ([], s)

def readTagText (s : Spots) : Except Error (Text × Spots) := do
  match ← readTagChars s.length s with
  | ([], s) => throw (Spots.unexpected s)
  | result => return result

/-- A handle: an exclamation mark, or a name between two of them. -/
def readHandle (s : Spots) : Except Error (Text × Spots) :=
  if Spots.charAt s 0 ≠ '!' then .error (Spots.unexpected s)
  else if Spots.charAt s 1 = ' ' then .ok (['!'], s.drop 1)
  else
    let (name, s) := Spots.run isNameChar (s.drop 1)
    if Spots.charAt s 0 = '!' then .ok ('!' :: (name ++ ['!']), s.drop 1)
    else .error (Spots.unexpected s)

/-- A tag from its exclamation mark on: a whole one in angle brackets, the mark on its own, or a
handle and the rest. -/
def readTag (s : Spots) : Except Error (Token × Spots) := do
  let next := Spots.charAt s 1
  let (tag, s) ←
    if next = '<' then do
      let (text, s) ← readTagText (s.drop 2)
      if Spots.charAt s 0 ≠ '>' then throw (Spots.unexpected s)
      pure (Token.tag none text, s.drop 1)
    else if isGap next then pure (Token.tag none ['!'], s.drop 1)
    else if (Spots.run (fun c => !endsTag c) (s.drop 1)).1.contains '!' then do
      let (handle, s) ← readHandle s
      let (rest, s) ← readTagText s
      pure (Token.tag (some handle) rest, s)
    else do
      let (rest, s) ← readTagText (s.drop 1)
      pure (Token.tag (some ['!']) rest, s)
  if endsTag (Spots.charAt s 0) then return (tag, s) else throw .malformed

def readVersionPart (s : Spots) : Except Error (Nat × Spots) :=
  match Spots.run Char.isDigit s with
  | ([], s) => .error (Spots.unexpected s)
  | (digits, s) =>
    if Number.maxDecimalDigits < digits.length then .error (.tooManyDigits digits.length)
    else .ok (Number.ofDigits 10 digits, s)

/-- A directive from its percent sign on, with the rest of its line. -/
def readDirective (s : Spots) : Except Error (Directive × Spots) := do
  let (name, s) := Spots.run isNameChar (s.drop 1)
  if name = [] ∨ !endsTag (Spots.charAt s 0) then throw (Spots.unexpected s)
  let (directive, s) ←
    if name = "YAML".toList then do
      let (major, s) ← readVersionPart (Spots.skip (· = ' ') s)
      if Spots.charAt s 0 ≠ '.' then throw (Spots.unexpected s)
      let (_, s) ← readVersionPart (s.drop 1)
      if !endsTag (Spots.charAt s 0) then throw Error.malformed
      pure (Directive.version major, s)
    else if name = "TAG".toList then do
      let (handle, s) ← readHandle (Spots.skip (· = ' ') s)
      if Spots.charAt s 0 ≠ ' ' then throw (Spots.unexpected s)
      let (start, s) ← readTagText (Spots.skip (· = ' ') s)
      if !endsTag (Spots.charAt s 0) then throw Error.malformed
      pure (Directive.handle handle start, s)
    else pure (Directive.other, Spots.skip (fun c => !isBreakOrEnd c) s)
  return (directive, ← Spots.skipLine? s)

end IoSource.Yaml
