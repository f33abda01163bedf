import IoSource.Yaml.Token.Name

/-!
# Quoted scalars

A scalar in quotes may go on over several lines. The break between two lines and the blanks around
it become one space; empty lines between them stay as line feeds, less the first. Single quotes are
doubled to write one, double quotes admit escapes, also of halves of surrogate pairs.
-/

namespace IoSource.Yaml

/-- The breaks of the empty lines that follow a break, and the spots of the first line that is not
empty. Characters of the class `skipped` do not count as something on a line. A line that marks the
end of a document has no continuation: there is no text then. -/
def emptyLines (skipped : Char → Bool) : (atStart : Bool) → Spots → Option Text × Spots
  | _, [] => (some [], [])
  | atStart, spot :: rest =>
    if atStart && Spots.isDocumentMark (spot :: rest) then (none, spot :: rest)
    else if skipped spot.char then emptyLines skipped false rest
    else if isBreak spot.char then
      let (more?, s) := emptyLines skipped true rest
      (more?.map (breakText spot.char :: ·), s)
    else (some [], spot :: rest)

/-- What a break and the breaks of the empty lines behind it become. -/
def fold (first : Char) (more : Text) : Text :=
  if breakText first ≠ '\n' then first :: more
  else if more = [] then [' ']
  else more

/-- The characters that a letter behind a backslash stands for. -/
def escapes : List (Char × Char) := [
  ('0', '\x00'), ('a', '\x07'), ('b', '\x08'), ('t', '\t'), ('\t', '\t'), ('n', '\n'),
  ('v', '\x0b'), ('f', '\x0c'), ('r', '\r'), ('e', '\x1b'), (' ', ' '), ('"', '"'), ('\\', '\\'),
  ('/', '/'), ('N', '\x85'), ('_', '\xa0'), ('L', '\u2028'), ('P', '\u2029')]

def escapeWidth? : Char → Option Nat
  | 'x' => some 2
  | 'u' => some 4
  | 'U' => some 8
  | _ => none

def maxCode : Nat := 0x10FFFF

/-- What stands behind a backslash. A break there is no part of the text. -/
def readEscape : Spots → Except Error (WideText × Spots)
  | [] => .error .unfinished
  | spot :: rest =>
    match escapes.find? (·.1 = spot.char), escapeWidth? spot.char with
    | some (_, c), _ => .ok ([.char c], rest)
    | none, some width => do
      let code := Number.ofDigits 16 (← readHexDigits width rest)
      if maxCode < code then throw (.noSuchCharacter code)
      return ([Point.ofCode code], rest.drop width)
    | none, none =>
      if isBreak spot.char then
        match emptyLines isBlank true rest with
        | (some t, s) => .ok (WideText.ofText t, s)
        | (none, _) => .error .malformed
      else .error (Spots.unexpected (spot :: rest))

/-- Blanks and breaks inside a scalar: the blanks as they are, unless a break follows them. -/
def readWhite (s : Spots) : Except Error (Text × Spots) :=
  let (blanks, s) := Spots.run isBlank s
  let c := Spots.charAt s 0
  if isBreak c then
    match emptyLines isBlank true (s.drop 1) with
    | (some more, s) => .ok (fold c more, s)
    | (none, _) => .error .malformed
  else .ok (blanks, s)

def readQuoted (quote : Char) : (fuel : Nat) → Spots → Except Error (WideText × Spots)
  | 0, _ => .error .unfinished
  | fuel + 1, s => do
    let c := Spots.charAt s 0
    if c = endMark then throw .unfinished
    else if c = quote ∧ (quote = '"' ∨ Spots.charAt s 1 ≠ quote) then return ([], s.drop 1)
    else
      let (t, s) ←
        if c = quote then pure ([.char quote], s.drop 2)
        else if c = '\\' ∧ quote = '"' then readEscape (s.drop 1)
        else if isBlank c ∨ isBreak c then do
          let (t, s) ← readWhite s
          pure (WideText.ofText t, s)
        else pure ([.char c], s.drop 1)
      let (more, s) ← readQuoted quote fuel s
      return (t ++ more, s)

end IoSource.Yaml
