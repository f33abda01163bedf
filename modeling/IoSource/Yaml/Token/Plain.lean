import IoSource.Yaml.Token.Quoted

/-!
# Plain scalars

A scalar without quotes ends at a comment, at a colon with a gap behind it and, inside brackets, at
the characters that structure the brackets. It goes on over lines that are indented enough.
-/

namespace IoSource.Yaml

def isBracketOrComma (c : Char) : Bool := ",[]\x7b\x7d".toList.contains c

/-- Whether a plain scalar ends at a place. -/
def endsPlain (inFlow : Bool) (s : Spots) : Bool :=
  let c := Spots.charAt s 0
  let next := Spots.charAt s 1
  isGap c || (c = ':' && (isGap next || inFlow && isBracketOrComma next)) ||
    inFlow && (isBracketOrComma c || c = '?')

def readWord (inFlow : Bool) : Spots → Text × Spots
  | [] => ([], [])
  | spot :: rest =>
    if endsPlain inFlow (spot :: rest) then ([], spot :: rest)
    else
      let (more, s) := readWord inFlow rest
      (spot.char :: more, s)

/-- What stands between two words, and whether they stand on different lines. There is no text if
the scalar cannot go on. -/
def readGap (s : Spots) : Option Text × Bool × Spots :=
  let (spaces, s) := Spots.run (· = ' ') s
  let c := Spots.charAt s 0
  if isBreak c then
    match emptyLines (· = ' ') true (s.drop 1) with
    | (some more, s) => (some (fold c more), true, s)
    | (none, s) => (none, true, s)
  else (if spaces = [] then none else some spaces, false, s)

/-- A plain scalar of which the words on further lines stand at least `indent` columns in, unless
it is inside brackets. Also says whether a line break has been passed behind the last word. -/
def readPlain (inFlow : Bool) (indent : Int) : (fuel : Nat) → Spots → Text × Bool × Spots
  | 0, s => ([], false, s)
  | fuel + 1, s =>
    match readWord inFlow s with
    | ([], s) => ([], false, s)
    | (word, s) =>
      match readGap s with
      | (none, broken, s) => (word, broken, s)
      | (some gap, broken, s) =>
        if Spots.charAt s 0 = '#' ∨ (!inFlow ∧ Spots.column s < indent) ∨ endsPlain inFlow s then
          (word, broken, s)
        else
          let (more, brokenLater, s) := readPlain inFlow indent fuel s
          (word ++ (gap ++ more), brokenLater, s)

end IoSource.Yaml
