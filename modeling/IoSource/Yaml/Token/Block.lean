import IoSource.Number.Digits
import IoSource.Yaml.Token

/-!
# Block scalars

A block scalar is the lines below its header that are indented as its first line is, or as far as
the header says. The lines stay apart if it is literal; if it is folded, a break between two lines
that start with something other than a blank becomes a space. Breaks at the end are cut to one, all
dropped or all kept.
-/

namespace IoSource.Yaml

/-- What becomes of the breaks at the end. -/
inductive Chomping
  | clip
  | strip
  | keep
  deriving DecidableEq, Repr

def chomping? : Char → Option Chomping
  | '+' => some .keep
  | '-' => some .strip
  | _ => none

/-- The digit of a header, which is not zero. -/
def readIndent? (s : Spots) : Except Error (Option Nat × Spots) :=
  match Number.digitValue? 10 (Spots.charAt s 0) with
  | none => .ok (none, s)
  | some 0 => .error .malformed
  | some d => .ok (some d, s.drop 1)

def readChomping? (s : Spots) : Option Chomping × Spots :=
  match chomping? (Spots.charAt s 0) with
  | none => (none, s)
  | some chomping => (some chomping, s.drop 1)

/-- Chomping and indentation, in either order, and the rest of the line. -/
def readHeader (s : Spots) : Except Error (Chomping × Option Nat × Spots) := do
  let (before?, s) := readChomping? s
  let (indent?, s) ← readIndent? s
  let (after?, s) := if before?.isSome then (none, s) else readChomping? s
  if !(Spots.charAt s 0 = ' ' || isBreakOrEnd (Spots.charAt s 0)) then throw (Spots.unexpected s)
  return ((before?.or after?).getD .clip, indent?, ← Spots.skipLine? s)

/-- The breaks of the empty lines at the start, the largest column that their spaces reach, and the
first line that is not empty. -/
def readFirstIndent : Spots → Text × Nat × Spots
  | [] => ([], 0, [])
  | spot :: rest =>
    if spot.char = ' ' then
      let (breaks, most, s) := readFirstIndent rest
      (breaks, max (spot.column + 1) most, s)
    else if isBreak spot.char then
      let (breaks, most, s) := readFirstIndent rest
      (breakText spot.char :: breaks, most, s)
    else ([], 0, spot :: rest)

/-- The breaks of empty lines, and the next line from the column `indent` on. -/
def readBlockIndent (indent : Nat) : Spots → Text × Spots
  | [] => ([], [])
  | spot :: rest =>
    if spot.char = ' ' ∧ spot.column < indent then readBlockIndent indent rest
    else if isBreak spot.char then
      let (breaks, s) := readBlockIndent indent rest
      (breakText spot.char :: breaks, s)
    else ([], spot :: rest)

def isBlockLine (indent : Nat) (s : Spots) : Bool :=
  Spots.column s = indent && Spots.charAt s 0 ≠ endMark

/-- The lines of a scalar without the breaks at its end, the break of its last line, and those of
the empty lines behind it. `breaks` are the empty lines in front of the line that starts here. -/
def readBlockLines (folded : Bool) (indent : Nat) :
    (fuel : Nat) → (breaks : Text) → Spots → Text × Text × Text × Spots
  | 0, breaks, s => ([], [], breaks, s)
  | fuel + 1, breaks, s =>
    if !isBlockLine indent s then ([], [], breaks, s)
    else
      let startsBlank := isBlank (Spots.charAt s 0)
      let (line, s) := Spots.run (fun c => !isBreakOrEnd c) s
      let (lineBreak, s) := Spots.takeBreak s
      let (later, s) := readBlockIndent indent s
      if isBlockLine indent s then
        let between :=
          if folded && lineBreak = ['\n'] && !startsBlank && !isBlank (Spots.charAt s 0) then
            if later = [] then [' '] else []
          else lineBreak
        let (more, last, breaksAtEnd, s) := readBlockLines folded indent fuel later s
        (breaks ++ (line ++ (between ++ more)), last, breaksAtEnd, s)
      else (breaks ++ line, lineBreak, later, s)

/-- A block scalar behind its indicator, below a block of some indentation. -/
def readBlock (folded : Bool) (outer : Int) (s : Spots) : Except Error (Text × Spots) := do
  let (chomping, indent?, s) ← readHeader s
  let least := (max (outer + 1) 1).toNat
  let (indent, breaks, s) := match indent? with
    | some d =>
      let (breaks, s) := readBlockIndent (least + d - 1) s
      (least + d - 1, breaks, s)
    | none =>
      let (breaks, most, s) := readFirstIndent s
      (max least most, breaks, s)
  let (body, last, breaksAtEnd, s) := readBlockLines folded indent s.length breaks s
  return (match chomping with
    | .clip => body ++ last
    | .strip => body
    | .keep => body ++ (last ++ breaksAtEnd), s)

end IoSource.Yaml
