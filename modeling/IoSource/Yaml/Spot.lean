import IoSource.Yaml.Error

/-!
# Places in a YAML document

A document is read as a list of spots: its characters, each with the place where it stands, and an
end mark behind them. What a character means depends on its column, so the column comes with it and
reading is recursion on a list. Line ends have been made line feeds before.
-/

namespace IoSource.Yaml

/-- A text to read a document from. What keeps the rest from being read is met behind its last
character. -/
structure Source where
  text : Text
  fault? : Option Error := none
  deriving DecidableEq, Repr

/-- A character and its place. The index counts from the start of the document, the column from the
start of the line. -/
structure Spot where
  char : Char
  index : Nat
  line : Nat
  column : Nat
  deriving DecidableEq, Repr

abbrev Spots := List Spot

/-- What stands behind the last character. No document holds it as a character. -/
def endMark : Char := '\x00'

/-- The mark of the byte order, which takes no column. -/
def byteOrderMark : Char := '\ufeff'

/-- The characters that end a line. -/
def isBreak (c : Char) : Bool := c = '\n' || c = '\x85' || c = '\u2028' || c = '\u2029'

def isBreakOrEnd (c : Char) : Bool := isBreak c || c = endMark

/-- The characters that set an indicator apart from what follows it. -/
def isGap (c : Char) : Bool := isBlank c || isBreakOrEnd c

/-- What a line break counts as: the separators of Unicode stay what they are. -/
def breakText (c : Char) : Char := if c = '\x85' then '\n' else c

/-- The characters that a document may hold. -/
def isAllowed (c : Char) : Bool :=
  let n := c.toNat
  c = '\t' || c = '\n' || c = '\r' || (0x20 ≤ n && n ≤ 0x7E) || n = 0x85 ||
    (0xA0 ≤ n && n ≤ 0xD7FF) || (0xE000 ≤ n && n ≤ 0xFFFD) || 0x10000 ≤ n

def spotsFrom (index line column : Nat) : Text → Spots
  | [] => [⟨endMark, index, line, column⟩]
  | c :: rest =>
    ⟨c, index, line, column⟩ ::
      if isBreak c then spotsFrom (index + 1) (line + 1) 0 rest
      else spotsFrom (index + 1) line (if c = byteOrderMark then column else column + 1) rest

/-- The source of a text. One that holds other characters than a document may hold is not even begun
to be read. -/
def Source.ofText (text : Text) : Source :=
  if text.all isAllowed then { text } else { text := [], fault? := some .malformed }

/-- The spots of a source, without a byte order mark in front of it. -/
def spotsOf (source : Source) : Spots :=
  spotsFrom 0 0 0 (match source.text with
    | [] => []
    | c :: rest => if c = byteOrderMark then rest else c :: rest)

namespace Spots

def here (s : Spots) : Spot := s.head?.getD ⟨endMark, 0, 0, 0⟩

def column (s : Spots) : Nat := (here s).column

def charAt (s : Spots) (k : Nat) : Char := (s[k]?.map Spot.char).getD endMark

def isAtEnd (s : Spots) : Bool := charAt s 0 = endMark

def unexpected (s : Spots) : Error := if isAtEnd s then .unfinished else .malformed

/-- The characters up to the first that is not of a class, and the spots from there. -/
def run (p : Char → Bool) (s : Spots) : Text × Spots :=
  ((s.takeWhile (p ·.char)).map Spot.char, s.dropWhile (p ·.char))

def skip (p : Char → Bool) (s : Spots) : Spots := s.dropWhile (p ·.char)

/-- Whether three of a character stand here on their own, as they do between two documents. -/
def marks (s : Spots) (c : Char) : Bool :=
  charAt s 0 = c && charAt s 1 = c && charAt s 2 = c && isGap (charAt s 3)

def isDocumentMark (s : Spots) : Bool := marks s '-' || marks s '.'

/-- A line break, if there is one here. -/
def takeBreak (s : Spots) : Text × Spots :=
  if isBreak (charAt s 0) then ([breakText (charAt s 0)], s.drop 1) else ([], s)

/-- The rest of a line that holds nothing more but a comment. -/
def skipLine? (s : Spots) : Except Error Spots :=
  let s := skip (· = ' ') s
  let s := if charAt s 0 = '#' then skip (fun c => !isBreakOrEnd c) s else s
  if isBreakOrEnd (charAt s 0) then .ok (takeBreak s).2 else .error (unexpected s)

end Spots

end IoSource.Yaml
