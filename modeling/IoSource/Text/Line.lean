import IoSource.Text.Basic

/-!
# Lines

A line ends at any of Unicode's line terminators, and a carriage return with the line feed after it
is one terminator. `lines` gives the lines without their terminators; `unixLineEnds` reads the three
line ends of text files as a line feed.
-/

namespace IoSource

def isLineTerminator (c : Char) : Bool :=
  [0x0A, 0x0B, 0x0C, 0x0D, 0x1C, 0x1D, 0x1E, 0x85, 0x2028, 0x2029].contains c.toNat

namespace Text

def consLine (c : Char) : List Text → List Text
  | [] => [[c]]
  | line :: lines => (c :: line) :: lines

/-- The lines of a text; a terminator at the very end opens no further line. -/
def lines : Text → List Text
  | [] => []
  | '\r' :: '\n' :: rest => [] :: lines rest
  | c :: rest => if isLineTerminator c then [] :: lines rest else consLine c (lines rest)

def unixLineEnds : Text → Text
  | [] => []
  | '\r' :: '\n' :: rest => '\n' :: unixLineEnds rest
  | c :: rest => (if c = '\r' then '\n' else c) :: unixLineEnds rest

end Text

end IoSource
