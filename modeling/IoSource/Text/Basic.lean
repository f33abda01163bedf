/-!
# Texts

A text is the list of its code points, so an offset is a list length and a region is a sublist.
`isSpace`, `isBlank` and `isLineBreak` are the three classes of white characters that the tools tell
apart: all of white space, what may stand inside a line, and what ends one.
-/

namespace IoSource

abbrev Text := List Char

/-- The code points of Unicode's `White_Space` property together with the four information
separators, as closed ranges. -/
def spaceRanges : List (Nat × Nat) :=
  [(0x09, 0x0D), (0x1C, 0x20), (0x85, 0x85), (0xA0, 0xA0), (0x1680, 0x1680), (0x2000, 0x200A),
    (0x2028, 0x2029), (0x202F, 0x202F), (0x205F, 0x205F), (0x3000, 0x3000)]

def isSpace (c : Char) : Bool :=
  spaceRanges.any fun r => r.1 ≤ c.toNat && c.toNat ≤ r.2

/-- White space that indents: a space or a tab. -/
def isBlank (c : Char) : Bool := c = ' ' || c = '\t'

def isLineBreak (c : Char) : Bool := c = '\n' || c = '\r'

theorem isSpace_of_isBlank {c : Char} (h : isBlank c = true) : isSpace c = true := by
  rcases (by simpa [isBlank] using h) with rfl | rfl <;> decide

theorem isSpace_of_isLineBreak {c : Char} (h : isLineBreak c = true) : isSpace c = true := by
  rcases (by simpa [isLineBreak] using h) with rfl | rfl <;> decide

theorem not_isLineBreak_of_isBlank {c : Char} (h : isBlank c = true) : isLineBreak c = false := by
  rcases (by simpa [isBlank] using h) with rfl | rfl <;> decide

namespace Text

def dropEndWhile (p : Char → Bool) (t : Text) : Text := (t.reverse.dropWhile p).reverse

/-- Remove white space at both ends. -/
def strip (t : Text) : Text := dropEndWhile isSpace (t.dropWhile isSpace)

/-- Whether every character, if there is any, is white space. -/
def isWhite (t : Text) : Bool := t.all isSpace

/-- The pieces between the places where a character stands; there is one more than there are of
these. -/
def cutAt (sep : Char) : Text → List Text
  | [] => [[]]
  | c :: rest =>
    if c = sep then [] :: cutAt sep rest
    else match cutAt sep rest with
      | [] => [[c]]
      | piece :: pieces => (c :: piece) :: pieces

end Text

end IoSource
