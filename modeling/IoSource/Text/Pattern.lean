import IoSource.Text.Basic

/-!
# Patterns and their matches

A pattern says how long its match is at a place of a text, given the character before the place.
`marks` scans a text from the left: at a place outside any match it tries the pattern, and a match
is taken whole. Each character gets its place inside the match that covers it, so a mark does not
depend on where in the text the match stands.
-/

namespace IoSource

/-- The length of the match at a place, from the character before it and the text after it. -/
abbrev Pattern := (before : Option Char) → (rest : Text) → Option Nat

/-- The place of a character in the match that covers it, counted from zero. -/
abbrev Mark := Option Nat

namespace Pattern

/-- The marks of a text of which `left` characters still belong to a match that has already covered
`place` of them. -/
def marksFrom (p : Pattern) : (before : Option Char) → (place left : Nat) → Text → List Mark
  | _, _, _, [] => []
  | _, place, left + 1, c :: rest => some place :: marksFrom p (some c) (place + 1) left rest
  | before, _, 0, c :: rest =>
    match p before (c :: rest) with
    | some (n + 1) => some 0 :: marksFrom p (some c) 1 n rest
    | _ => none :: marksFrom p (some c) 0 0 rest

/-- The leftmost non-overlapping matches of a pattern, as one mark for each character. -/
def marks (p : Pattern) (t : Text) : List Mark := p.marksFrom none 0 0 t

theorem length_marksFrom (p : Pattern) (before : Option Char) (place left : Nat) (t : Text) :
    (p.marksFrom before place left t).length = t.length := by
  induction t generalizing before place left with
  | nil => simp [marksFrom]
  | cons c rest ih =>
    cases left with
    | succ left => simp [marksFrom, ih]
    | zero =>
      rw [marksFrom]
      split <;> simp [ih]

@[simp] theorem length_marks (p : Pattern) (t : Text) : (p.marks t).length = t.length :=
  p.length_marksFrom none 0 0 t

end Pattern

end IoSource
