import IoSource.Platform

/-!
# Spaces

Lengths and indices are integers of 64 bits. A text of spaces has a length, so there is none of more
spaces than that, and there may not be the memory for as many.
-/

namespace IoSource

/-- The greatest index. -/
def maxIndex : Nat := Nat.pow 2 63 - 1

/-- Whether an integer is small enough for an index; negative ones count from an end. -/
def isIndex (i : Int) : Bool := -(maxIndex : Int) - 1 ≤ i && i ≤ maxIndex

/-- What messages say about an integer that is too large for an index. -/
def indexTooLarge : Text := "cannot fit 'int' into an index-sized integer".toList

/-- Why there is no text of some spaces. -/
inductive SpacesError
  /-- The number of spaces is no length. -/
  | tooMany
  | noRoom
  deriving DecidableEq, Repr

def SpacesError.message : SpacesError → Text
  | tooMany => indexTooLarge
  | noRoom => []

variable [Platform]

/-- The length from which on there is no text of spaces, for lack of memory or of a length. -/
def roomLimit : Nat := min Platform.memory maxIndex + 1

namespace Text

/-- A text of spaces; a negative number of them is none. -/
def spaces (count : Int) : Except SpacesError Text :=
  if !isIndex count then .error .tooMany
  else if Platform.memory < count.toNat then .error .noRoom
  else .ok (List.replicate count.toNat ' ')

end Text

end IoSource
