import IoSource.Text.Basic

/-!
# The order of texts

Texts are ordered by their code points. Sorting takes a comparison that may refuse: values of unlike
kinds have no order, and a list that holds two of them cannot be sorted.
-/

namespace IoSource

def Text.before : Text → Text → Bool
  | _, [] => false
  | [], _ :: _ => true
  | c :: s, d :: t => if c = d then Text.before s t else c.toNat < d.toNat

/-- Put an element in front of the first one that it comes before. -/
def insertSorted? {α : Type} (before? : α → α → Option Bool) (x : α) : List α → Option (List α)
  | [] => some [x]
  | y :: ys => do
    if ← before? y x then
      let zs ← insertSorted? before? x ys
      return y :: zs
    else return x :: y :: ys

/-- Sort a list; elements of which neither comes before the other keep their places. -/
def sorted? {α : Type} (before? : α → α → Option Bool) : List α → Option (List α)
  | [] => some []
  | x :: xs => do insertSorted? before? x (← sorted? before? xs)

end IoSource
