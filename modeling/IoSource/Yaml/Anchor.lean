import IoSource.Yaml.Datum

/-!
# Anchors

A datum that stands in several places gets an anchor, so that it is written once. Collections and
times can be told apart from others that look the same; other scalars cannot, and get no anchors.
Anchors are numbered in the order in which data are met for the second time.
-/

namespace IoSource.Yaml

/-- Whether it shows that a datum stands in several places. -/
def Datum.hasIdentity : Datum → Bool
  | .date _ | .moment _ | .list _ | .pairs _ | .set _ | .dict _ => true
  | _ => false

/-- Which data have been met, those that have been met again, last first, and how deep the deepest
was when it was met. -/
structure Survey where
  met : Array Bool
  again : List Nat := []
  deepest : Nat := 0

def sides (pairs : List (Nat × Nat)) : List Nat := pairs.flatMap fun (m, n) => [m, n]

namespace Store

mutual

/-- Meet a datum at some depth, and what it contains if it is new. -/
def survey (s : Store) : (fuel : Nat) → (depth n : Nat) → Survey → Survey
  | 0, _, _, v => v
  | fuel + 1, depth, n, v =>
    let datum := s.datum n
    let isMet := v.met.getD n false
    if datum.hasIdentity && isMet then
      if v.again.contains n then v else { v with again := n :: v.again }
    else
      let v := { v with met := v.met.setIfInBounds n true, deepest := max v.deepest depth }
      let depth := depth + 1
      match datum with
      | .list items => surveyAll s fuel depth items v
      | .set elements => surveyAll s fuel depth elements v
      | .pairs items => surveyAll s fuel (depth + 1) (sides items) v
      | .dict entries => surveyAll s fuel depth (sides entries) v
      | _ => v

def surveyAll (s : Store) : (fuel : Nat) → (depth : Nat) → (ns : List Nat) → Survey → Survey
  | _, _, [], v => v
  | 0, _, _, v => v
  | fuel + 1, depth, n :: ns, v =>
    surveyAll s (fuel + 1) depth ns (survey s fuel depth n v)

end

def surveyEntries (s : Store) (entries : List (Nat × Nat)) : Survey :=
  s.surveyAll (2 * s.size + 2) 1 (sides entries) { met := Array.replicate s.size false }

end Store

/-- The name of an anchor, by its place among all of them. -/
def anchorName (place : Nat) : Text :=
  let digits := Number.decimal (place + 1)
  'i' :: 'd' :: (List.replicate (3 - digits.length) '0' ++ digits)

end IoSource.Yaml
