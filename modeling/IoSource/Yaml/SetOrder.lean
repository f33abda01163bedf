import IoSource.Yaml.Datum

/-!
# The order of sets

The elements of a set that are all numbers come in the order of their slots: a number has a residue,
and it takes the slot that the residue names or, if that is taken, one of those behind it. Other
elements come in the order in which they were written.
-/

namespace IoSource.Yaml

def residueModulus : Nat := Nat.pow 2 61 - 1

def infiniteResidue : Nat := 314159

/-- The residue of a number, in words of 64 bits. Equal numbers have one residue. -/
def residue (n : Number) : UInt64 :=
  let signed (negative : Bool) (r : Nat) : UInt64 :=
    if negative then
      -- minus one means something else and gives way to its neighbour
      if r = 1 then -2 else -UInt64.ofNat r
    else UInt64.ofNat r
  match n.toBinary with
  | .finite negative mantissa exponent =>
    let power := Nat.pow 2 (exponent.emod 61).toNat
    signed negative (mantissa * power % residueModulus)
  | .infinite negative => signed negative infiniteResidue
  | .nan => 0

/-- The number of slots for some elements: a power of two that leaves enough of them empty. -/
def slotCount (elements : Nat) : Nat :=
  if elements * 5 < 7 * 3 then 8 else Nat.pow 2 ((2 * elements).log2 + 1)

/-- How many slots behind a slot are tried before the search goes on elsewhere. -/
def neighbourCount : Nat := 9

/-- The first free slot among `count` that a search tries. -/
def freeSlot? (isFree : Nat → Bool) (count : Nat) : (fuel : Nat) → (slot perturb : Nat) → Option Nat
  | 0, _, _ => none
  | fuel + 1, slot, perturb =>
    let tried := if slot + neighbourCount < count then neighbourCount + 1 else 1
    match (List.range tried).find? fun k => isFree (slot + k) with
    | some k => some (slot + k)
    | none =>
      let perturb := perturb / 32
      freeSlot? isFree count fuel ((slot * 5 + 1 + perturb) % count) perturb

def inSlots (count : Nat) (numbers : List (Nat × Number)) : Array (Option Nat) :=
  numbers.foldl (fun slots (n, number) =>
    let r := (residue number).toNat
    let isFree (k : Nat) : Bool := (slots.getD k none).isNone
    match freeSlot? isFree count (64 + 64 * count) (r % count) r with
    | some slot => slots.setIfInBounds slot (some n)
    | none => slots) (Array.replicate count none)

/-- The elements of a set in order. -/
def Store.inSetOrder (s : Store) (elements : List Nat) : List Nat :=
  match elements.mapM fun n => (s.datum n).number?.map fun number => (n, number) with
  | none => elements
  | some numbers => ((inSlots (slotCount elements.length) numbers).toList).filterMap id

end IoSource.Yaml
