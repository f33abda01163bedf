/-!
# Floats as exact numbers

A finite double is an integer times a power of two. Comparison and remainder are computed on that
form, in integers, so they are exact.
-/

namespace IoSource.Number

/-- What a double stands for: `± mantissa * 2 ^ exponent`, or one of the special values. -/
inductive Binary
  | finite (negative : Bool) (mantissa : Nat) (exponent : Int)
  | infinite (negative : Bool)
  | nan
  deriving DecidableEq, Repr

namespace Binary

def ofFloat (x : Float) : Binary :=
  let bits : Nat := x.toBits.toNat
  let negative : Bool := bits / Nat.pow 2 63 = 1
  let biased : Nat := bits / Nat.pow 2 52 % Nat.pow 2 11
  let fraction : Nat := bits % Nat.pow 2 52
  if biased = 2047 then if fraction = 0 then infinite negative else nan
  else if biased = 0 then finite negative fraction (-1074)
  else finite negative (Nat.pow 2 52 + fraction) (biased - 1075)

/-- The integer that a signed mantissa becomes when it is scaled to a smaller exponent. -/
def aligned (negative : Bool) (mantissa : Nat) (exponent least : Int) : Int :=
  let scaled : Int := (mantissa * Nat.pow 2 (exponent - least).toNat : Nat)
  if negative then -scaled else scaled

/-- How two numbers compare; a number that is none compares with nothing. -/
def compare? : Binary → Binary → Option Ordering
  | nan, _ | _, nan => none
  | infinite m, infinite n => some (compare n m)
  | infinite negative, finite .. => some (if negative then .lt else .gt)
  | finite .., infinite negative => some (if negative then .gt else .lt)
  | finite s m e, finite t n f =>
    some (compare (aligned s m e (min e f)) (aligned t n f (min e f)))

def ofInt (i : Int) : Binary := finite (i < 0) i.natAbs 0

def isZero : Binary → Bool
  | finite _ mantissa _ => mantissa = 0
  | _ => false

end Binary

/-- The float of `mantissa * 2 ^ exponent`, which a power of ten scales as well. -/
def floatOfBinary (mantissa : Nat) (exponent : Int) : Float :=
  let digits := mantissa * Nat.pow 2 exponent.toNat * Nat.pow 5 (-exponent).toNat
  Float.ofScientific digits true (-exponent).toNat

/-- The remainder of a division of floats, with the sign of the divisor. -/
def floatRemainder (x y : Float) : Float :=
  match Binary.ofFloat x, Binary.ofFloat y with
  | .finite s m e, .finite t n f =>
    let least := min e f
    let rest := (Binary.aligned s m e least).tmod (Binary.aligned t n f least)
    let size := floatOfBinary rest.natAbs least
    if rest = 0 then if t then -0.0 else 0.0
    else if rest < 0 then if t then -size else y - size
    else if t then y + size else size
  | .finite s m _, .infinite t => if m = 0 ∨ s = t then (if m = 0 ∧ t then -0.0 else x) else y
  | _, _ => 0.0 / 0.0

end IoSource.Number
