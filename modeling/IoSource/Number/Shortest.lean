import IoSource.Number.Binary
import IoSource.Number.Digits

/-!
# The shortest text of a float

Among the decimals that read back to a float the one with the fewest digits is written, and of
several such the nearest. A decimal reads back if it lies in the interval of the reals that round
to the float; `shortest` looks at ever finer decimal grids until one of the two neighbours of the
value on the grid does. All comparisons are between natural numbers.
-/

namespace IoSource.Number

/-- The number `digits * 10 ^ exponent`. -/
structure Decimal where
  digits : Nat
  exponent : Int
  deriving DecidableEq, Repr

/-- Compare `a * 10 ^ i` with `b * 2 ^ j`. -/
def compareScaled (a : Nat) (i : Int) (b : Nat) (j : Int) : Ordering :=
  compare (a * Nat.pow 10 i.toNat * Nat.pow 2 (-j).toNat)
    (b * Nat.pow 2 j.toNat * Nat.pow 10 (-i).toNat)

/-- Whether a decimal lies among the reals that round to `mantissa * 2 ^ exponent`. The gap below a
power of two is half the gap above it, and the ends belong to the even mantissa. -/
def readsBack (mantissa : Nat) (exponent : Int) (d : Decimal) : Bool :=
  let narrow := mantissa = Nat.pow 2 52 ∧ exponent ≠ -1074
  let low :=
    compareScaled d.digits d.exponent (4 * mantissa - if narrow then 1 else 2) (exponent - 2)
  let high := compareScaled d.digits d.exponent (4 * mantissa + 2) (exponent - 2)
  let even := mantissa % 2 = 0
  (low = .gt || even && low = .eq) && (high = .lt || even && high = .eq)

/-- The neighbours of the value on a grid that read back, the nearer one first. -/
def candidates (mantissa : Nat) (exponent grid : Int) : List Decimal :=
  let numerator := mantissa * Nat.pow 2 exponent.toNat * Nat.pow 10 (-grid).toNat
  let denominator := Nat.pow 2 (-exponent).toNat * Nat.pow 10 grid.toNat
  let below := numerator / denominator
  let rest := 2 * (numerator % denominator)
  let upFirst := denominator < rest || (denominator = rest && below % 2 = 1)
  let neighbours := if upFirst then [below + 1, below] else [below, below + 1]
  (neighbours.map (Decimal.mk · grid)).filter (readsBack mantissa exponent)

/-- The first decimal that reads back on the grids `10 ^ grid`, `10 ^ (grid - 1)`, … -/
def search (mantissa : Nat) (exponent : Int) : (tries : Nat) → (grid : Int) → Option Decimal
  | 0, _ => none
  | tries + 1, grid =>
    (candidates mantissa exponent grid).head?.or (search mantissa exponent tries (grid - 1))

/-- The shortest decimal of a positive value. The search starts above the leading digit, and twenty
grids reach past seventeen digits; the exact value stands in should it fail. -/
def shortest (mantissa : Nat) (exponent : Int) : Decimal :=
  let bits := exponent + mantissa.log2
  let top := bits * 30103 / 100000 + 1
  (search mantissa exponent 20 top).getD
    ⟨mantissa * Nat.pow 2 exponent.toNat * Nat.pow 5 (-exponent).toNat, min exponent 0⟩

/-- Where texts of floats leave the general rule: the special values. -/
structure FloatNotation where
  nan : Text
  infinity : Text
  negativeInfinity : Text

/-- Positional between `1e-4` and `1e16`, with a digit on both sides of the point; otherwise one
leading digit and a signed exponent of at least two digits. -/
def layOut (d : Decimal) : Text :=
  let digits := decimal d.digits
  let point : Int := digits.length + d.exponent
  if -4 < point ∧ point ≤ 16 then
    if point ≤ 0 then '0' :: '.' :: (List.replicate (-point).toNat '0' ++ digits)
    else if digits.length ≤ point then
      digits ++ List.replicate (point - digits.length).toNat '0' ++ ['.', '0']
    else digits.take point.toNat ++ '.' :: digits.drop point.toNat
  else
    let exponent := decimal (point - 1).natAbs
    let padded := if exponent.length < 2 then '0' :: exponent else exponent
    let mantissa := match digits with
      | [] => []
      | [d] => [d]
      | d :: more => d :: '.' :: more
    mantissa ++ 'e' :: (if point < 1 then '-' else '+') :: padded

def floatText (special : FloatNotation) (x : Float) : Text :=
  match Binary.ofFloat x with
  | .nan => special.nan
  | .infinite negative => if negative then special.negativeInfinity else special.infinity
  | .finite negative mantissa exponent =>
    let size :=
      if mantissa = 0 then ['0', '.', '0'] else layOut (shortest mantissa exponent)
    if negative then '-' :: size else size

/-- Read `digits * 10 ^ exponent`; what is certainly too large or too small is not computed. -/
def floatOfDecimal (digits : Nat) (exponent : Int) : Float :=
  if digits = 0 then 0.0
  else
    let magnitude := exponent + digits.log2 * 30103 / 100000
    if 400 < magnitude then 1.0 / 0.0
    else if magnitude < -400 then 0.0
    else Float.ofScientific digits (exponent < 0) exponent.natAbs

end IoSource.Number
