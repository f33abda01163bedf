import IoSource.Text.Basic

/-!
# Digits

The decimal text of natural numbers and integers, digits of other bases, and the way back. Where the
size of an integer is not known, its decimal text is limited to a number of digits.
-/

namespace IoSource.Number

def digit (d : Nat) : Char := if d < 10 then Char.ofNat (48 + d) else Char.ofNat (87 + d)

/-- The decimal digits of a number, without leading zeros. -/
def decimal (n : Nat) : Text :=
  if n < 10 then [digit n] else decimal (n / 10) ++ [digit (n % 10)]
termination_by n

def decimalInt : Int → Text
  | .ofNat n => decimal n
  | .negSucc n => '-' :: decimal (n + 1)

/-- The most digits that the decimal text of an integer may have where they are limited. -/
def maxDecimalDigits : Nat := 4300

/-- The decimal text of an integer, unless it has too many digits. -/
def decimalInt? (i : Int) : Option Text :=
  if i.natAbs < Nat.pow 10 maxDecimalDigits then some (decimalInt i) else none

/-- What messages say about too many digits; `given` says how many there are. -/
def digitLimitMessage (given : Text) : Text :=
  "Exceeds the limit (".toList ++ decimal maxDecimalDigits ++
    " digits) for integer string conversion".toList ++ given ++
    "; use sys.set_int_max_str_digits() to increase the limit".toList

/-- What messages say about an integer that has too many digits to be written. -/
def tooManyDigits : Text := digitLimitMessage []

/-- What messages say about a text that has too many digits to be read. -/
def tooManyDigitsGiven (count : Nat) : Text :=
  digitLimitMessage (": value has ".toList ++ decimal count ++ " digits".toList)

def digitValue? (base : Nat) (c : Char) : Option Nat :=
  let value :=
    if c.isDigit then c.toNat - 48
    else if 'a' ≤ c ∧ c ≤ 'f' then c.toNat - 87
    else if 'A' ≤ c ∧ c ≤ 'F' then c.toNat - 55
    else base
  if value < base then some value else none

def isDigitOf (base : Nat) (c : Char) : Bool := (digitValue? base c).isSome

/-- The number that the digits of a text spell; other characters count as zero. -/
def ofDigits (base : Nat) (t : Text) : Nat :=
  t.foldl (fun n c => base * n + (digitValue? base c).getD 0) 0

def hexadecimal : (width n : Nat) → Text
  | 0, _ => []
  | width + 1, n => hexadecimal width (n / 16) ++ [digit (n % 16)]

end IoSource.Number
