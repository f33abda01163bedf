import IoSource.Number.Digits
import IoSource.Number.Shortest

/-!
# Number literals

How people write numbers: white space around, a sign, digits of any script, single underscores
between digits. Integers of a base of its own may carry the marker of that base.
-/

namespace IoSource.Number

/-- The zeros of the decimal digits of Unicode (version 14); the nine other digits follow each. -/
def decimalZeros : List Nat := [
  0x30, 0x660, 0x6f0, 0x7c0, 0x966, 0x9e6, 0xa66, 0xae6, 0xb66, 0xbe6, 0xc66, 0xce6, 0xd66, 0xde6,
  0xe50, 0xed0, 0xf20, 0x1040, 0x1090, 0x17e0, 0x1810, 0x1946, 0x19d0, 0x1a80, 0x1a90, 0x1b50,
  0x1bb0, 0x1c40, 0x1c50, 0xa620, 0xa8d0, 0xa900, 0xa9d0, 0xa9f0, 0xaa50, 0xabf0, 0xff10, 0x104a0,
  0x10d30, 0x11066, 0x110f0, 0x11136, 0x111d0, 0x112f0, 0x11450, 0x114d0, 0x11650, 0x116c0,
  0x11730, 0x118e0, 0x11950, 0x11c50, 0x11d50, 0x11da0, 0x16a60, 0x16ac0, 0x16b50, 0x1d7ce,
  0x1d7d8, 0x1d7e2, 0x1d7ec, 0x1d7f6, 0x1e140, 0x1e2f0, 0x1e950, 0x1fbf0]

/-- The value of a decimal digit of any script. -/
def decimalDigit? (c : Char) : Option Nat :=
  (decimalZeros.find? fun z => z ≤ c.toNat && c.toNat < z + 10).map (c.toNat - ·)

/-- A text with digits and white space of any script as those of ASCII, in which numbers are read.
Other characters beyond ASCII stand in no number. -/
def inAscii (t : Text) : Text :=
  t.map fun c =>
    if c.toNat < 0x7F then c
    else if isSpace c then ' '
    else ((decimalDigit? c).map digit).getD '?'

/-- The white space of ASCII that may stand around a number: all but the information separators. -/
def isAroundNumber (c : Char) : Bool := isSpace c && !(0x1C ≤ c.toNat && c.toNat ≤ 0x1F)

/-- Why a text is no integer. -/
inductive LiteralError
  | malformed
  /-- A decimal integer has too many digits. -/
  | tooManyDigits (count : Nat)
  deriving DecidableEq, Repr

/-- The number that groups of digits spell, with an underscore between two groups and white space
behind the last one. The digits are counted before what stands behind them is looked at. -/
def readUnsigned (base : Nat) (t : Text) : Except LiteralError Nat :=
  let isPart (c : Char) : Bool := c = '_' || isDigitOf base c
  let groups := Text.cutAt '_' (t.takeWhile isPart)
  let digits := groups.flatten
  if groups.any (· = []) then .error .malformed
  else if base = 10 ∧ maxDecimalDigits < digits.length then .error (.tooManyDigits digits.length)
  else if (t.dropWhile isPart).all isAroundNumber then .ok (ofDigits base digits)
  else .error .malformed

/-- The letter that marks a base, behind a zero. -/
def baseMarker? : (base : Nat) → Option Char
  | 2 => some 'b'
  | 8 => some 'o'
  | 16 => some 'x'
  | _ => none

/-- Drop the marker of a base and one underscore behind it, if the marker is there. -/
def dropBaseMarker (base : Nat) : Text → Text
  | '0' :: c :: rest =>
    if some c.toLower = baseMarker? base then
      match rest with
      | '_' :: rest => rest
      | rest => rest
    else '0' :: c :: rest
  | t => t

def takeSign : Text → Bool × Text
  | '-' :: rest => (true, rest)
  | '+' :: rest => (false, rest)
  | t => (false, t)

def readInteger (base : Nat) (t : Text) : Except LiteralError Int := do
  let (negative, t) := takeSign ((inAscii t).dropWhile isAroundNumber)
  let size : Int ← readUnsigned base (dropBaseMarker base t)
  return if negative then -size else size

def integer? (base : Nat) (t : Text) : Option Int := (readInteger base t).toOption

def exponent? : Text → Option Int
  | [] => some 0
  | c :: rest => do
    if c ≠ 'e' ∧ c ≠ 'E' then none
    let (negative, digits) := takeSign rest
    if digits = [] ∨ !digits.all Char.isDigit then none
    let size : Int := ofDigits 10 digits
    return if negative then -size else size

/-- The float that an unsigned decimal in ASCII spells, or the name of a special value. -/
def unsignedFloat? (t : Text) : Option Float := do
  let name := String.ofList (t.map Char.toLower)
  if name = "inf" ∨ name = "infinity" then return 1.0 / 0.0
  if name = "nan" then return 0.0 / 0.0
  let whole := t.takeWhile Char.isDigit
  let (fraction, rest) := match t.dropWhile Char.isDigit with
    | '.' :: rest => (rest.takeWhile Char.isDigit, rest.dropWhile Char.isDigit)
    | rest => ([], rest)
  if whole = [] ∧ fraction = [] then none
  return floatOfDecimal (ofDigits 10 (whole ++ fraction)) ((← exponent? rest) - fraction.length)

def float? (t : Text) : Option Float := do
  let t := inAscii t
  let (negative, t) := takeSign (Text.dropEndWhile isAroundNumber (t.dropWhile isAroundNumber))
  let size ← unsignedFloat? t
  return if negative then -size else size

end IoSource.Number
