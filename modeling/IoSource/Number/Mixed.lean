import IoSource.Number.Binary

/-!
# Integers and floats together

A number is an integer or a float; arithmetic stays with integers as long as both operands are, and
the remainder takes the sign of the divisor. Comparison is exact.
-/

namespace IoSource

inductive Number
  | int (i : Int)
  | float (x : Float)
  deriving Repr

namespace Number

def toFloat : Number → Float
  | int i => Float.ofInt i
  | float x => x

def toBinary : Number → Binary
  | int i => Binary.ofInt i
  | float x => Binary.ofFloat x

def isZero (n : Number) : Bool := n.toBinary.isZero

def compare? (m n : Number) : Option Ordering := m.toBinary.compare? n.toBinary

def add : Number → Number → Number
  | int i, int j => int (i + j)
  | m, n => float (m.toFloat + n.toFloat)

def sub : Number → Number → Number
  | int i, int j => int (i - j)
  | m, n => float (m.toFloat - n.toFloat)

def mod? (m n : Number) : Option Number :=
  if n.isZero then none
  else match m, n with
    | int i, int j => some (int (i.fmod j))
    | m, n => some (float (floatRemainder m.toFloat n.toFloat))

end Number

end IoSource
