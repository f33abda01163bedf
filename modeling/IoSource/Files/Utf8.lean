import IoSource.Number.Digits

/-!
# UTF-8

Decoding tells characters and malformed sequences apart: a malformed sequence is a longest start of
a character that cannot be completed, or a byte that starts none. Lossy decoding puts one
replacement character in the place of each, strict decoding stops at the first.
-/

namespace IoSource.Utf8

abbrev Bytes := List UInt8

inductive Reason
  | badStart
  | badContinuation
  | truncated
  deriving DecidableEq, Repr

/-- A sequence of bytes that is no character: where it starts, how long it is and why. -/
structure Malformed where
  start : Nat
  length : Nat
  reason : Reason
  deriving DecidableEq, Repr

/-- A character of which some bytes have been read: the continuation bytes still owed, the range
that the next one must lie in, the bits so far and the number of bytes read. -/
structure Pending where
  owed : Nat
  low : Nat
  high : Nat
  bits : Nat
  read : Nat
  deriving DecidableEq, Repr

/-- What a byte between two characters starts, or the character that it is. -/
def begin (offset b : Nat) : Except Malformed (Char ⊕ Pending) :=
  if b < 0x80 then .ok (.inl (Char.ofNat b))
  else if 0xC2 ≤ b ∧ b < 0xE0 then .ok (.inr ⟨1, 0x80, 0xBF, b - 0xC0, 1⟩)
  else if b = 0xE0 then .ok (.inr ⟨2, 0xA0, 0xBF, 0, 1⟩)
  else if b = 0xED then .ok (.inr ⟨2, 0x80, 0x9F, 0xD, 1⟩)
  else if 0xE0 < b ∧ b < 0xF0 then .ok (.inr ⟨2, 0x80, 0xBF, b - 0xE0, 1⟩)
  else if b = 0xF0 then .ok (.inr ⟨3, 0x90, 0xBF, 0, 1⟩)
  else if 0xF0 < b ∧ b < 0xF4 then .ok (.inr ⟨3, 0x80, 0xBF, b - 0xF0, 1⟩)
  else if b = 0xF4 then .ok (.inr ⟨3, 0x80, 0x8F, 4, 1⟩)
  else .error ⟨offset, 1, .badStart⟩

/-- The characters and malformed sequences of bytes that start at an offset. -/
def decodeFrom (offset : Nat) : Option Pending → Bytes → List (Except Malformed Char)
  | none, [] => []
  | some p, [] => [.error ⟨offset - p.read, p.read, .truncated⟩]
  | none, b :: rest =>
    match begin offset b.toNat with
    | .ok (.inl c) => .ok c :: decodeFrom (offset + 1) none rest
    | .ok (.inr p) => decodeFrom (offset + 1) (some p) rest
    | .error m => .error m :: decodeFrom (offset + 1) none rest
  | some p, b :: rest =>
    if p.low ≤ b.toNat ∧ b.toNat ≤ p.high then
      let bits := p.bits * 64 + (b.toNat - 0x80)
      if p.owed = 1 then .ok (Char.ofNat bits) :: decodeFrom (offset + 1) none rest
      else decodeFrom (offset + 1) (some ⟨p.owed - 1, 0x80, 0xBF, bits, p.read + 1⟩) rest
    else
      .error ⟨offset - p.read, p.read, .badContinuation⟩ ::
        match begin offset b.toNat with
        | .ok (.inl c) => .ok c :: decodeFrom (offset + 1) none rest
        | .ok (.inr p) => decodeFrom (offset + 1) (some p) rest
        | .error m => .error m :: decodeFrom (offset + 1) none rest

def replacement : Char := '\ufffd'

/-- Each malformed sequence becomes one replacement character. -/
def decodeLossy (bytes : Bytes) : Text :=
  (decodeFrom 0 none bytes).map fun
    | .ok c => c
    | .error _ => replacement

/-- The characters up to the first malformed sequence, if there is one. -/
def allOk : List (Except Malformed Char) → Except Malformed Text
  | [] => .ok []
  | .error m :: _ => .error m
  | .ok c :: rest => do return c :: (← allOk rest)

def decode (bytes : Bytes) : Except Malformed Text := allOk (decodeFrom 0 none bytes)

def encode (t : Text) : Bytes := t.flatMap String.utf8EncodeChar

def Reason.message : Reason → Text
  | .badStart => "invalid start byte".toList
  | .badContinuation => "invalid continuation byte".toList
  | .truncated => "unexpected end of data".toList

/-- What is wrong with the bytes; a single byte is shown, of several only the places. -/
def Malformed.message (bytes : Bytes) (m : Malformed) : Text :=
  let place :=
    if m.length = 1 then
      "byte 0x".toList ++ Number.hexadecimal 2 ((bytes[m.start]?.map UInt8.toNat).getD 0) ++
        " in position ".toList ++ Number.decimal m.start
    else
      "bytes in position ".toList ++ Number.decimal m.start ++
        '-' :: Number.decimal (m.start + m.length - 1)
  "'utf-8' codec can't decode ".toList ++ place ++ ':' :: ' ' :: m.reason.message

end IoSource.Utf8
