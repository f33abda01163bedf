import IoSource.Files.Utf8

/-!
# Base64

Three bytes are written as four characters of six bits each, and what is missing from the last group
as padding. Reading skips characters that are not of the alphabet and ends where a group is padded
to its full length; a group that is begun must be completed.
-/

namespace IoSource.Base64

open Utf8 (Bytes)

def alphabet : Text := "ABCDEFGHIJKLMNOPQRSTUVWXYZabcdefghijklmnopqrstuvwxyz0123456789+/".toList

def symbol (bits : Nat) : Char := alphabet.getD (bits % 64) 'A'

def bits? (c : Char) : Option Nat := alphabet.findIdx? (· = c)

def encode : Bytes → Text
  | [] => []
  | [a] => [symbol (a.toNat / 4), symbol (a.toNat * 16), '=', '=']
  | [a, b] =>
    [symbol (a.toNat / 4), symbol (a.toNat * 16 + b.toNat / 16), symbol (b.toNat * 4), '=']
  | a :: b :: c :: rest =>
    symbol (a.toNat / 4) :: symbol (a.toNat * 16 + b.toNat / 16) ::
      symbol (b.toNat * 4 + c.toNat / 64) :: symbol c.toNat :: encode rest

/-- The number of bytes whose characters fill a line. -/
def lineBytes : Nat := 57

/-- The characters of bytes in lines, each of which ends with a line feed. -/
def encodeLines (content : Bytes) : Text :=
  match content with
  | [] => []
  | b :: rest =>
    encode ((b :: rest).take lineBytes) ++ '\n' :: encodeLines ((b :: rest).drop lineBytes)
termination_by content.length
decreasing_by
  simp only [lineBytes, List.length_drop, List.length_cons]
  omega

/-- The bytes of characters of which `place` of a group have been read: `held` are the bits read
last, and `pads` are the padding characters behind them. -/
def decodeFrom? (place held pads : Nat) : Text → Option Bytes
  | [] => if place = 0 then some [] else none
  | '=' :: rest =>
    if place < 2 then decodeFrom? place held pads rest
    else if 4 ≤ place + (pads + 1) then some []
    else decodeFrom? place held (pads + 1) rest
  | c :: rest =>
    match bits? c, place with
    | none, _ => decodeFrom? place held pads rest
    | some bits, 0 => decodeFrom? 1 bits 0 rest
    | some bits, 1 => (decodeFrom? 2 bits 0 rest).map (UInt8.ofNat (held * 4 + bits / 16) :: ·)
    | some bits, 2 => (decodeFrom? 3 bits 0 rest).map (UInt8.ofNat (held * 16 + bits / 4) :: ·)
    | some bits, _ => (decodeFrom? 0 0 0 rest).map (UInt8.ofNat (held * 64 + bits) :: ·)

def decode? (t : Text) : Option Bytes := decodeFrom? 0 0 0 t

end IoSource.Base64
