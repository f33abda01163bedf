import IoSource.Text.Quoted

/-!
# Texts with lone surrogates

An escape can name one half of a surrogate pair, which is no character. A wide text is the list of
its points: characters and such halves. Halves that stand next to each other stay halves.
-/

namespace IoSource

/-- A character, or the code of one half of a surrogate pair. -/
inductive Point
  | char (c : Char)
  | half (code : Nat)
  deriving DecidableEq, Repr

namespace Point

def char? : Point → Option Char
  | char c => some c
  | half _ => none

def code : Point → Nat
  | char c => c.toNat
  | half code => code

/-- The point of a code, which is at most that of the last character. -/
def ofCode (code : Nat) : Point := if code.isValidChar then char (Char.ofNat code) else half code

/-- Whether a point is a character of some class. -/
def isOf (p : Char → Bool) (point : Point) : Bool := point.char?.any p

end Point

abbrev WideText := List Point

namespace WideText

def ofText (t : Text) : WideText := t.map .char

def text? : WideText → Option Text
  | [] => some []
  | .char c :: rest => (text? rest).map (c :: ·)
  | .half _ :: _ => none

/-- The text that shows a replacement character in the place of each half. -/
def visible (w : WideText) : Text := w.map fun p => p.char?.getD '\ufffd'

/-- How messages show a wide text: halves as escapes. -/
def quoted (w : WideText) : Text :=
  let quote := Text.quoteFor w.visible
  let shown : Point → Text
    | .char c => Text.quotedChar quote c
    | .half code => '\\' :: 'u' :: Number.hexadecimal 4 code
  quote :: (w.flatMap shown ++ [quote])

def cutAt (sep : Char) : WideText → List WideText
  | [] => [[]]
  | p :: rest =>
    if p = .char sep then [] :: cutAt sep rest
    else match cutAt sep rest with
      | [] => [[p]]
      | piece :: pieces => (p :: piece) :: pieces

end WideText

end IoSource
