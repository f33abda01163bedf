import IoSource.Number.Digits
import IoSource.Text.Printable

/-!
# Quoted texts

Messages show a text in quotes and on one line. Single quotes are preferred; a text that holds
single quotes and no double ones goes into double quotes.
-/

namespace IoSource.Text

def quoteFor (t : Text) : Char := if t.contains '\'' && !t.contains '"' then '"' else '\''

def quotedChar (quote c : Char) : Text :=
  if c = quote ∨ c = '\\' then ['\\', c]
  else if c = '\n' then ['\\', 'n']
  else if c = '\r' then ['\\', 'r']
  else if c = '\t' then ['\\', 't']
  else if isPrintable c then [c]
  else if c.toNat < 0x100 then '\\' :: 'x' :: Number.hexadecimal 2 c.toNat
  else if c.toNat < 0x10000 then '\\' :: 'u' :: Number.hexadecimal 4 c.toNat
  else '\\' :: 'U' :: Number.hexadecimal 8 c.toNat

def quoted (t : Text) : Text :=
  let quote := quoteFor t
  quote :: (t.flatMap (quotedChar quote) ++ [quote])

end IoSource.Text
