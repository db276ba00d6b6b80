import Stencil.Text.Digit
import Stencil.Text.Printable

/-!
# Quoted texts

A text is quoted by setting it between single quotes, or between double quotes when it holds a
single quote and no double one. Inside, the quote in use and the backslash are escaped, the common
line controls have letters, and any other character without a visible form is written by the number
of its code point in two, four or eight digits.
-/

namespace Stencil.Text

/-- The last `width` hexadecimal digits of a number. -/
def hexDigits : Nat → Nat → List Char
  | 0, _ => []
  | width + 1, n => hexDigits width (n / 16) ++ [hexDigit (n % 16)]

/-- One character as it stands between quotes of the given kind. -/
def quotedChar (quote c : Char) : List Char :=
  if c = quote ∨ c = '\\' then ['\\', c]
  else if c = '\n' then ['\\', 'n']
  else if c = '\r' then ['\\', 'r']
  else if c = '\t' then ['\\', 't']
  else if isPrintable c then [c]
  else if c.toNat < 0x100 then ['\\', 'x'] ++ hexDigits 2 c.toNat
  else if c.toNat < 0x10000 then ['\\', 'u'] ++ hexDigits 4 c.toNat
  else ['\\', 'U'] ++ hexDigits 8 c.toNat

/-- The quote that a text is set between. -/
def quoteFor (cs : List Char) : Char :=
  if cs.contains '\'' && !cs.contains '"' then '"' else '\''

/-- The text between quotes. -/
def quoted (s : String) : String :=
  let cs := s.toList
  let quote := quoteFor cs
  String.ofList (quote :: (cs.flatMap (quotedChar quote) ++ [quote]))

/-- A string of bytes between quotes: bytes outside the visible ASCII range are escaped. -/
def quotedBytes (bytes : List UInt8) : String :=
  let cs := bytes.map fun b => Char.ofNat b.toNat
  let quote := quoteFor cs
  let byte (c : Char) : List Char :=
    if c.toNat < 0x7F then quotedChar quote c else ['\\', 'x'] ++ hexDigits 2 c.toNat
  String.ofList ('b' :: quote :: (cs.flatMap byte ++ [quote]))

end Stencil.Text
