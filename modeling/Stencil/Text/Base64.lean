import Stencil.Text.Runs

/-!
# Bytes written in base 64

Four signs write three bytes. Signs that are no digits are passed over; equals signs stand for what
the last group lacks, and after enough of them nothing more is read.
-/

namespace Stencil.Text

/-- The value of a digit in base 64. -/
def base64Digit (c : Char) : Option Nat :=
  let n := c.toNat
  if c.isUpper then some (n - 65)
  else if c.isLower then some (n - 71)
  else if c.isDigit then some (n + 4)
  else if c = '+' then some 62
  else if c = '/' then some 63
  else none

/-- Reads bytes: `held` is what the digits of the group left over, `place` digits of it and `pads`
equals signs have been read. -/
def base64From : (held place pads : Nat) → List Char → Option (List UInt8)
  | _, place, _, [] => if place = 0 then some [] else none
  | held, place, pads, c :: rest =>
    if c = '=' then
      if place ≥ 2 && place + pads + 1 ≥ 4 then some []
      else base64From held place (if place ≥ 2 then pads + 1 else pads) rest
    else
      match base64Digit c with
      | none => base64From held place pads rest
      | some d =>
        match place with
        | 0 => base64From d 1 0 rest
        | 1 => (UInt8.ofNat (held * 4 + d / 16) :: ·) <$> base64From (d % 16) 2 0 rest
        | 2 => (UInt8.ofNat (held * 16 + d / 4) :: ·) <$> base64From (d % 4) 3 0 rest
        | _ => (UInt8.ofNat (held * 64 + d) :: ·) <$> base64From 0 0 0 rest

/-- The bytes that a text writes, if its last group is complete. -/
def base64? (cs : List Char) : Option (List UInt8) := base64From 0 0 0 cs

end Stencil.Text
