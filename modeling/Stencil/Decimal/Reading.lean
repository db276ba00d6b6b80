import Stencil.Decimal.Binary
import Stencil.Text.Blank
import Stencil.Text.Digit

/-!
# Reading numbers

Numbers as people write them: digits that a single low line may divide, a point, an exponent, a sign,
the words for infinity and for no number. Blanks around a number do not count.
-/

namespace Stencil.Decimal

/-- The double nearest to `digits * 10 ^ exponent`. -/
def ofDecimal (negative : Bool) (digits : Nat) (exponent : Int) : Float :=
  let places : Int := (Nat.log2 digits : Int) * 30103 / 100000 + exponent
  if digits = 0 ∨ places < -400 then ofRatio negative 0 1
  else if places > 400 then infinity negative
  else ofRatio negative (digits * Nat.pow 10 exponent.toNat) (Nat.pow 10 (-exponent).toNat)

/-- Splits a sign off. -/
def splitSign : List Char → Bool × List Char
  | '-' :: rest => (true, rest)
  | '+' :: rest => (false, rest)
  | rest => (false, rest)

/-- The digits of a run in which a low line may stand between two digits, and the rest after it. -/
def digitRun (digit : Char → Option Nat) : List Char → List Nat × List Char
  | [] => ([], [])
  | c :: rest =>
    match digit c with
    | some d =>
      let (ds, rest') := digitRun digit rest
      if ds.isEmpty then
        match rest with
        | '_' :: c' :: after =>
          match digit c' with
          | some d' => let (ds, rest') := digitRun digit after; (d :: d' :: ds, rest')
          | none => ([d], rest)
        | _ => ([d], rest)
      else (d :: ds, rest')
    | none => ([], c :: rest)

/-- The sign of a whole number in base ten, its digits, and what is left; blanks around it do not
count. -/
def splitInt (s : String) : Bool × List Nat × List Char :=
  let (negative, body) := splitSign (Text.trimBoth Text.isBlank s.toList)
  (negative, digitRun Text.digitValue body)

/-- A whole number in base ten, with a sign and blanks around it allowed. -/
def readInt? (s : String) : Option Int :=
  match splitInt s with
  | (_, [], _) => none
  | (negative, ds, []) =>
    let n : Int := Text.digitsValue 10 ds
    some (if negative then -n else n)
  | _ => none

/-- A whole number in another base. After a zero, the letter of the base may stand first. -/
def readIntBase? (base : Nat) (letter : Option Char) (s : String) : Option Int :=
  let (negative, body) := splitSign (Text.trimBoth Text.isBlank s.toList)
  let body :=
    match body, letter with
    | '0' :: c :: '_' :: rest, some l => if c.toLower = l then rest else body
    | '0' :: c :: rest, some l => if c.toLower = l then rest else body
    | _, _ => body
  match digitRun (Text.baseDigit base) body with
  | ([], _) => none
  | (ds, []) =>
    let n : Int := Text.digitsValue base ds
    some (if negative then -n else n)
  | _ => none

/-- The exponent part of a number, or no exponent where none is written properly. -/
def exponentPart (digit : Char → Option Nat) (cs : List Char) : Int × List Char :=
  match cs with
  | c :: rest =>
    if c = 'e' ∨ c = 'E' then
      let (negative, body) := splitSign rest
      match digitRun digit body with
      | ([], _) => (0, cs)
      | (ds, after) =>
        let n : Int := Text.digitsValue 10 ds
        (if negative then -n else n, after)
    else (0, cs)
  | [] => (0, [])

/-- A number in base ten without sign: digits, an optional fraction and an optional exponent. Answers
the value of all digits, the exponent that belongs to it, and the rest. -/
def readUnsigned? (digit : Char → Option Nat) (cs : List Char) : Option (Nat × Int × List Char) :=
  let (whole, rest) := digitRun digit cs
  let (fraction, rest) :=
    match rest with
    | '.' :: after =>
      let (ds, after') := digitRun digit after
      if ds.isEmpty then (([] : List Nat), if whole.isEmpty then rest else after) else (ds, after')
    | _ => ([], rest)
  if whole.isEmpty && fraction.isEmpty then none
  else
    let (e, rest) := exponentPart digit rest
    some (Text.digitsValue 10 (whole ++ fraction), e - fraction.length, rest)

/-- The word for a value that no digits write, whatever its case. -/
def readWord? (negative : Bool) (cs : List Char) : Option Float :=
  let word := String.ofList (cs.map Char.toLower)
  if word = "inf" ∨ word = "infinity" then some (infinity negative)
  else if word = "nan" then some nan
  else none

/-- A number with the digits of a given kind, its sign, and blanks around it. -/
def readFloatWith? (digit : Char → Option Nat) (s : String) : Option Float :=
  let (negative, body) := splitSign (Text.trimBoth Text.isBlank s.toList)
  match readWord? negative body with
  | some x => some x
  | none =>
    match readUnsigned? digit body with
    | some (digits, e, []) => some (ofDecimal negative digits e)
    | _ => none

/-- A number with digits of any script. -/
def readFloat? (s : String) : Option Float := readFloatWith? Text.digitValue s

end Stencil.Decimal
