import Stencil.Decimal.Shortest
import Stencil.Decimal.Reading

/-!
# Fixed places

Numbers with a given count of places after the point, or of digits in all. The exact value is
rounded, a half to the even neighbour.
-/

namespace Stencil.Decimal

/-- The value `num / den` in whole units of `10 ^ -places`. -/
def inUnits (num den : Nat) (places : Int) : Nat :=
  roundDiv (num * Nat.pow 10 places.toNat) (den * Nat.pow 10 (-places).toNat)

/-- The digits of a whole number of units with the point set before the last `places`. -/
def withPoint (units places : Nat) : String :=
  let digits := padZeros (places + 1) (toString units)
  let cut := digits.length - places
  let whole := String.ofList (digits.toList.take cut)
  if places = 0 then whole else whole ++ "." ++ String.ofList (digits.toList.drop cut)

/-- A non-negative value with `places` digits after the point. -/
def fixed (num den places : Nat) : String := withPoint (inUnits num den places) places

/-- The decimal exponent of a positive value: the place of its first digit. -/
def leadOf (num den : Nat) : Int :=
  let i : Interval := { low := num, value := num, high := num, den := den, closed := true }
  i.magnitude - 1

/-- A value as `digits` digits and the exponent of the first. -/
def scientificParts (num den digits : Nat) : Nat × Int :=
  if num = 0 then (0, 0)
  else
    let lead := leadOf num den
    let units := inUnits num den (digits - 1 - lead)
    if units ≥ Nat.pow 10 digits then (units / 10, lead + 1) else (units, lead)

/-- A non-negative value with one digit before the point, `places` after it, and an exponent. -/
def scientific (num den places : Nat) : String :=
  let (units, lead) := scientificParts num den (places + 1)
  withPoint units places ++ "e" ++ (if lead < 0 then "-" else "+") ++ padZeros 2 (toString lead.natAbs)

/-- Drops zeros after the point, and the point when nothing is left after it. -/
def dropFractionZeros (s : String) : String :=
  if s.toList.contains '.' then
    let cs := (s.toList.reverse.dropWhile (· == '0'))
    String.ofList (match cs with
      | '.' :: rest => rest.reverse
      | rest => rest.reverse)
  else s

/-- A non-negative value with `digits` digits in all, written with an exponent when that is shorter. -/
def general (num den digits : Nat) (keepZeros : Bool) : String :=
  let digits := max digits 1
  let (_, lead) := scientificParts num den digits
  let tidy (s : String) : String := if keepZeros then s else dropFractionZeros s
  if lead < -4 ∨ lead ≥ digits then
    let (units, lead) := scientificParts num den digits
    tidy (withPoint units (digits - 1)) ++ "e" ++ (if lead < 0 then "-" else "+") ++
      padZeros 2 (toString lead.natAbs)
  else tidy (fixed num den (digits - 1 - lead).toNat)

/-- The double nearest to a finite double rounded to `places` digits after the point; fewer than none
rounds before the point. -/
def roundTo (x : Float) (places : Int) : Float :=
  match ratio? x with
  | none => x
  | some (negative, num, den) =>
    if places > 400 then x
    else if places < -400 then ofRatio negative 0 1
    else ofDecimal negative (inUnits num den places) (-places)

end Stencil.Decimal
