/-!
# Binary floating point

A double is either not a number, infinite, or a whole number of units of some power of two. The
functions here take doubles apart and put them together exactly: a quotient of whole numbers goes to
the nearest double, and of two that are equally near to the one with an even last place.
-/

namespace Stencil.Decimal

/-- A double taken apart. -/
inductive Binary where
  | nan
  | infinite (negative : Bool)
  /-- The value `mantissa * 2 ^ exponent`, below zero if `negative`. -/
  | finite (negative : Bool) (mantissa : Nat) (exponent : Int)
  deriving Repr, DecidableEq

/-- The parts of a double. -/
def Binary.of (x : Float) : Binary :=
  let bits := x.toBits.toNat
  let negative := bits ≥ Nat.pow 2 63
  let field : Nat := bits / Nat.pow 2 52 % Nat.pow 2 11
  let low : Nat := bits % Nat.pow 2 52
  if field = 2047 then if low = 0 then infinite negative else nan
  else if field = 0 then finite negative low (-1074)
  else finite negative (Nat.pow 2 52 + low) ((field : Int) - 1075)

/-- `2 ^ n` for a whole exponent of either sign, as numerator and denominator. -/
def twoPow (n : Int) : Nat × Nat := (Nat.pow 2 n.toNat, Nat.pow 2 (-n).toNat)

/-- The quotient rounded to the nearest whole number, a half to the even neighbour. -/
def roundDiv (num den : Nat) : Nat :=
  let q := num / den
  let r := num % den
  if 2 * r > den ∨ (2 * r = den ∧ q % 2 = 1) then q + 1 else q

/-- The bits of the double nearest to `num / den`, without a sign. -/
def bitsOfRatio (num den : Nat) : Nat :=
  if num = 0 ∨ den = 0 then 0
  else
    let guess : Int := max ((Nat.log2 num : Int) - Nat.log2 den - 53) (-1074)
    let units (e : Int) : Nat × Nat := (num * (twoPow (-e)).1, den * (twoPow (-e)).2)
    let (n, d) := units guess
    let e := if n / d ≥ Nat.pow 2 53 then guess + 1 else guess
    let (n, d) := units e
    let q := roundDiv n d
    let bits := if q < Nat.pow 2 52 then q else (e + 1075).toNat * Nat.pow 2 52 + (q - Nat.pow 2 52)
    min bits (2047 * Nat.pow 2 52)

/-- The double nearest to `num / den`, below zero if `negative`. -/
def ofRatio (negative : Bool) (num den : Nat) : Float :=
  Float.ofBits (UInt64.ofNat (bitsOfRatio num den + if negative then Nat.pow 2 63 else 0))

/-- The double nearest to a whole number. -/
def ofInt (i : Int) : Float := ofRatio (i < 0) i.natAbs 1

/-- Not a number. -/
def nan : Float := Float.ofBits 0x7FF8000000000000

/-- Beyond every number, on either side. -/
def infinity (negative : Bool) : Float :=
  Float.ofBits (if negative then 0xFFF0000000000000 else 0x7FF0000000000000)

/-- A finite double as a quotient of whole numbers: sign, numerator, denominator. -/
def ratio? (x : Float) : Option (Bool × Nat × Nat) :=
  match Binary.of x with
  | .finite negative m e => some (negative, m * (twoPow e).1, (twoPow e).2)
  | _ => none

/-- The whole part of a finite double, cut towards zero. -/
def truncate? (x : Float) : Option Int :=
  (ratio? x).map fun (negative, n, d) => if negative then -((n / d : Nat) : Int) else (n / d : Nat)

/-- The greatest whole number not above a finite double. -/
def floor? (x : Float) : Option Int :=
  (ratio? x).map fun (negative, n, d) => (if negative then -(n : Int) else n) / (d : Int)

/-- The least whole number not below a finite double. -/
def ceil? (x : Float) : Option Int :=
  (ratio? x).map fun (negative, n, d) => -((if negative then (n : Int) else -n) / (d : Int))

/-- A finite double rounded to a whole number, a half to the even one. -/
def round? (x : Float) : Option Int :=
  (ratio? x).map fun (negative, n, d) =>
    let r : Int := roundDiv n d
    if negative then -r else r

/-- Whether a whole number and a double stand for the same value. -/
def intEq (i : Int) (x : Float) : Bool :=
  match ratio? x with
  | some (negative, n, d) => (if negative then -(n : Int) else n) == i * d
  | none => false

/-- Whether a whole number is less than a double. -/
def intLt (i : Int) (x : Float) : Bool :=
  match Binary.of x with
  | .nan => false
  | .infinite negative => !negative
  | .finite negative m e =>
    let n : Int := (m * (twoPow e).1 : Nat)
    i * ((twoPow e).2 : Nat) < (if negative then -n else n)

/-- Whether a double is less than a whole number. -/
def ltInt (x : Float) (i : Int) : Bool := intLt (-i) (-x)

end Stencil.Decimal
