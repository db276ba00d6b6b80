import Stencil.Decimal.Binary

/-!
# Shortest decimals

The text of a double is the shortest decimal that reads back as the same double, and among those of
that length the nearest. All comparisons are made on whole numbers, so nothing is rounded on the way.

A double with `m` units has every real between the middles to its two neighbours for its own; the
middles belong to it when `m` is even. The neighbour below a power of two is only half as far away.
-/

namespace Stencil.Decimal

/-- The reals that read back as a given double: numerators over one denominator, and whether the
ends belong to it. -/
structure Interval where
  low : Nat
  value : Nat
  high : Nat
  den : Nat
  closed : Bool

namespace Interval

/-- The interval of the double `m * 2 ^ e`. -/
def around (m : Nat) (e : Int) : Interval :=
  let (up, down) := twoPow e
  let below := if m = Nat.pow 2 52 ∧ e > -1074 then 1 else 2
  { low := (4 * m - below) * up
    value := 4 * m * up
    high := (4 * m + 2) * up
    den := 4 * down
    closed := m % 2 = 0 }

/-- Whether `d * 10 ^ u` reads back as the double. -/
def holds (i : Interval) (d : Nat) (u : Int) : Bool :=
  let x := d * Nat.pow 10 u.toNat * i.den
  let scale := Nat.pow 10 (-u).toNat
  if i.closed then i.low * scale ≤ x && x ≤ i.high * scale
  else i.low * scale < x && x < i.high * scale

/-- How many whole `10 ^ u` fit below the value. -/
def quotient (i : Interval) (u : Int) : Nat :=
  i.value * Nat.pow 10 (-u).toNat / (i.den * Nat.pow 10 u.toNat)

/-- Of the multiples `d` and `d + 1` of `10 ^ u`, with the value between them, whether the upper one
is nearer; an exact half goes to the even one. -/
def prefersUpper (i : Interval) (d : Nat) (u : Int) : Bool :=
  let v := i.value * Nat.pow 10 (-u).toNat
  let step := i.den * Nat.pow 10 u.toNat
  let below := v - d * step
  2 * below > step || (2 * below == step && d % 2 == 1)

/-- The multiple of `10 ^ u` that reads back, the nearer one where both do. -/
def onGrid? (i : Interval) (u : Int) : Option Nat :=
  let d := i.quotient u
  match d != 0 && i.holds d u, i.holds (d + 1) u with
  | true, true => some (if i.prefersUpper d u then d + 1 else d)
  | true, false => some d
  | false, true => some (d + 1)
  | false, false => none

/-- The first grid, from coarse to fine, on which some decimal reads back. -/
def search (i : Interval) : (fuel : Nat) → (u : Int) → Nat × Int
  | 0, u => (i.quotient u, u)
  | fuel + 1, u =>
    match i.onGrid? u with
    | some d => (d, u)
    | none => i.search fuel (u - 1)

/-- The number of decimal digits before the point, at most zero for a value below one. -/
def magnitude (i : Interval) : Int :=
  let guess := ((Nat.log2 i.value : Int) - Nat.log2 i.den - 2) * 30103 / 100000
  let step (n : Int) : Int := if i.quotient n = 0 then n else n + 1
  step (step (step (step (guess - 1))))

end Interval

/-- Digits without zeros at the end, and the exponent that goes with them. -/
def dropZeros : (fuel : Nat) → Nat × Int → Nat × Int
  | 0, p => p
  | fuel + 1, (d, u) => if d % 10 = 0 ∧ d ≠ 0 then dropZeros fuel (d / 10, u + 1) else (d, u)

/-- The shortest decimal `d * 10 ^ u` for the double `m * 2 ^ e`. -/
def shortest (m : Nat) (e : Int) : Nat × Int :=
  let i := Interval.around m e
  dropZeros 20 (i.search 18 (i.magnitude))

/-- How decimals are written: the exponents, counted as the place of the point after the first
digit, that are written with a point, and the least number of digits of a written exponent. -/
structure Style where
  least : Int
  beyond : Int
  exponentDigits : Nat

/-- A number from `0.0001` to below `10 ^ 16` is written with a point, any other with an exponent of
at least two digits and its sign. -/
def plainStyle : Style := ⟨-4, 16, 2⟩

/-- Pads a text of digits with zeros on the left. -/
def padZeros (width : Nat) (s : String) : String :=
  String.ofList (List.replicate (width - s.length) '0') ++ s

/-- The decimal `d * 10 ^ u`, with a fraction of at least one digit where it has a point. -/
def writeDecimal (style : Style) (d : Nat) (u : Int) : String :=
  let digits := toString d
  let n := digits.length
  let lead : Int := n - 1 + u
  if style.least ≤ lead ∧ lead < style.beyond then
    if u ≥ 0 then digits ++ String.ofList (List.replicate u.toNat '0') ++ ".0"
    else if lead ≥ 0 then
      let whole := (lead + 1).toNat
      String.ofList (digits.toList.take whole) ++ "." ++ String.ofList (digits.toList.drop whole)
    else "0." ++ String.ofList (List.replicate (-lead - 1).toNat '0') ++ digits
  else
    let fraction := if n = 1 then "" else "." ++ String.ofList (digits.toList.drop 1)
    String.ofList (digits.toList.take 1) ++ fraction ++ "e" ++ (if lead < 0 then "-" else "+") ++
      padZeros style.exponentDigits (toString lead.natAbs)

/-- The text of a double. -/
def text (x : Float) : String :=
  match Binary.of x with
  | .nan => "nan"
  | .infinite negative => if negative then "-inf" else "inf"
  | .finite negative m e =>
    let sign := if negative then "-" else ""
    if m = 0 then sign ++ "0.0"
    else
      let (d, u) := shortest m e
      sign ++ writeDecimal plainStyle d u

end Stencil.Decimal
