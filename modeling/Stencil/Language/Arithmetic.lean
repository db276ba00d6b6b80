import Stencil.Language.Compare
import Stencil.Percent

/-!
# Arithmetic on values

Whole numbers have any size. Two of them are divided exactly and rounded once, quotients without a
remainder go to the floor, and a remainder has the sign of the divisor. A result with a double among
its operands is a double. Texts, lists and tuples can be joined, and repeated a number of times, and the
remainder of a text by a value is the text as a format with the value set in.
-/

namespace Stencil.Language

/-- A number as a double. -/
def doubleOf : Scalar.Number → Except Fault Float
  | .whole i =>
    let x := Decimal.ofInt i
    if x.isInf then .error .overflow else .ok x
  | .double x => .ok x

/-- The exact remainder of two doubles, with the sign of the first. -/
def remainder (x y : Float) : Float :=
  match Decimal.Binary.of x, Decimal.Binary.of y with
  | .finite s m e, .finite _ n f =>
    if n = 0 then Decimal.nan
    else
      let least := min e f
      let a := m * Nat.pow 2 (e - least).toNat
      let b := n * Nat.pow 2 (f - least).toNat
      let (up, down) := Decimal.twoPow least
      Decimal.ofRatio s (a % b * up) down
  | .finite .., .infinite _ => x
  | _, _ => Decimal.nan

/-- A double with the sign of another. -/
def withSign (x sign : Float) : Float :=
  let isNegative := sign.toBits ≥ 0x8000000000000000
  if isNegative then -x.abs else x.abs

/-- The floor of a quotient and the remainder that fits it, which has the sign of the divisor. -/
def floorDivision (x y : Float) : Float × Float :=
  let r := remainder x y
  let q := (x - r) / y
  let (r, q) :=
    if r != 0 then if (y < 0) != (r < 0) then (r + y, q - 1) else (r, q)
    else (withSign 0 y, q)
  let whole :=
    if q != 0 then
      let f := q.floor
      if q - f > 0.5 then f + 1 else f
    else withSign 0 (x / y)
  (whole, r)

/-- A power of doubles. -/
def floatPower (x y : Float) : Except Fault Float :=
  if x == 0 && y < 0 then .error .divisionByZero
  else
    let z := x.pow y
    if z.isInf && !x.isInf && !y.isInf then .error .overflow
    else if z.isNaN && !x.isNaN && !y.isNaN then .error .wrongKind
    else .ok z

/-- An operation on two numbers. -/
def operateNumbers (op : Binary) (m n : Scalar.Number) : Except Fault Value := do
  match op, m, n with
  | .add, .whole i, .whole j => return .int (i + j)
  | .sub, .whole i, .whole j => return .int (i - j)
  | .mul, .whole i, .whole j => return .int (i * j)
  | .div, .whole i, .whole j =>
    if j = 0 then throw .divisionByZero
    let x := Decimal.ofRatio ((i < 0) != (j < 0) && i != 0) i.natAbs j.natAbs
    if x.isInf then throw .overflow else return .float x
  | .floorDiv, .whole i, .whole j =>
    if j = 0 then throw .divisionByZero else return .int (Int.fdiv i j)
  | .mod, .whole i, .whole j => if j = 0 then throw .divisionByZero else return .int (Int.fmod i j)
  | .pow, .whole i, .whole (.ofNat j) => return .int (Int.pow i j)
  | op, m, n =>
    let x ← doubleOf m
    let y ← doubleOf n
    match op with
    | .add => return .float (x + y)
    | .sub => return .float (x - y)
    | .mul => return .float (x * y)
    | .div => if y == 0 then throw .divisionByZero else return .float (x / y)
    | .floorDiv => if y == 0 then throw .divisionByZero else return .float (floorDivision x y).1
    | .mod => if y == 0 then throw .divisionByZero else return .float (floorDivision x y).2
    | .pow => .float <$> floatPower x y

namespace Value

/-- Some texts joined: if one of them is safe the others are escaped. -/
def joinTexts (s : String) (safe : Bool) (t : String) (safe' : Bool) : Value :=
  match safe, safe' with
  | true, false => .text (s ++ escaped t) true
  | false, true => .text (escaped s ++ t) true
  | safe, _ => .text (s ++ t) safe

/-- A list repeated a number of times. -/
def repeated {α : Type} (items : List α) (times : Int) : List α :=
  (List.replicate times.toNat items).flatten

/-- A value made of parts, repeated. -/
def repeat? (times : Int) : Value → Run (Option Value)
  | text s safe => return some (.text (String.ofList (repeated s.toList times)) safe)
  | tuple items => return some (.tuple (repeated items times))
  | object a => do
    match ← Run.look a with
    | .list items => some <$> Run.list (repeated items times)
    | _ => return none
  | _ => return none

/-- Two values made of parts, joined. -/
def join? : Value → Value → Run (Option Value)
  | text s safe, text t safe' => return some (joinTexts s safe t safe')
  | tuple as, tuple bs => return some (.tuple (as ++ bs))
  | object a, object b => do
    match ← Run.look a, ← Run.look b with
    | .list as, .list bs => some <$> Run.list (as ++ bs)
    | _, _ => return none
  | _, _ => return none

/-- A value as one to be set into a format; into a safe one it is set escaped. -/
def argument (safe : Bool) (v : Value) : Run Percent.Argument := do
  let plain ← if safe then v.escapedText else v.shown
  let spelled ← v.spelled
  return { plain
           spelled := if safe then escaped spelled else spelled
           number? := v.number?
           text? := match v with | text s _ => if safe then none else some s | _ => none
           complaint? := match v with | undefined m => some m | _ => none }

/-- The values that a value gives to a format: the items of a tuple, a mapping with its entries, or the
value alone. -/
def arguments (safe : Bool) (v : Value) : Run Percent.Arguments := do
  match v with
  | tuple items => return .several (← items.mapM (argument safe))
  | v =>
    let whole ← argument safe v
    match v, ← v.object? with
    | _, some (.dict entries) =>
      let named ← entries.filterMapM fun (k, w) => do
        match k with
        | text name _ => return some (name, ← argument safe w)
        | _ => return none
      return .named whole fun name => match named.lookup name with
        | some a => .ok a
        | none => .error .noSuchKey
    | _, some (.list _) | range .., _ => return .named whole fun _ => .error .wrongKind
    | undefined m, _ => return .named whole fun _ => .error (.undefined m)
    | _, _ => return .several [whole]

/-- The fault of a template whose format cannot be filled in. -/
def faultOfFormat : Percent.Fault → Fault
  | .wrongKind => .wrongKind
  | .wrongValue m => .wrongValue m
  | .noSuchKey => .noSuchKey
  | .overflow => .overflow
  | .undefined m => .undefined m

/-- A text as a format with a value set in. -/
def filled (s : String) (safe : Bool) (v : Value) : Run Value := do
  match Percent.format s (← arguments safe v) with
  | .ok r => return .text r safe
  | .error f => throw (faultOfFormat f)

/-- An operation on two values that are defined. -/
def operateDefined (op : Binary) (v w : Value) : Run Value := do
  match v.number?, w.number? with
  | some m, some n => operateNumbers op m n
  | _, _ =>
    let found ←
      match op with
      | .add => join? v w
      | .mul =>
        match v.whole?, w.whole? with
        | none, some n => repeat? n v
        | some n, none => repeat? n w
        | _, _ => pure none
      | _ => pure none
    match found with
    | some r => return r
    | none => throw .wrongKind

/-- An operation on two values. -/
def operate (op : Binary) (v w : Value) : Run Value := do
  match op, v, w with
  | _, undefined m, _ => throw (.undefined m)
  | .mod, text s safe, w => filled s safe w
  | _, _, undefined m => throw (.undefined m)
  | op, v, w => operateDefined op v w

/-- An operation on one value. -/
def operateOne (op : Unary) : Value → Run Value
  | undefined m => throw (.undefined m)
  | v =>
    match op, v.number? with
    | .neg, some (.whole i) => return .int (-i)
    | .neg, some (.double x) => return .float (-x)
    | .pos, some (.whole i) => return .int i
    | .pos, some (.double x) => return .float x
    | _, none => throw .wrongKind

end Value

end Stencil.Language
