import Stencil.Datum
import Stencil.Decimal.Fixed

/-!
# Percent formats

A format is a text in which a percent sign starts a field that a value is set into. A field may name a
value of a mapping, has flags, a width and a precision, and ends in a letter that says how the value
is written: as a text, as a whole number in a base, with a fraction, or as a single character. Without
names, the fields take the values in order, and all have to be used up.
-/

namespace Stencil.Percent

/-- Why a format cannot be filled in. -/
inductive Fault where
  /-- A value is missing, left over, or of a kind that its field cannot write. -/
  | wrongKind
  /-- The format itself is wrong, or a number cannot be written as the field says. -/
  | wrongValue (message : String)
  | noSuchKey
  | overflow
  /-- A value that is not defined was used as a number. -/
  | undefined (message : String)
  deriving Repr, DecidableEq

/-- A value to be set into a field. -/
structure Argument where
  /-- The value as a text of its own. -/
  plain : String
  /-- The value as it is written out among others. -/
  spelled : String
  number? : Option Scalar.Number
  /-- The value itself where it is a text. -/
  text? : Option String
  /-- What to say when a value that is not defined is used. -/
  complaint? : Option String := none
  /-- Whether the value can be written out. -/
  isWritable : Bool := true

/-- The values for a format. -/
inductive Arguments where
  /-- Values to be taken in order. -/
  | several (values : List Argument)
  /-- A collection, which is the first value and also gives values by name; it need not be used. -/
  | named (whole : Argument) (find : String → Except Fault Argument)

/-- The argument that a value makes. -/
def Argument.ofDatum (d : Datum) : Argument :=
  { plain := d.plain
    spelled := d.spelled
    number? := match d with | .scalar s => s.number? | _ => none
    text? := match d with | .text s => some s | _ => none
    isWritable := d.isWritable }

/-- A field: its flags, its width and its precision. -/
structure Field where
  left : Bool := false
  plus : Bool := false
  blank : Bool := false
  alternate : Bool := false
  zero : Bool := false
  width : Nat := 0
  precision : Option Nat := none

/-- How far a format is filled in: the characters left with their place, and the values left. -/
structure State where
  rest : List Char
  values : List Argument

/-- The next value. -/
def next (values : List Argument) : Except Fault (Argument × List Argument) :=
  match values with
  | a :: rest => .ok (a, rest)
  | [] => .error .wrongKind

/-- Reads the flags of a field. -/
def readFlags : List Char → Field → List Char × Field
  | '-' :: rest, f => readFlags rest { f with left := true }
  | '+' :: rest, f => readFlags rest { f with plus := true }
  | ' ' :: rest, f => readFlags rest { f with blank := true }
  | '#' :: rest, f => readFlags rest { f with alternate := true }
  | '0' :: rest, f => readFlags rest { f with zero := true }
  | rest, f => (rest, f)

/-- Reads a count below a limit: digits, or a star that takes it from the values, and then it is not below
the negative limit either. -/
def readCount (name : String) (limit : Nat) (s : State) : Except Fault (Option Int × State) := do
  match s.rest with
  | '*' :: rest =>
    let (a, values) ← next s.values
    match a.number? with
    | some (.whole i) =>
      if i < -(limit : Int) || (limit : Int) ≤ i then throw .overflow
      else return (some i, { rest, values })
    | _ => throw .wrongKind
  | rest =>
    let digits := rest.takeWhile Char.isDigit
    if digits.isEmpty then return (none, s)
    else
      let n := Text.digitsValue 10 (digits.filterMap Text.digitValue)
      if limit ≤ n then throw (.wrongValue s!"{name} too big")
      else return (some n, { s with rest := rest.drop digits.length })

/-- Reads the flags, the width and the precision of a field. -/
def readField (s : State) : Except Fault (Field × State) := do
  let (rest, f) := readFlags s.rest {}
  let (width, s) ← readCount "width" 0x8000000000000000 { s with rest }
  let f :=
    match width with
    | some w => { f with left := f.left || w < 0, width := w.natAbs }
    | none => f
  let (f, s) ←
    match s.rest with
    | '.' :: rest => do
      let (precision, s) ← readCount "precision" 0x80000000 { s with rest }
      pure ({ f with precision := some (precision.getD 0).toNat }, s)
    | _ => pure (f, s)
  let rest := match s.rest with
    | c :: rest => if c = 'h' || c = 'l' || c = 'L' then rest else s.rest
    | [] => []
  return (f, { s with rest })

/-- Blanks before a text, or after it. -/
def pad (f : Field) (s : String) : String :=
  let blanks := String.ofList (List.replicate (f.width - s.length) ' ')
  if f.left then s ++ blanks else blanks ++ s

/-- A text in its field; the precision cuts it. -/
def textField (f : Field) (s : String) : String :=
  pad f (match f.precision with | some p => String.ofList (s.toList.take p) | none => s)

/-- A number in its field: its sign, its base where that is shown, and its digits. -/
def numberField (f : Field) (negative : Bool) (base digits : String) : String :=
  let sign := if negative then "-" else if f.plus then "+" else if f.blank then " " else ""
  if f.zero && !f.left then
    let zeros := f.width - (sign.length + base.length + digits.length)
    sign ++ base ++ String.ofList (List.replicate zeros '0') ++ digits
  else pad f (sign ++ base ++ digits)

/-- A whole number in a base, in letters of either case, with at least so many digits as the precision
says. -/
def wholeField (f : Field) (base : Nat) (mark : String) (upper : Bool) (i : Int) : String :=
  let digits := String.ofList (Nat.toDigits base i.natAbs)
  let digits := Decimal.padZeros (f.precision.getD 1) digits
  let cased (s : String) := if upper then s.map Char.toUpper else s
  numberField f (i < 0) (if f.alternate then cased mark else "") (cased digits)

/-- A text of digits with a point before its exponent even where nothing follows it. -/
def withPoint (s : String) : String :=
  let cs := s.toList
  let mantissa := cs.takeWhile (· != 'e')
  if mantissa.contains '.' then s
  else String.ofList (mantissa ++ '.' :: cs.drop mantissa.length)

/-- A finite value without sign in the notation of a letter. -/
def fractionDigits (letter : Char) (alternate : Bool) (precision num den : Nat) : String :=
  let s :=
    if letter = 'e' then Decimal.scientific num den precision
    else if letter = 'f' then Decimal.fixed num den precision
    else Decimal.general num den precision alternate
  if alternate then withPoint s else s

/-- A double in its field. -/
def fractionField (f : Field) (letter : Char) (x : Float) : String :=
  let lower := letter.toLower
  let (negative, digits) :=
    match Decimal.ratio? x with
    | some (negative, num, den) =>
      (negative, fractionDigits lower f.alternate (f.precision.getD 6) num den)
    | none => if x.isNaN then (false, "nan") else (decide (x < 0), "inf")
  numberField f negative "" (if letter = lower then digits else digits.map Char.toUpper)

/-- The fault of a value that is used as a number and is none. -/
def noNumber (a : Argument) : Fault :=
  match a.complaint? with
  | some m => .undefined m
  | none => .wrongKind

/-- A value as a whole number, the fraction dropped. -/
def asWhole (a : Argument) : Except Fault Int :=
  match a.number? with
  | some (.whole i) => .ok i
  | some (.double x) =>
    match Decimal.truncate? x with
    | some i => .ok i
    | none =>
      .error (if x.isNaN then .wrongValue "cannot convert float NaN to integer" else .overflow)
  | none => .error (noNumber a)

/-- A value as a double. -/
def asDouble (a : Argument) : Except Fault Float :=
  match a.number? with
  | some (.double x) => .ok x
  | some (.whole i) =>
    let x := Decimal.ofInt i
    if x.isFinite then .ok x else .error .overflow
  | none => .error (noNumber a)

/-- A value as a whole number that has to be one. -/
def exactWhole (a : Argument) : Except Fault Int :=
  match a.number? with
  | some (.whole i) => .ok i
  | _ => .error .wrongKind

/-- A value as a single character. -/
def asLetter (a : Argument) : Except Fault String :=
  match a.text?, a.number? with
  | some s, _ => if s.length = 1 then .ok s else .error .wrongKind
  | none, some (.whole i) =>
    if i < 0 || i > 0x10FFFF then .error .overflow else .ok (String.singleton (Char.ofNat i.toNat))
  | _, _ => .error .wrongKind

/-- A text in which every character outside of ASCII is written by its code point. -/
def asciiOnly (s : String) : String :=
  String.ofList <| s.toList.flatMap fun c =>
    let n := c.toNat
    if n < 0x80 then [c]
    else if n < 0x100 then '\\' :: 'x' :: Text.hexDigits 2 n
    else if n < 0x10000 then '\\' :: 'u' :: Text.hexDigits 4 n
    else '\\' :: 'U' :: Text.hexDigits 8 n

/-- What a value is written as, if it can be written out. -/
def written (a : Argument) (text : String) : Except Fault String :=
  if a.isWritable then .ok text else .error (.wrongValue Decimal.tooLongToWrite)

/-- A value as a whole number that can be written in base ten. -/
def decimalWhole (a : Argument) : Except Fault Int := do
  let i ← asWhole a
  if Decimal.isWritable i then return i else throw (.wrongValue Decimal.tooLongToWrite)

/-- A value in the field that ends in a letter; `place` is the place of the letter. -/
def fill (f : Field) (letter : Char) (place : Nat) (a : Argument) : Except Fault String := do
  match letter with
  | 's' => return textField f (← written a a.plain)
  | 'r' => return textField f (← written a a.spelled)
  | 'a' => return textField f (asciiOnly (← written a a.spelled))
  | 'd' | 'i' | 'u' => return wholeField { f with alternate := false } 10 "" false (← decimalWhole a)
  | 'o' => return wholeField f 8 "0o" false (← exactWhole a)
  | 'x' => return wholeField f 16 "0x" false (← exactWhole a)
  | 'X' => return wholeField f 16 "0x" true (← exactWhole a)
  | 'c' => return pad f (← asLetter a)
  | letter =>
    if "eEfFgG".toList.contains letter then return fractionField f letter (← asDouble a)
    else
      let shown := if 31 ≤ letter.toNat && letter.toNat ≤ 126 then letter else '?'
      let code := String.ofList ((Nat.toDigits 16 letter.toNat))
      throw (.wrongValue
        s!"unsupported format character '{shown}' (0x{code}) at index {place}")

/-- The name between brackets, which may hold brackets in pairs, and the rest after it. -/
def readName : (depth : Nat) → List Char → Option (List Char × List Char)
  | _, [] => none
  | depth, ')' :: rest =>
    match depth with
    | 0 => some ([], rest)
    | depth + 1 => (readName depth rest).map fun (name, after) => (')' :: name, after)
  | depth, c :: rest =>
    (readName (if c = '(' then depth + 1 else depth) rest).map fun (name, after) => (c :: name, after)

/-- The values for a field: those left, or the one that the field names. -/
def valuesFor (arguments : Arguments) (s : State) : Except Fault State :=
  match s.rest with
  | '(' :: rest =>
    match arguments with
    | .several _ => .error .wrongKind
    | .named _ find =>
      match readName 0 rest with
      | none => .error (.wrongValue "incomplete format key")
      | some (name, after) => do
        let a ← find (String.ofList name)
        return { rest := after, values := [a] }
  | _ => .ok s

/-- Fills in what is left of a format of so many characters. Answers the text and the values left. -/
def run (length : Nat) (arguments : Arguments) : (fuel : Nat) → State →
    Except Fault (String × List Argument)
  | 0, s => .ok ("", s.values)
  | fuel + 1, s => do
    match s.rest with
    | [] => return ("", s.values)
    | '%' :: rest =>
      let s ← valuesFor arguments { s with rest }
      let (f, s) ← readField s
      match s.rest with
      | [] => throw (.wrongValue "incomplete format")
      | letter :: after =>
        let (here, values) ←
          if letter = '%' then pure ("%", s.values)
          else do
            let (a, values) ← next s.values
            pure (← fill f letter (length - s.rest.length) a, values)
        let (more, values) ← run length arguments fuel { rest := after, values }
        return (here ++ more, values)
    | c :: rest =>
      let (more, values) ← run length arguments fuel { s with rest }
      return (String.singleton c ++ more, values)

/-- A format with its values set in. -/
def format (text : String) (arguments : Arguments) : Except Fault String := do
  let cs := text.toList
  let values := match arguments with
    | .several values => values
    | .named whole _ => [whole]
  let (filled, left) ← run cs.length arguments (cs.length + 1) ⟨cs, values⟩
  match arguments with
  | .several _ => if left.isEmpty then return filled else throw .wrongKind
  | .named .. => return filled

end Stencil.Percent
