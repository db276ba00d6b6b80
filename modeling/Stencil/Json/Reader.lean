import Stencil.Datum
import Stencil.Decimal.Limit
import Stencil.Decimal.Reading

/-!
# Reading JSON

A reader for JSON texts. It works on the characters that are left, so the place of a fault is how
many of them there are. Beyond the standard it knows the words `NaN`, `Infinity` and `-Infinity`; of
a name that occurs twice in an object the last value counts, in the place of the first. A whole number
that is too long to be read is a fault of its own, which has no place.
-/

namespace Stencil.Json

/-- What is wrong with a text that is not JSON. -/
inductive Cause where
  | expectingValue
  | extraData
  | expectingName
  | expectingColon
  | expectingComma
  | unterminatedString
  | controlCharacter
  | invalidEscape
  | invalidUnicodeEscape
  | byteOrderMark
  deriving Repr, DecidableEq

namespace Cause

/-- The cause in words. -/
def message : Cause → String
  | expectingValue => "Expecting value"
  | extraData => "Extra data"
  | expectingName => "Expecting property name enclosed in double quotes"
  | expectingColon => "Expecting ':' delimiter"
  | expectingComma => "Expecting ',' delimiter"
  | unterminatedString => "Unterminated string starting at"
  | controlCharacter => "Invalid control character at"
  | invalidEscape => "Invalid \\escape"
  | invalidUnicodeEscape => "Invalid \\uXXXX escape"
  | byteOrderMark => "Unexpected UTF-8 BOM (decode using utf-8-sig)"

end Cause

/-- A fault met while reading. -/
inductive Stop where
  /-- A broken rule of the format, and how many characters were left at its place. -/
  | malformed (cause : Cause) (left : Nat)
  /-- A number that cannot be, with what is wrong. -/
  | impossible (message : String)
  deriving Repr, DecidableEq

/-- Why a text cannot be read. -/
inductive Fault where
  /-- A broken rule of the format, and its place in the text. -/
  | malformed (cause : Cause) (position line column : Nat)
  /-- A number that cannot be, with what is wrong. -/
  | impossible (message : String)
  deriving Repr, DecidableEq

namespace Fault

/-- The fault in words, with its place if it has one. -/
def message : Fault → String
  | malformed cause position line column =>
    s!"{cause.message}: line {line} column {column} (char {position})"
  | impossible message => message

/-- A fault in a text, with its place in place of what was left there. -/
def ofStop (text : List Char) : Stop → Fault
  | .malformed cause left =>
    let position := text.length - left
    let before := text.take position
    .malformed cause position (before.count '\n' + 1)
      ((before.reverse.takeWhile (· != '\n')).length + 1)
  | .impossible message => .impossible message

end Fault

/-- A broken rule at the given remaining characters. -/
def stop {α : Type} (cause : Cause) (left : List Char) : Except Stop α :=
  .error (.malformed cause left.length)

/-- Whether a character is white space between tokens. -/
def isSpace (c : Char) : Bool := c == ' ' || c == '\t' || c == '\n' || c == '\r'

/-- The characters after white space. -/
def skipSpace (cs : List Char) : List Char := cs.dropWhile isSpace

/-- The value of four hexadecimal digits. -/
def hexFour? (a b c d : Char) : Option Nat := do
  let a ← Text.baseDigit 16 a
  let b ← Text.baseDigit 16 b
  let c ← Text.baseDigit 16 c
  let d ← Text.baseDigit 16 d
  return ((a * 16 + b) * 16 + c) * 16 + d

/-- The character that a letter after a backslash stands for. -/
def simpleEscape? : Char → Option Char
  | '"' => some '"'
  | '\\' => some '\\'
  | '/' => some '/'
  | 'b' => some '\x08'
  | 'f' => some '\x0c'
  | 'n' => some '\n'
  | 'r' => some '\r'
  | 't' => some '\t'
  | _ => none

/-- Whether a number is the first half of a pair that writes one character. -/
def isHighHalf (n : Nat) : Bool := 0xD800 ≤ n && n < 0xDC00

/-- Whether a number is the second half of such a pair. -/
def isLowHalf (n : Nat) : Bool := 0xDC00 ≤ n && n < 0xE000

/-- The character that two halves write. -/
def joinHalves (high low : Nat) : Char :=
  Char.ofNat (0x10000 + (high - 0xD800) * 0x400 + (low - 0xDC00))

/-- The character of a number; half of a pair alone stands for no character. -/
def charOf (n : Nat) : Char :=
  if isHighHalf n || isLowHalf n then '\uFFFD' else Char.ofNat n

/-- The second half of a pair, if an escape that writes one follows. An escape at the very end of the
text is not looked at. -/
def lowHalf? : List Char → Except Stop (Option Nat)
  | '\\' :: 'u' :: a :: b :: c :: d :: e :: rest =>
    match hexFour? a b c d with
    | none => stop .invalidUnicodeEscape ('u' :: a :: b :: c :: d :: e :: rest)
    | some low => .ok (if isLowHalf low then some low else none)
  | _ => .ok none

/-- The rest of a string after its opening quote; `opening` is what was left at that quote. -/
def stringRest (opening : Nat) : List Char → Except Stop (List Char × List Char)
  | [] => .error (.malformed .unterminatedString opening)
  | '"' :: rest => .ok ([], rest)
  | '\\' :: [] => .error (.malformed .unterminatedString opening)
  | '\\' :: 'u' :: a :: b :: c :: d :: e :: rest =>
    match hexFour? a b c d with
    | none => stop .invalidUnicodeEscape ('u' :: a :: b :: c :: d :: e :: rest)
    | some high => do
      match ← if isHighHalf high then lowHalf? (e :: rest) else .ok none with
      | some low =>
        let (cs, after) ← stringRest opening ((e :: rest).drop 6)
        return (joinHalves high low :: cs, after)
      | none =>
        let (cs, after) ← stringRest opening (e :: rest)
        return (charOf high :: cs, after)
  | '\\' :: 'u' :: rest => stop .invalidUnicodeEscape ('u' :: rest)
  | '\\' :: c :: rest =>
    match simpleEscape? c with
    | none => stop .invalidEscape ('\\' :: c :: rest)
    | some e => do
      let (cs, after) ← stringRest opening rest
      return (e :: cs, after)
  | c :: rest =>
    if c.toNat < 0x20 then stop .controlCharacter (c :: rest)
    else do
      let (cs, after) ← stringRest opening rest
      return (c :: cs, after)
termination_by cs => cs.length
decreasing_by all_goals (simp only [List.length_drop, List.length_cons]; omega)

/-- The digits at the start, and the rest. -/
def digits (cs : List Char) : List Char × List Char := (cs.takeWhile Char.isDigit, cs.dropWhile Char.isDigit)

/-- The value of decimal digits. -/
def digitsValue (cs : List Char) : Nat := cs.foldl (fun n c => n * 10 + (c.toNat - 48)) 0

/-- The whole part of a number: a zero alone, or digits that start with no zero. -/
def wholePart? : List Char → Option (List Char × List Char)
  | '0' :: rest => some (['0'], rest)
  | c :: rest => if c.isDigit then some (digits (c :: rest)) else none
  | [] => none

/-- The digits after a point, if a point with digits follows. -/
def fractionPart : List Char → List Char × List Char
  | '.' :: rest =>
    match digits rest with
    | ([], _) => ([], '.' :: rest)
    | (ds, after) => (ds, after)
  | cs => ([], cs)

/-- The exponent, if one with digits follows. -/
def exponentPart? (cs : List Char) : Option (Int × List Char) :=
  match cs with
  | c :: rest =>
    if c = 'e' ∨ c = 'E' then
      let (negative, body) := Decimal.splitSign rest
      match digits body with
      | ([], _) => none
      | (ds, after) =>
        let n : Int := digitsValue ds
        some (if negative then -n else n, after)
    else none
  | [] => none

/-- A whole number of decimal digits, if they are not too many. -/
def wholeOf (negative : Bool) (ds : List Char) : Except Stop Scalar :=
  if Decimal.digitLimit < ds.length then .error (.impossible (Decimal.tooLongToRead ds.length))
  else
    let n : Int := digitsValue ds
    .ok (.int (if negative then -n else n))

/-- A number without its sign: whole if it has neither fraction nor exponent. -/
def number? (negative : Bool) (cs : List Char) : Option (Except Stop Scalar × List Char) :=
  match wholePart? cs with
  | none => none
  | some (whole, rest) =>
    let (fraction, rest) := fractionPart rest
    match fraction, exponentPart? rest with
    | [], none => some (wholeOf negative whole, rest)
    | fraction, exponent =>
      let (e, rest) := exponent.getD (0, rest)
      let x := Decimal.ofDecimal negative (digitsValue (whole ++ fraction)) (e - fraction.length)
      some (.ok (.float x), rest)

/-- The words that stand for values. -/
def words : List (List Char × Scalar) :=
  [("null".toList, .null), ("true".toList, .bool true), ("false".toList, .bool false),
   ("NaN".toList, .float Decimal.nan), ("Infinity".toList, .float (Decimal.infinity false)),
   ("-Infinity".toList, .float (Decimal.infinity true))]

/-- The rest after a word, if the text starts with it. -/
def afterWord? : (word text : List Char) → Option (List Char)
  | [], text => some text
  | _ :: _, [] => none
  | w :: word, c :: text => if w = c then afterWord? word text else none

/-- A value without parts that is not a string. -/
def plainValue (cs : List Char) : Except Stop (Datum × List Char) :=
  match words.findSome? fun (word, s) => (afterWord? word cs).map fun rest => (s, rest) with
  | some (s, rest) => .ok (.scalar s, rest)
  | none =>
    let found :=
      match cs with
      | '-' :: rest => number? true rest
      | _ => number? false cs
    match found with
    | some (s, rest) => s.map fun s => (.scalar s, rest)
    | none => stop .expectingValue cs

mutual

/-- A value, starting at the first character. -/
def value : (fuel : Nat) → List Char → Except Stop (Datum × List Char)
  | 0, cs => stop .expectingValue cs
  | _ + 1, '"' :: rest => do
    let (s, after) ← stringRest (rest.length + 1) rest
    return (.text (String.ofList s), after)
  | fuel + 1, '[' :: rest =>
    match skipSpace rest with
    | ']' :: after => .ok (.list [], after)
    | items => do
      let (ds, after) ← elements fuel items
      return (.list ds, after)
  | fuel + 1, '\x7b' :: rest =>
    match skipSpace rest with
    | '\x7d' :: after => .ok (.map [], after)
    | fields => do
      let (es, after) ← members fuel fields
      return (.map (Datum.ofEntries es), after)
  | _ + 1, cs => plainValue cs

/-- The items of a list up to its closing bracket; there is at least one. -/
def elements : (fuel : Nat) → List Char → Except Stop (List Datum × List Char)
  | 0, cs => stop .expectingValue cs
  | fuel + 1, cs => do
    let (d, rest) ← value fuel cs
    match skipSpace rest with
    | ']' :: after => return ([d], after)
    | ',' :: after => do
      let (ds, after) ← elements fuel (skipSpace after)
      return (d :: ds, after)
    | left => stop .expectingComma left

/-- The members of an object up to its closing brace; there is at least one. -/
def members : (fuel : Nat) → List Char → Except Stop (List (Scalar × Datum) × List Char)
  | fuel + 1, '"' :: rest => do
    let (name, rest) ← stringRest (rest.length + 1) rest
    match skipSpace rest with
    | ':' :: rest => do
      let (d, rest) ← value fuel (skipSpace rest)
      match skipSpace rest with
      | '\x7d' :: after => return ([(.text (String.ofList name), d)], after)
      | ',' :: after => do
        let (es, after) ← members fuel (skipSpace after)
        return ((.text (String.ofList name), d) :: es, after)
      | left => stop .expectingComma left
    | left => stop .expectingColon left
  | _, cs => stop .expectingName cs

end

/-- The value that a list of characters writes, with nothing but white space around it. -/
def readChars (cs : List Char) : Except Stop Datum :=
  match cs with
  | '\uFEFF' :: _ => stop .byteOrderMark cs
  | _ => do
    let (d, rest) ← value (2 * cs.length + 1) (skipSpace cs)
    match skipSpace rest with
    | [] => return d
    | left => stop .extraData left

/-- The value that a text writes. -/
def read (text : String) : Except Fault Datum :=
  match readChars text.toList with
  | .ok d => .ok d
  | .error stop => .error (.ofStop text.toList stop)

end Stencil.Json
