import Stencil.Yaml.Moment
import Stencil.Decimal.Limit
import Stencil.Decimal.Reading
import Stencil.Text.Base64
import Stencil.Text.Case
import Stencil.Text.Cut

/-!
# Scalars in YAML

A scalar without quotes and tag is what its spelling says: nothing, a truth value, a whole number in
one of five notations, a fraction, a moment, or else a text. A tag demands a kind, and the text must
then be readable as one.
-/

namespace Stencil.Yaml

/-- The kinds of scalars. -/
inductive ScalarKind where
  | null
  | bool
  | int
  | float
  | binary
  | moment
  | text
  /-- The key whose value's entries are taken over. -/
  | merge
  /-- The key whose value stands for its whole mapping. -/
  | value
  deriving Repr, DecidableEq

/-- The words for true and false, in lower case. -/
def truthWords : List (String × Bool) :=
  [("yes", true), ("no", false), ("true", true), ("false", false), ("on", true), ("off", false)]

/-- Whether a word is written in lower case, in upper case, or with a capital. -/
def isEvenCase (word : String) : Bool :=
  match word.toList with
  | [] => true
  | c :: rest => rest.all Char.isLower || (c.isUpper && rest.all Char.isUpper)

/-- Whether a spelling is a word of a list, evenly written. -/
def isWord (words : List String) (s : String) : Bool :=
  isEvenCase s && words.contains (String.ofList (s.toList.map Char.toLower))

/-- Whether a character is a digit or a low line. -/
def isSpacedDigit (c : Char) : Bool := c.isDigit || c == '_'

/-- Whether a list has a member and all its members are of a class. -/
def someAll (p : Char → Bool) (cs : List Char) : Bool := !cs.isEmpty && cs.all p

/-- Whether signs are digits, low lines between them, the first one a digit. -/
def isDigits (cs : List Char) : Bool := cs.head?.any Char.isDigit && cs.all isSpacedDigit

/-- Whether signs are a part in base sixty after the first: up to 59. -/
def isSixtieth : List Char → Bool
  | [d] => d.isDigit
  | [t, d] => '0' ≤ t && t ≤ '5' && d.isDigit
  | _ => false

/-- The signs between colons. -/
def colonParts (cs : List Char) : List (List Char) := Text.splitWord [':'] cs.length cs

/-- Whether signs after the sign of a number write a whole number. -/
def spellsWhole (cs : List Char) : Bool :=
  match cs with
  | ['0'] => true
  | '0' :: 'b' :: rest => someAll (fun c => c == '0' || c == '1' || c == '_') rest
  | '0' :: 'x' :: rest => someAll (fun c => (Text.baseDigit 16 c).isSome || c == '_') rest
  | '0' :: rest => someAll (fun c => ('0' ≤ c && c ≤ '7') || c == '_') rest
  | cs =>
    match colonParts cs with
    | first :: rest => isDigits first && rest.all isSixtieth
    | [] => false

/-- Whether signs are an exponent, or none are there. -/
def isExponent : List Char → Bool
  | [] => true
  | e :: sign :: rest => (e == 'e' || e == 'E') && (sign == '-' || sign == '+') && someAll Char.isDigit rest
  | _ => false

/-- Whether signs after the point of a fraction end it properly. -/
def isFractionEnd (cs : List Char) : Bool := isExponent (cs.dropWhile isSpacedDigit)

/-- Whether signs after the sign of a number write a fraction. -/
def spellsFraction (cs : List Char) : Bool :=
  let whole := cs.takeWhile (· != '.')
  match cs.dropWhile (· != '.') with
  | [] => false
  | _ :: rest =>
    if isDigits whole then isFractionEnd rest
    else
      match colonParts whole with
      | first :: part :: parts => isDigits first && (part :: parts).all isSixtieth && rest.all isSpacedDigit
      | _ => false

/-- The kind that a spelling without quotes says. -/
def kindOf (s : String) : ScalarKind :=
  let cs := s.toList
  let (_, body) := Decimal.splitSign cs
  if s = "<<" then .merge
  else if s = "=" then .value
  else if s = "" || s = "~" || isWord ["null"] s then .null
  else if isWord (truthWords.map (·.1)) s then .bool
  else if spellsFraction body || [".inf", ".Inf", ".INF"].contains (String.ofList body) then .float
  else if [".nan", ".NaN", ".NAN"].contains s then .float
  else if cs.head? = some '.' && isDigits (cs.drop 1 |>.takeWhile isSpacedDigit) && isFractionEnd (cs.drop 1) then
    .float
  else if spellsWhole body then .int
  else if isMoment cs then .moment
  else .text

/-- The number that parts in base sixty write. -/
def sixties (parts : List Int) : Int := parts.foldl (fun n d => n * 60 + d) 0

/-- What is wrong with a text that is no whole number in a base. -/
def notWhole (base : Nat) (s : String) : Fault :=
  let shown := Text.quoted s
  .impossible s!"invalid literal for int() with base {base}: {shown}"

/-- A text as a whole number in a base other than ten; its letter may stand before the digits, after a
naught. -/
def wholeIn (base : Nat) (mark : Char) (cs : List Char) : Except Fault Int :=
  let s := String.ofList cs
  match Decimal.readIntBase? base (some mark) s with
  | some n => .ok n
  | none => .error (notWhole base s)

/-- A text as a whole number in base ten, which may be too long. -/
def wholeOf (cs : List Char) : Except Fault Int :=
  let s := String.ofList cs
  let (_, digits, _) := Decimal.splitInt s
  if Decimal.digitLimit < digits.length then .error (.impossible (Decimal.tooLongToRead digits.length))
  else
    match Decimal.readInt? s with
    | some n => .ok n
    | none => .error (notWhole 10 s)

/-- A whole number. -/
def readWhole (s : String) : Except Fault Int := do
  let (negative, body) := Decimal.splitSign (s.toList.filter (· != '_'))
  if body.isEmpty then throw .emptyNumber
  let n ←
    match body with
    | ['0'] => pure 0
    | '0' :: 'b' :: rest => wholeIn 2 'b' rest
    | '0' :: 'x' :: rest => wholeIn 16 'x' rest
    | '0' :: _ => wholeIn 8 'o' body
    | _ => sixties <$> (colonParts body).mapM wholeOf
  return if negative then -n else n

/-- A text as a fraction. -/
def fractionOf (cs : List Char) : Except Fault Float :=
  let s := String.ofList cs
  match Decimal.readFloat? s with
  | some x => .ok x
  | none =>
    let shown := Text.quoted (Text.toLower s)
    .error (.impossible s!"could not convert string to float: {shown}")

/-- The sum of parts in base sixty, the last part first; `unit` is what one in that part is worth. -/
def sixtiesFrom (total : Float) (unit : Nat) : List Float → Except Fault Float
  | [] => .ok total
  | x :: rest =>
    let worth := Decimal.ofInt unit
    if worth.isFinite then sixtiesFrom (total + x * worth) (unit * 60) rest else .error .tooLarge

/-- A fraction. -/
def readFraction (s : String) : Except Fault Float := do
  let (negative, body) := Decimal.splitSign (s.toList.filter (· != '_'))
  let word := String.ofList (body.map Char.toLower)
  let signed (x : Float) := if negative then -x else x
  if s.toList.all (· == '_') then throw .emptyNumber
  else if word = ".inf" then return signed (Decimal.infinity false)
  else if word = ".nan" then return Decimal.nan
  else
    match ← (colonParts body).mapM fractionOf with
    | [x] => return signed x
    | parts => return signed (← sixtiesFrom 0 1 parts.reverse)

/-- The value of a text that is taken for a scalar of a kind. -/
def readScalar (kind : ScalarKind) (s : String) : Except Fault Scalar :=
  match kind with
  | .null => .ok .null
  | .bool =>
    match truthWords.lookup (String.ofList (s.toList.map Char.toLower)) with
    | some b => .ok (.bool b)
    | none => .error .unknownWord
  | .int => Scalar.int <$> readWhole s
  | .float => Scalar.float <$> readFraction s
  | .binary =>
    if s.toList.any fun c => c.toNat ≥ 128 then .error .malformed
    else
      match Text.base64? s.toList with
      | some b => .ok (.bytes b)
      | none => .error .malformed
  | .moment =>
    match readMoment? s.toList with
    | some m => m.value
    | none => .error .noMoment
  | .text => .ok (.text s)
  | .merge | .value => .error .malformed

end Stencil.Yaml
