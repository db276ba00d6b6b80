import Stencil.Config.Problem
import Stencil.Surroundings
import Stencil.Note
import Stencil.Datum
import Stencil.Decimal.Reading
import Stencil.Text.Case
import Stencil.Text.Utf8

/-!
# Values of options

How the value of an option is read from what a file, the environment or a caller gives. Values are
taken leniently: a truth value may be a number or a word, a number may be a text, and bytes stand for
the text that they write.
-/

namespace Stencil.Config

/-- The words for true and false, in lower case. -/
def truthWords : List (String × Bool) := [
  ("0", false), ("off", false), ("f", false), ("false", false), ("n", false), ("no", false),
  ("1", true), ("on", true), ("t", true), ("true", true), ("y", true), ("yes", true)]

/-- The truth value that a word stands for. -/
def truthOfWord (s : String) : Except Complaint Bool :=
  match truthWords.lookup (String.ofList (s.toList.map Char.toLower)) with
  | some b => .ok b
  | none => .error .unreadableTruth

/-- Whether a double is a whole number of 64 bits. -/
def isWord (x : Float) : Bool :=
  match Decimal.truncate? x with
  | some i => Decimal.intEq i x && decide (-0x8000000000000000 ≤ i) && decide (i < 0x8000000000000000)
  | none => false

/-- A truth value. -/
def asTruth : Datum → Except Complaint Bool
  | .bool b => .ok b
  | .int 0 => .ok false
  | .int 1 => .ok true
  | .int _ => .error .unreadableTruth
  | .float x =>
    if x == 0 then .ok false
    else if x == 1 then .ok true
    else .error (if isWord x then .unreadableTruth else .noTruth)
  | .text s => truthOfWord s
  | .bytes b =>
    match Text.decode b with
    | .ok s => truthOfWord s
    | .error _ => .error .unreadableTruth
  | _ => .error .noTruth

/-- Whether a character counts as white space around a number; the separators of files, groups,
records and units do not. -/
def isSpace (c : Char) : Bool := Text.isBlank c && !(0x1C ≤ c.toNat && c.toNat ≤ 0x1F)

/-- The number that a text writes, in digits of the first script only. -/
def numberOfText (s : String) : Except Complaint Float :=
  let body := Text.trimBoth isSpace s.toList
  let number? :=
    if body.any Text.isBlank then none
    else Decimal.readFloatWith? (Text.baseDigit 10) (String.ofList body)
  match number? with
  | some x => .ok x
  | none => .error .unreadableNumber

/-- A number. -/
def asNumber : Datum → Except Complaint Float
  | .float x => .ok x
  | .int i =>
    let x := Decimal.ofInt i
    if x.isFinite then .ok x else .error .noNumber
  | .bool b => .ok (if b then 1 else 0)
  | .text s => numberOfText s
  | .bytes b =>
    match Text.decode b with
    | .ok s => numberOfText s
    | .error _ => .error .unreadableNumber
  | _ => .error .noNumber

/-- A number above zero. -/
def asPositive (d : Datum) : Except Complaint Float := do
  let x ← asNumber d
  if x > 0 then return x else .error .notPositive

/-- A text. -/
def asText : Datum → Except Complaint String
  | .text s => .ok s
  | .bytes b =>
    match Text.decode b with
    | .ok s => .ok s
    | .error _ => .error .unreadableText
  | _ => .error .noText

/-- A text, or nothing. -/
def asTextOrNone : Datum → Except Complaint (Option String)
  | .null => .ok none
  | d => some <$> asText d

/-- The levels that may be chosen, in the order of their names. -/
def levels : List Level := [.critical, .debug, .error, .info, .warning]

/-- A level by its name, in letters of either case. -/
def asLevel (d : Datum) : Except Complaint Level := do
  let name ← asText d
  match levels.find? (·.label == Text.toUpper name) with
  | some l => return l
  | none =>
    let choice := ", ".intercalate (levels.map fun l => Text.quoted l.label)
    .error (.refused s!"Invalid log level '{name}'. Must be one of: \x7b{choice}\x7d")

/-- Why a path cannot be looked at. -/
inductive PathFault where
  /-- Links lead in a circle. -/
  | linkCircle
  | unusable (path : String) (f : Files.Fault)
  deriving Repr, DecidableEq

/-- The directory that a path leads to, home directory and links carried out; or what is wrong with it
as an option. -/
def asDirectory (s : Surroundings) : Datum → Except PathFault (Except Complaint String)
  | .null | .text "" => .ok (.error (.refused "root directory is required"))
  | .text given =>
    let expanded := s.expandHome given
    if expanded.toList.contains '\x00' then .ok (.error (.refused Files.Fault.embeddedNull.message))
    else
      let path := s.tree.realPath (s.absolute expanded)
      match s.tree.lookup path with
      | .error .tooManyLinks => .error .linkCircle
      | _ =>
        match s.tree.isDirectory path with
        | .ok true => .ok (.ok path)
        | .ok false => .ok (.error (.refused s!"root directory does not exist: {path}"))
        | .error f => .error (.unusable path f)
  | d =>
    let shown := d.plain
    let reason := if d.isWritable then s!"Invalid path value: {shown}" else Decimal.tooLongToWrite
    .ok (.error (.refused reason))

end Stencil.Config
