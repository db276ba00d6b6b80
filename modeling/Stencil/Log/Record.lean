import Stencil.Calendar
import Stencil.Failure
import Stencil.Files.Path
import Stencil.Json.Writer
import Stencil.Note
import Stencil.Percent

/-!
# Log records

A record says what happened, how much it matters, where it was noted, and when. Its message is a
format for its arguments, if it has any. A record may carry the error that was raised where it was
made, and with it the template, the root and the data that it is about.
-/

namespace Stencil.Log

/-- An error as it is recorded: its kind, its text, and the text that tells how it came about, which may
have several lines. -/
structure Exception where
  kind : String
  text : String
  trace : String

namespace Exception

/-- An error in one line, its kind named in full before its text. -/
def line (fullName text : String) : String :=
  if text = "" then fullName else fullName ++ ": " ++ text

/-- An error of a kind, made of a text and raised nowhere. The failures of this library say more than
the text where their kind does, and a missing key is quoted. -/
def ofText (kind text : String) : Exception :=
  match FailureKind.ofLabel? kind with
  | some failure =>
    let report := Report.make? failure [.text text] [] {}
    let text := (report.map Report.text).getD text
    { kind, text, trace := line ("template_compiler.error.exceptions." ++ kind) text }
  | none =>
    let text := if kind = "KeyError" then Text.quoted text else text
    { kind, text, trace := line kind text }

end Exception

/-- What a record tells of an error. -/
inductive Incident where
  /-- It is not about an error. -/
  | none
  /-- It is to tell of the error at hand, and there was none. -/
  | missing
  | raised (e : Exception)

/-- A log record. -/
structure Record where
  name : String := "app"
  level : Int := 20
  /-- The path of the file that noted it. -/
  path : String := "/srv/mod.py"
  line : Int := 1
  format : Datum := .text ""
  arguments : List Datum := []
  /-- The seconds since the start of 1970. -/
  created : Scalar.Number := .whole 0
  /-- The seconds that the local clock is ahead of universal time. -/
  offset : Int := 0
  incident : Incident := .none
  template : Option Datum := none
  root : Option Datum := none
  data : Option Datum := none

/-- Why a record cannot be written. -/
inductive Fault where
  | format (f : Percent.Fault)
  | time (f : Moment.Unreachable)
  /-- There is no error where one is to be set out. -/
  | noError
  | unwritable (f : Json.Unwritable)

/-- The name of a level; one without a name of its own is numbered. -/
def levelName (level : Int) : String :=
  let named := [Level.debug, .info, .warning, .error, .critical]
  match named.find? fun l => (l.rank : Int) = level with
  | some l => l.label
  | none => if level = 0 then "NOTSET" else s!"Level {level}"

namespace Record

/-- The values that a list of arguments gives to a format. A single mapping gives its entries. -/
def percentArguments : List Datum → Percent.Arguments
  | [.map (e :: rest)] =>
    let entries := e :: rest
    .named (.ofDatum (.map entries)) fun name =>
      match Datum.field? name entries with
      | some d => .ok (.ofDatum d)
      | none => .error .noSuchKey
  | values => .several (values.map .ofDatum)

/-- The message with the arguments set in; without arguments it is taken as it is. -/
def message (r : Record) : Except Fault String :=
  if !r.format.isWritable then .error (.format (.wrongValue Decimal.tooLongToWrite))
  else if r.arguments.isEmpty then .ok r.format.plain
  else (Percent.format r.format.plain (percentArguments r.arguments)).mapError .format

/-- The name of the file that noted the record, without its ending. Dots at the start of the name
belong to it. -/
def module (r : Record) : String :=
  let name := r.path.toList.reverse.takeWhile (· != '/') |>.reverse
  let start := name.takeWhile (· == '.')
  let body := name.drop start.length
  match body.reverse.dropWhile (· != '.') with
  | _ :: before => String.ofList (start ++ before.reverse)
  | [] => String.ofList name

/-- The moment that the record was made, on the local clock. To tell apart an hour that comes twice the
clock is looked at a day earlier too, so the first day of the calendar has no moments. -/
def moment (r : Record) : Except Fault Moment := do
  let time ← (Moment.ofNumber r.offset r.created).mapError .time
  if time.day = ⟨1, 1, 1⟩ then throw (.time .noYear) else return time

end Record

end Stencil.Log
