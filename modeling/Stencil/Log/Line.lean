import Stencil.Json.Writer
import Stencil.Log.Record

/-!
# Log lines

A record as text: as an object in JSON on one line, or as words with dashes or colons between and the
error below them. In the object, fields given for all lines come after the record's own and take the
place of those with the same name, and the data come last.
-/

namespace Stencil.Log

/-- How records are written. -/
inductive Style where
  /-- An object with more fields for all lines. -/
  | json (fields : List (String × Datum))
  /-- Time, name, level and message with dashes between. -/
  | plain
  /-- Level, name and message with colons between. -/
  | brief

/-- An error set out in fields. -/
def Exception.asDatum (e : Exception) : Datum :=
  .ofFields [("type", .text e.kind), ("message", .text e.text), ("traceback", .text e.trace)]

namespace Incident

/-- The error that is to be set out, if the record is about one. -/
def exception? : Incident → Except Fault (Option Exception)
  | none => .ok .none
  | missing => .error .noError
  | raised e => .ok (some e)

/-- What is told of the error in words. -/
def words : Incident → String
  | none => ""
  | missing => "NoneType: None"
  | raised e => e.trace

end Incident

namespace Record

/-- The fields of a record by name. -/
def fields (r : Record) : Except Fault (List (Scalar × Datum)) := do
  let time ← r.moment
  let message ← r.message
  let exception ← r.incident.exception?
  let base := [
    ("timestamp", Datum.text (time.textWith "T")), ("level", .text (levelName r.level)),
    ("logger", .text r.name), ("message", .text message), ("module", .text r.module),
    ("line", .int r.line)]
  let about := (r.template.map fun d => ("template", d)).toList ++ (r.root.map fun d => ("root", d)).toList
  let error := exception.toList.map fun e => ("exception", e.asDatum)
  return (base ++ about ++ error).map fun (k, v) => (.text k, v)

/-- The record as an object with more fields. -/
def object (more : List (String × Datum)) (r : Record) : Except Fault Datum := do
  let own ← r.fields
  let all := more.foldl (fun done (k, v) => Datum.put (.text k) v done) own
  return .map (match r.data with | some d => Datum.put (.text "data") d all | none => all)

/-- The time of a record with thousandths of a second. -/
def clock (r : Record) : Except Fault String := do
  let time ← (Moment.ofNumber r.offset r.created).mapError .time
  let whole : Moment := { time with micro := 0, offset := none }
  return whole.text ++ "," ++ Decimal.padZeros 3 (toString (time.micro / 1000))

/-- A line with what the record tells of an error below it. -/
def withError (r : Record) (line : String) : String :=
  let words := r.incident.words
  if words = "" then line
  else (if line.toList.getLast? = some '\n' then line else line ++ "\n") ++ words

end Record

/-- The line of a record, without its end. -/
def Style.line (s : Style) (r : Record) : Except Fault String :=
  match s with
  | .json more => do
    match Json.write (← r.object more) with
    | .ok line => return line
    | .error f => throw (.unwritable f)
  | .plain => do
    let time ← r.clock
    let message ← r.message
    let level := levelName r.level
    let name := r.name
    return r.withError s!"{time} - {name} - {level} - {message}"
  | .brief => do
    let message ← r.message
    return r.withError (levelName r.level ++ ":" ++ r.name ++ ":" ++ message)

end Stencil.Log
