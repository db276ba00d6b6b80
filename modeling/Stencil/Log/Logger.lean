import Stencil.Datum

/-!
# Loggers

A logger has a name, and may have a context: values by name that go with every record it makes. The
context is put among the extra values that a record is given, over those with the same name.
-/

namespace Stencil.Log

/-- A logger and the context of its records. -/
structure Logger where
  name : String
  context : List (Scalar × Datum) := []

/-- Why a logger cannot be had, or cannot take a record. -/
inductive LoggerFault where
  /-- The name is no text, or is given twice. -/
  | wrongKind
  /-- The extra values are no values by name. -/
  | noEntries

namespace Logger

/-- The name of the logger that all others stand below. -/
def rootName : String := "root"

/-- The logger of a name with a context. A blank name is that of the root. -/
def named (name : Datum) (context : List (Scalar × Datum)) : Except LoggerFault Logger :=
  if (Datum.field? "name" context).isSome then .error .wrongKind
  else if !name.truthy then .ok { name := rootName, context }
  else
    match name with
    | .text name => .ok { name, context }
    | _ => .error .wrongKind

/-- What a record is given by name, with the context among the extra values. -/
def withContext (l : Logger) (given : List (Scalar × Datum)) :
    Except LoggerFault (List (Scalar × Datum)) :=
  match (Datum.field? "extra" given).getD (.map []) with
  | .map extra =>
    let all := l.context.foldl (fun done (k, v) => Datum.put k v done) extra
    .ok (Datum.put (.text "extra") (.map all) given)
  | _ => .error .noEntries

end Logger

end Stencil.Log
