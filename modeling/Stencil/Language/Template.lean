import Stencil.Language.Check
import Stencil.Language.Evaluate

/-!
# Templates

A source is compiled once and rendered any number of times, each time with data of its own. Rendering
may change the data: the lists and mappings that the template was given are the ones that it works on.
-/

namespace Stencil.Language

/-- Why a source is not compiled. -/
inductive Rejection where
  /-- A fault that can be told and the line it is on. -/
  | fault (f : SyntaxFault)
  /-- Something is said twice that can be said once only. -/
  | malformed
  deriving Repr, DecidableEq

/-- A compiled template: its statements and its blocks by their names. -/
structure Template where
  body : List Statement
  blocks : List (String × List Statement)

namespace Template

/-- Compiles a source. -/
def compile (o : Options) (source : String) : Except Rejection Template := do
  let body ← (Parse.template o source).mapError .fault
  (check body).mapError .fault
  if isMalformed body then throw .malformed
  return { body, blocks := (blocksOf body).map fun (_, name, inside) => (name, inside) }

/-- The names that every template can use. -/
def globals : List (String × Value) :=
  [("range", .function .range), ("dict", .function .dict), ("cycler", .function .cycler),
   ("joiner", .function .joiner), ("namespace", .function .space)]

/-- A value without parts. -/
def ofScalar : Scalar → Value
  | .null => .null
  | .bool b => .bool b
  | .int i => .int i
  | .float x => .float x
  | .text s => .plain s
  | s => .other s

mutual

/-- Data as a value, with its lists and mappings in the heap. -/
def load : Datum → Run Value
  | .scalar s => return ofScalar s
  | .list items => do Run.list (← loadItems items)
  | .map entries => do Run.make (.dict (← loadEntries entries))
  | .set members => Run.make (.set (members.map ofScalar))

/-- Items as values. -/
def loadItems : List Datum → Run (List Value)
  | [] => return []
  | d :: rest => return (← load d) :: (← loadItems rest)

/-- Entries as values. -/
def loadEntries : List (Scalar × Datum) → Run (List (Value × Value))
  | [] => return []
  | (k, d) :: rest => return (ofScalar k, ← load d) :: (← loadEntries rest)

end

/-- The evaluator of templates. More fuel than a rendering within the depth limit takes. -/
def evaluate : Evaluator := evaluator MacroSyntax.uses 100000000

/-- Renders a template with data, of which empty data stands for none. -/
def run (t : Template) (data : Datum) : Run (String × Datum) := do
  let v ← load (if data.truthy then data else .map [])
  let entries ← Value.entriesFrom evaluate (some v) []
  let given := entries.filterMap fun (k, v) => match k with | .text n _ => some (n, v) | _ => none
  let context ← Run.makeAt (.context [] (given ++ globals) t.blocks)
  let self ← Run.make (.blocks context)
  let scope ← Run.makeAt (.scope [("self", some self)] none)
  let printed ← capture (evaluate.body { scope, context, isTop := true, depth := 0 } t.body)
  let after ← v.datum? Value.levels []
  return (← printed.needText, if data.truthy then after.getD data else data)

/-- Renders a template: the text, and the data as it is afterwards. -/
def render (t : Template) (data : Datum) : Except Fault (String × Datum) := do
  let (found, _) ← (t.run data).run {}
  return found

end Template

end Stencil.Language
