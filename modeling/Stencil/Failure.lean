import Stencil.Datum

/-!
# Failures

What the library reports when it cannot do its work: a kind, a message, where it happened, and details.
A report says where it happened at the end of its message once both the component and the operation
are known.
-/

namespace Stencil

/-- The kinds of failure. -/
inductive FailureKind where
  | general
  | configuration
  | templateNotFound
  | circularInclude
  | templateCompile
  | shrink
  deriving Repr, DecidableEq

namespace FailureKind

/-- The name of a kind. -/
def label : FailureKind → String
  | general => "TemplateCompilerError"
  | configuration => "ConfigurationError"
  | templateNotFound => "TemplateNotFoundError"
  | circularInclude => "CircularIncludeError"
  | templateCompile => "TemplateCompileError"
  | shrink => "ShrinkError"

/-- Every kind. -/
def all : List FailureKind :=
  [general, configuration, templateNotFound, circularInclude, templateCompile, shrink]

/-- The kind of a name. -/
def ofLabel? (label : String) : Option FailureKind := all.find? (·.label == label)

/-- The parameters of a report of each kind: whether they must be given, and their names. -/
def parameters : FailureKind → List (Bool × String)
  | templateNotFound => [(true, "template_id"), (false, "message"), (false, "context")]
  | circularInclude => [(true, "chain"), (false, "context")]
  | templateCompile => [(true, "message"), (false, "template_id"), (false, "context")]
  | _ => [(true, "message"), (false, "context"), (false, "details")]

end FailureKind

/-- Where a failure happened, with details of the operation. -/
structure Context where
  component : Datum := .null
  operation : Datum := .null
  details : List (Scalar × Datum) := []

namespace Context

/-- The place of a failure in an operation of a component. -/
def place (component operation : String) (details : List (String × Datum)) : Context :=
  { component := .text component
    operation := .text operation
    details := details.map fun (k, v) => (.text k, v) }

end Context

/-- A failure as it is reported. -/
structure Report where
  kind : FailureKind
  message : Datum
  context : Context := {}
  details : Datum := .map []
  /-- The template that the failure is about, if its kind names one. -/
  template : Option Datum := none
  /-- The templates of a circle of includes. -/
  chain : Option (List Datum) := none

namespace Report

/-- The message with the place of the failure after it. -/
def text (r : Report) : String :=
  if r.context.component.truthy && r.context.operation.truthy then
    s!"{r.message.plain} [in {r.context.component.plain}.{r.context.operation.plain}]"
  else r.message.plain

/-- A failure of a kind that names no template. -/
def plain (kind : FailureKind) (message : String) (context : Context) : Report :=
  { kind, message := .text message, context }

/-- A template that was not found. Without a message, or with an empty one, the report names it. -/
def notFound (id : Datum) (message : Datum) (context : Context) : Report :=
  { kind := .templateNotFound
    message := if message.truthy then message else .text s!"Template not found: {id.plain}"
    context
    details := Datum.ofFields [("template_id", id)]
    template := some id }

/-- A circle of includes. -/
def circular (chain : List String) (context : Context) : Report :=
  let ids := chain.map Datum.text
  { kind := .circularInclude
    message := .text ("Circular include: " ++ " -> ".intercalate chain)
    context
    details := Datum.ofFields [("chain", .list ids)]
    chain := some ids }

/-- A source that the template language rejects. -/
def rejected (message : Datum) (id : Datum) (context : Context) : Report :=
  { kind := .templateCompile, message, context
    details := Datum.ofFields [("template_id", id)]
    template := some id }

/-- The texts that a value is made of, if it is made of texts: the items of a list, the keys of a
mapping, the members of a set, the characters of a text. -/
def texts? : Datum → Option (List String)
  | .text s => some (s.toList.map String.singleton)
  | .list items => items.mapM fun d => match d with | .text s => some s | _ => none
  | .map entries => entries.mapM fun (k, _) => match k with | .text s => some s | _ => none
  | .set members => members.mapM fun k => match k with | .text s => some s | _ => none
  | _ => none

/-- The values of parameters given in order and by name. Each must be known, given once, and there if
it has to be. -/
def bind? (parameters : List (Bool × String)) (given : List Datum) (named : List (String × Datum)) :
    Option (List (String × Datum)) :=
  let placed := (parameters.map (·.2)).zip given
  let all := placed ++ named
  let known := all.all fun (k, _) => parameters.any (·.2 == k)
  let once := all.all fun (k, _) => (all.filter (·.1 == k)).length == 1
  let complete := parameters.all fun (needed, k) => !needed || all.any (·.1 == k)
  if given.length ≤ parameters.length && known && once && complete then some all else none

/-- A report made from parameters, the context always by name; none if they do not fit. -/
def make? (kind : FailureKind) (given : List Datum) (named : List (String × Datum)) (context : Context) :
    Option Report := do
  let values ← bind? kind.parameters given (("context", .null) :: named)
  let value (k : String) : Datum := (values.lookup k).getD .null
  match kind with
  | .templateNotFound => return notFound (value "template_id") (value "message") context
  | .circularInclude => return circular (← texts? (value "chain")) context
  | .templateCompile => return rejected (value "message") (value "template_id") context
  | kind =>
    let details := value "details"
    return { kind, message := value "message", context
             details := if details.truthy then details else .map [] }

end Report

end Stencil
