import Stencil.Failure
import Stencil.Language.Template
import Stencil.Note

/-!
# Compiled templates

A flattened source becomes a compiled template, which keeps its source and the identifier it was
compiled under. A source that the template language rejects is reported with the line of the fault.
-/

namespace Stencil

/-- A template that can be rendered. -/
structure CompiledTemplate where
  template : Language.Template
  source : String
  id : Option String

/-- Why a source was not compiled. -/
inductive EngineFailure where
  /-- The template language rejects it: the report, whether the source follows the grammar all the
  same, and the note to log. -/
  | rejected (report : Report) (isAssertion : Bool) (note : Note)
  /-- Something is said twice in it that can be said once only. -/
  | malformed

namespace CompiledTemplate

/-- The identifier as it is shown; a template without one is a text of its own. -/
def shownId (id : Option String) : String :=
  match id with
  | none | some "" => "<string>"
  | some id => id

/-- A compiled template in a word. -/
def label (t : CompiledTemplate) : String := "<CompiledTemplate " ++ shownId t.id ++ ">"

/-- Compiles a source. -/
def compile (o : Language.Options) (source : String) (id : Option String) :
    Except EngineFailure CompiledTemplate :=
  match Language.Template.compile o source with
  | .ok template => .ok { template, source, id }
  | .error .malformed => .error .malformed
  | .error (.fault f) =>
    let line := f.line
    let reason := f.message
    let context := Context.place "TemplateEngine" "compile_template" []
    let shown := match id with | some i => Datum.text i | none => Datum.null
    let report := Report.rejected (.text s!"Template compile error at line {line}: {reason}") shown context
    .error (.rejected report f.isAssertion (.sourceRejected (some (shownId id)) reason))

/-- Renders a template with data: the text, and the data as it is afterwards. -/
def render (t : CompiledTemplate) (data : Datum) : Except Language.Fault (String × Datum) :=
  t.template.render data

end CompiledTemplate

end Stencil
