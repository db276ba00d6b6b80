import Stencil.Command.Words
import Stencil.Config
import Stencil.Session.Calls
import Stencil.Terminal.Table

/-!
# Commands

What a command comes to: a code, what it shows and what it tells about the work, and the files as they
are afterwards. Failures of the compiler are told, and those of files and values too where a template
is rendered; whatever else goes wrong ends the command as it is.
-/

namespace Stencil

/-- What ends a command before its time. -/
inductive Trouble where
  | configuration (f : Config.Fault)
  | compiler (f : Fault)
  | file (path : String) (f : Files.Fault)
  | notText (f : Text.Utf8Fault)
  | json (f : Json.Fault)
  | yaml (f : Yaml.Fault)
  /-- The data for a template are no mapping. -/
  | noMapping
  /-- A compiled template is not cached under the name that it was found by. -/
  | notCached (id : String)
  /-- The tags of a text do not fit. -/
  | tags

namespace Trouble

/-- The report of a failure of the compiler. -/
def report? : Trouble → Option String
  | .configuration (.reported r _) => some r.text
  | .compiler f => f.report?.map Report.text
  | _ => none

/-- A failure of the compiler, of a file or of a value in words. -/
def message? (t : Trouble) : Option String :=
  match t with
  | .configuration (.path (.unusable path f)) | .file path f => some (f.describe path)
  | .configuration (.notText f) | .notText f => some f.message
  | .configuration (.impossible (.impossible m)) | .configuration (.wrongNumber m)
  | .yaml (.impossible m) => some m
  | .json f => some f.message
  | .compiler (.rendering .noTemplates) => Language.Fault.noTemplates.message?
  | .compiler (.rendering (.wrongValue m)) => some m
  | .compiler (.name .embeddedNull) => some Files.Fault.embeddedNull.message
  | .compiler (.unreachable path f) | .compiler (.listing path f) => some (f.describe path)
  | .compiler (.notText f) => some f.message
  | t => t.report?

end Trouble

/-- What a command comes to. -/
structure Outcome where
  code : Nat := 0
  /-- What is shown. -/
  output : String := ""
  /-- What is told about the work. -/
  console : String := ""
  /-- The trouble that ended the command without being told. -/
  escaped : Option Trouble := none
  tree : Files.Tree

namespace Outcome

/-- The outcome of a command line that makes no sense. -/
def misused (tree : Files.Tree) : Outcome := { code := 2, tree }

/-- The outcome of trouble, told in words if there are any. -/
def failed (tree : Files.Tree) (tell : Trouble → Option String) (t : Trouble) : Outcome :=
  match t with
  | .noMapping => misused tree
  | t =>
    match tell t with
    | none => { code := 1, escaped := some t, tree }
    | some message =>
      match Terminal.print? ("[bold red]Error: " ++ Terminal.escape message ++ "[/bold red]") with
      | some console => { code := 1, console, tree }
      | none => { code := 1, escaped := some .tags, tree }

/-- The outcome with a text shown. -/
def showing (o : Outcome) (s : String) : Outcome :=
  { o with output := o.output ++ String.ofList (Terminal.withoutStyles s.toList) }

/-- The outcome with a text told, if its tags fit. -/
def telling (o : Outcome) (s : Option String) : Outcome :=
  match o.escaped, s with
  | some _, _ => o
  | none, some s => { o with console := o.console ++ s }
  | none, none => { o with code := 1, escaped := some .tags }

end Outcome

namespace Command

/-- The options that a command line sets. -/
def options (c : Choices) : List (Scalar × Datum) :=
  let text (s : Option String) := (s.map Datum.text).getD .null
  let ifSet (b : Bool) : Datum := if b then .bool true else .null
  [(.text "root", text c.root), (.text "compress", (c.compress.map Datum.bool).getD .null),
    (.text "log_level", text c.logLevel), (.text "structured_logging", ifSet c.jsonLogs),
    (.text "log", ifSet c.verbose)]

/-- The compiler that a command works with. -/
def compiler (env : Surroundings) (c : Choices) : Except Trouble Session := do
  let settings ←
    (Config.load env c.config Config.variableStem (options c)).mapError .configuration
  return { settings, tree := env.tree }

/-- The data in a file, in the format that the ending of its name says; no file is no data. -/
def data (env : Surroundings) : Option String → Except Trouble Datum
  | none => .ok (.map [])
  | some path => do
    let bytes ← (env.tree.read (env.absolute path)).mapError (.file path)
    let content ← (Text.decode bytes).mapError .notText
    let content := String.ofList (Text.unifyLineEnds content.toList)
    let ending := Files.suffix path
    let value ←
      if ending = ".yaml" || ending = ".yml" then
        match Yaml.read content with
        | .ok d => pure (if d.truthy then d else .map [])
        | .error f => throw (.yaml f)
      else (Json.read content).mapError .json
    match value with
    | .map entries => return .map entries
    | _ => throw .noMapping

/-- The text of a template rendered with data. -/
def rendered (env : Surroundings) (template : String) (source : Option String) (c : Choices) :
    Except Trouble String := do
  let s ← compiler env c
  let data ← data env source
  (s.render template data).1.mapError .compiler

/-- A tree with a text written to a file, the directories above it made. -/
def written (env : Surroundings) (path text : String) : Except Trouble Files.Tree := do
  let parent := Files.parentPath path
  let tree ← (env.tree.makeDirectories (env.absolute parent)).mapError (.file parent)
  (tree.write (env.absolute path) (Text.encode text)).mapError (.file path)

/-- Renders a template. -/
def runRender (env : Surroundings) (template : String) (source output : Option String) (c : Choices) :
    Outcome :=
  match rendered env template source c with
  | .error t => .failed env.tree Trouble.message? t
  | .ok text =>
    match output with
    | none => ({ tree := env.tree } : Outcome).showing text
    | some path =>
      match written env path text with
      | .error t => { code := 1, escaped := some t, tree := env.tree }
      | .ok tree =>
        ({ tree } : Outcome).telling
          (Terminal.print? s!"[bold green]Rendered {template} to {path}[/bold green]")

/-- A compiled template, its flattened source and the compiler that made it. -/
def compiled (env : Surroundings) (template : String) (c : Choices) :
    Except Trouble (String × Artifact × String × Session) := do
  let s ← compiler env c
  let (answer, s) := s.compile template
  let artifact ← answer.mapError .compiler
  let id ← (s.normalize template).mapError fun f => .compiler (.name f)
  let (answer, s) := s.readFlat id none
  let (flat, _) ← answer.mapError .compiler
  return (id, artifact, flat, s)

/-- The edges of the templates that were read, and the sizes of one of them. -/
def runCompile (env : Surroundings) (template : String) (showSource : Bool) (c : Choices) : Outcome :=
  match compiled env template c with
  | .error t => .failed env.tree Trouble.report? t
  | .ok (id, artifact, flat, s) =>
    let source := artifact.template.source
    let sizes : Shrinkage := { before := flat.length, after := source.length }
    let table : Terminal.Table :=
      { title := s!"Template: {id}"
        columns := [{ head := "Included template" }, { head := "Included by" }]
        rows := s.cache.relations.sorted.map fun (child, parent) => [child, parent] }
    let told := (({ tree := env.tree } : Outcome).telling table.print?).telling (Terminal.print?
      (s!"Flattened size: {sizes.before} chars, shrunk size: {sizes.after} chars " ++
        s!"({sizes.percent}%), {s.cache.stats.sources} sources cached"))
    if showSource && told.escaped.isNone then told.showing (source ++ "\n") else told

/-- Every template that was compiled, with the size of its source. -/
def precompiled (env : Surroundings) (c : Choices) : Except Trouble (String × List (String × Nat)) := do
  let s ← compiler env c
  let (answer, s) := s.precompile ""
  let ids ← answer.mapError .compiler
  let sizes ← ids.mapM fun id =>
    match s.cache.compiled.get? id with
    | some a => .ok (id, a.template.source.length)
    | none => .error (.notCached id)
  return (s.root, sizes)

/-- Compiles all templates. -/
def runPrecompile (env : Surroundings) (c : Choices) : Outcome :=
  match precompiled env c with
  | .error t => .failed env.tree Trouble.report? t
  | .ok (root, sizes) =>
    let table : Terminal.Table :=
      { title := s!"Templates in {root}"
        columns := [{ head := "Template" }, { head := "Compiled size", toRight := true }]
        rows := sizes.map fun (id, size) => [id, toString size] }
    (({ tree := env.tree } : Outcome).telling table.print?).telling
      (Terminal.print? s!"\nTotal templates: {sizes.length}")

/-- Runs a command. -/
def run (env : Surroundings) : Command → Outcome
  | .render template data output c => runRender env template data output c
  | .compile template showSource c => runCompile env template showSource c
  | .precompile c => runPrecompile env c

/-- Runs the command of a command line. -/
def runWords (env : Surroundings) (line : List String) : Outcome :=
  match ofWords? line with
  | some c => c.run env
  | none => .misused env.tree

end Command

end Stencil
