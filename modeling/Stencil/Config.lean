import Stencil.Config.Merge
import Stencil.Config.Settings
import Stencil.Json.Reader
import Stencil.Yaml.Reader

/-!
# Configuration

Where settings come from: a file in one of two formats, the environment, and options that a caller
gives. Each source is set over the one before it, and what is left is read as settings.
-/

namespace Stencil.Config

/-- What a report about the configuration was caused by. -/
inductive Cause where
  | problems
  | yaml
  | json
  | file (f : Files.Fault)
  deriving Repr

/-- Why there is no configuration. -/
inductive Fault where
  | reported (r : Report) (cause : Option Cause)
  | path (f : PathFault)
  /-- A path starts at the home directory of a user who is not known. -/
  | noHome
  /-- A file holds bytes that are no text. -/
  | notText (f : Text.Utf8Fault)
  /-- A file holds a value that cannot be. -/
  | impossible (f : Yaml.Fault)
  /-- A file holds a number that cannot be, with what is wrong. -/
  | wrongNumber (message : String)
  /-- An option has no name. -/
  | unnamed

namespace Fault

/-- A report about the configuration. -/
def report (message : String) (cause : Option Cause) : Fault :=
  .reported (.plain .configuration message {}) cause

end Fault

/-- The settings that options describe. -/
def settings (env : Surroundings) (options : List (Scalar × Datum)) : Except Fault Settings :=
  let named := options.all fun (k, _) => match k with | .text _ => true | _ => false
  if !named then .error .unnamed
  else
    match Settings.read env options with
    | .error f => .error (.path f)
    | .ok (.error problems) => .error (.report (Problem.summary problems) (some .problems))
    | .ok (.ok s) => .ok s

/-- Settings with options set over them; without any they stay as they are. -/
def adjust (env : Surroundings) (s : Settings) (later : List (Scalar × Datum)) : Except Fault Settings :=
  if later.isEmpty then .ok s else settings env (merge s.entries later)

/-- What the text of a file says, by the ending of its name; nothing said is an empty mapping. -/
def readText (name ending content : String) : Except Fault Datum := do
  let value ←
    if ending = ".yaml" || ending = ".yml" then
      match Yaml.read content with
      | .ok d => .ok d
      | .error .malformed =>
        .error (.report s!"Invalid YAML format in {name}: the text is not well formed" (some .yaml))
      | .error f => .error (.impossible f)
    else if ending = ".json" then
      match Json.read content with
      | .ok d => .ok d
      | .error (.impossible message) => .error (.wrongNumber message)
      | .error f => .error (.report s!"Invalid JSON format in {name}: {f.message}" (some .json))
    else .error (.report s!"Unsupported config file format: {name}" none)
  return if value.truthy then value else .map []

/-- A path whose first name starts with a tilde, with the home directory in its place. -/
def expandPath (env : Surroundings) (path : String) : Except Fault String :=
  let tidy := Files.plainPath path
  match tidy.toList with
  | '~' :: _ =>
    let first := tidy.toList.takeWhile (· != '/')
    let home := env.expandHome (String.ofList first)
    if first.contains '\x00' then .error (.path (.unusable tidy .embeddedNull))
    else if home.toList.head? = some '~' then .error .noHome
    else .ok (Files.under home (String.ofList (tidy.toList.drop (first.length + 1))))
  | _ => .ok tidy

/-- The options in a file. -/
def ofFile (env : Surroundings) (name : String) : Except Fault (List (Scalar × Datum)) := do
  let path ← expandPath env name
  let full := env.absolute path
  match env.tree.exists? full with
  | .error f => .error (.path (.unusable path f))
  | .ok false => .error (.report s!"Configuration file not found: {name}" none)
  | .ok true =>
    match env.tree.read full with
    | .error f =>
      .error (.report s!"Error reading config file {name}: {f.describe path}" (some (.file f)))
    | .ok bytes =>
      match Text.decode bytes with
      | .error f => .error (.notText f)
      | .ok content =>
        let content := String.ofList (Text.unifyLineEnds content.toList)
        match ← readText name (Files.suffix path) content with
        | .map entries => .ok entries
        | _ => .error (.report s!"Configuration in {name} must be a mapping" none)

/-- What the names of the variables that set options start with. -/
def variableStem : String := "TEMPLATE_COMPILER_"

/-- The options that environment variables set, by the part of their names after `stem`. -/
def ofVariables (stem : String) (environment : List (String × String)) : List (Scalar × Datum) :=
  Datum.ofEntries <| environment.filterMap fun (name, value) => do
    let rest ← Text.dropPrefix? stem.toList name.toList
    let field ← Field.ofLabel? (Text.toLower (String.ofList rest))
    return (.text field.label, .text value)

/-- The settings of a file, the environment and a caller, each set over the one before. The caller's
options that are nothing do not count. -/
def load (env : Surroundings) (file : Option String) (stem : String) (later : List (Scalar × Datum)) :
    Except Fault Settings := do
  let base ←
    match file with
    | none | some "" => pure []
    | some name => ofFile env name
  let later := later.filter fun (_, v) => match v with | .null => false | _ => true
  settings env (merge (merge base (ofVariables stem env.environment)) later)

/-- The notes on loading from a file, if it can be loaded. -/
def loadNotes (file : Option String) : List Note :=
  match file with
  | none | some "" => []
  | some name => [.configLoading name, .configLoaded name]

end Stencil.Config
