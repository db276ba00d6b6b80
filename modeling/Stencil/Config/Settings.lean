import Stencil.Config.Value
import Stencil.Failure

/-!
# Settings

The configuration of a compiler. Its options are read from a mapping, each once, and the problems of
all of them are reported together: first those of the options in their order, then the names that are
no options, in theirs. A single option can be changed later under the same rules.
-/

namespace Stencil.Config

/-- The configuration of a compiler. -/
structure Settings where
  /-- The directory that templates lie in, with all links carried out. -/
  root : String
  /-- Whether compiled templates are shrunk. -/
  compress : Bool := true
  /-- Whether the cache is reset again and again. -/
  watch : Bool := false
  /-- The seconds between two resets. -/
  watchInterval : Float := 1
  /-- Whether all templates are compiled at the start. -/
  precompile : Bool := false
  /-- Whether the work is noted at a higher level. -/
  log : Bool := false
  logLevel : Level := .info
  logFile : Option String := none
  /-- Whether log lines are written as JSON. -/
  structuredLogging : Bool := false

/-- The options. -/
inductive Field where
  | root
  | compress
  | watch
  | watchInterval
  | precompile
  | log
  | logLevel
  | logFile
  | structuredLogging
  deriving Repr, DecidableEq

namespace Field

/-- Every option, in order. -/
def all : List Field :=
  [root, compress, watch, watchInterval, precompile, log, logLevel, logFile, structuredLogging]

/-- The name of an option. -/
def label : Field → String
  | root => "root"
  | compress => "compress"
  | watch => "watch"
  | watchInterval => "watch_interval"
  | precompile => "precompile"
  | log => "log"
  | logLevel => "log_level"
  | logFile => "log_file"
  | structuredLogging => "structured_logging"

/-- The option of a name. -/
def ofLabel? (label : String) : Option Field := all.find? (·.label == label)

end Field

namespace Settings

/-- The settings with an option changed; or what is wrong with its value. -/
def set (env : Surroundings) (s : Settings) (f : Field) (v : Datum) :
    Except PathFault (Except Complaint Settings) :=
  match f with
  | .root =>
    match asDirectory env v with
    | .error f => .error f
    | .ok answer => .ok (answer.map fun root => { s with root })
  | .compress => .ok ((asTruth v).map fun compress => { s with compress })
  | .watch => .ok ((asTruth v).map fun watch => { s with watch })
  | .watchInterval => .ok ((asPositive v).map fun watchInterval => { s with watchInterval })
  | .precompile => .ok ((asTruth v).map fun precompile => { s with precompile })
  | .log => .ok ((asTruth v).map fun log => { s with log })
  | .logLevel => .ok ((asLevel v).map fun logLevel => { s with logLevel })
  | .logFile => .ok ((asTextOrNone v).map fun logFile => { s with logFile })
  | .structuredLogging => .ok ((asTruth v).map fun structuredLogging => { s with structuredLogging })

/-- The value of an option. -/
def get (s : Settings) : Field → Datum
  | .root => .text s.root
  | .compress => .bool s.compress
  | .watch => .bool s.watch
  | .watchInterval => .float s.watchInterval
  | .precompile => .bool s.precompile
  | .log => .bool s.log
  | .logLevel => .text s.logLevel.label
  | .logFile => (s.logFile.map Datum.text).getD .null
  | .structuredLogging => .bool s.structuredLogging

/-- The options by name. -/
def entries (s : Settings) : List (Scalar × Datum) :=
  Field.all.map fun f => (.text f.label, s.get f)

/-- Reads the options that are left, with the settings and the problems so far. -/
def readFields (env : Surroundings) (given : List (Scalar × Datum)) :
    List Field → Settings → List Problem → Except PathFault (Settings × List Problem)
  | [], s, problems => .ok (s, problems)
  | f :: rest, s, problems =>
    match Datum.field? f.label given with
    | none =>
      let missing := if f = .root then [(⟨f.label, .missing⟩ : Problem)] else []
      readFields env given rest s (problems ++ missing)
    | some v =>
      match s.set env f v with
      | .error f => .error f
      | .ok (.ok s) => readFields env given rest s problems
      | .ok (.error c) => readFields env given rest s (problems ++ [⟨f.label, c⟩])

/-- The names among options that are no options. -/
def unknownNames (given : List (Scalar × Datum)) : List String :=
  given.filterMap fun (k, _) =>
    match k with
    | .text name => if (Field.ofLabel? name).isNone then some name else none
    | _ => none

/-- The settings that options describe, or their problems. -/
def read (env : Surroundings) (given : List (Scalar × Datum)) :
    Except PathFault (Except (List Problem) Settings) := do
  let (s, problems) ← readFields env given Field.all { root := "" } []
  let unknown := (unknownNames given).map fun name => (⟨name, .unknown⟩ : Problem)
  match problems ++ unknown with
  | [] => return .ok s
  | problems => return .error problems

/-- The settings with an option changed by its name. A name with a low line in front is no option, and
whatever it is given is left aside. -/
def change (env : Surroundings) (s : Settings) (name : String) (v : Datum) :
    Except PathFault (Except Problem Settings) :=
  if name.toList.head? = some '_' then .ok (.ok s)
  else
    match Field.ofLabel? name with
    | none => .ok (.error ⟨name, .noSuchField⟩)
    | some f =>
      match s.set env f v with
      | .error f => .error f
      | .ok answer => .ok (answer.mapError fun c => ⟨name, c⟩)

end Settings

end Stencil.Config
