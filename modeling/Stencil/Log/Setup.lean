import Stencil.Log.Line
import Stencil.Surroundings
import Stencil.Text.Case

/-!
# Logging as it is set up

A setup says which records are kept and where their lines go: to the console, to a file that is
rolled before it grows too large, or to both. It is read from options by name. What an option does
not say is filled in, and the directory of the file is made.
-/

namespace Stencil.Log

/-- A log file that is rolled before a line would make it too large. -/
structure Rolling where
  path : String
  /-- The number of bytes that the file stays below; none if it is not above zero. -/
  limit : Scalar
  /-- How many older files are kept. -/
  backups : Datum

/-- Where lines go. -/
inductive Target where
  | console
  | file (f : Rolling)

/-- A place for lines, and how they are written there. -/
structure Handler where
  target : Target
  style : Style

/-- Which records are kept and where their lines go. -/
structure Setup where
  level : Int
  handlers : List Handler

/-- Why logging cannot be set up. -/
inductive SetupFault where
  /-- An option is of the wrong kind. -/
  | wrongKind
  /-- The level is a word that stands for something else, or a number too long to be written. -/
  | notALevel
  | file (f : Files.Fault)

namespace Setup

/-- The levels that go by a name of their own. -/
def levels : List (String × Int) := [
  ("NOTSET", 0), ("DEBUG", 10), ("INFO", 20), ("WARN", 30), ("WARNING", 30), ("ERROR", 40),
  ("FATAL", 50), ("CRITICAL", 50)]

/-- The level that an option names, in any case. A word that names none, and no word at all, stand
for the level of plain information; the names of the default format and of the table of styles are
taken and are no levels. -/
def levelOf (option : Datum) : Except SetupFault Int :=
  let word := if option.truthy then Text.toUpper option.plain else "INFO"
  if !option.isWritable || word = "BASIC_FORMAT" then .error .notALevel
  else if word = "_STYLES" then .error .wrongKind
  else .ok ((levels.lookup word).getD Level.info.rank)

/-- A tree with a file at a path, empty if none was there. -/
def openFile (t : Files.Tree) (path : String) : Except Files.Fault Files.Tree :=
  match t.read path with
  | .ok _ => .ok t
  | .error .notFound => t.write path []
  | .error f => .error f

/-- The log file that an option names, its directory made and the file opened. -/
def rollingOf (env : Surroundings) (options : List (Scalar × Datum)) (path : Datum) :
    Except SetupFault (Rolling × Files.Tree) := do
  let .text path := path | throw .wrongKind
  let directory := Files.parentPath path
  let made := if directory = "." then .ok env.tree else env.tree.makeDirectories (env.absolute directory)
  let tree ← made.mapError .file
  let limit := (Datum.field? "log_max_bytes" options).getD (.int (10 * 1024 * 1024))
  let backups := (Datum.field? "log_backup_count" options).getD (.int 5)
  let .scalar limit := limit | throw .wrongKind
  if limit.number?.isNone then throw .wrongKind
  let path := Files.absolute env.here path
  return ({ path, limit, backups }, ← (openFile tree path).mapError .file)

/-- The setup that options name, and the files once the log file is opened. Without any place for
lines they go to the console in brief. -/
def ofOptions (env : Surroundings) (options : List (Scalar × Datum)) :
    Except SetupFault (Setup × Files.Tree) := do
  let option (name : String) (otherwise : Datum) := (Datum.field? name options).getD otherwise
  let level ← levelOf (option "log_level" .null)
  let style : Style :=
    if (option "structured_logging" (.bool false)).truthy then
      .json [("application", .text "template_compiler")]
    else .plain
  let console := if (option "log_to_console" (.bool true)).truthy then [Target.console] else []
  let path := option "log_file" .null
  let (targets, tree) ←
    if path.truthy then do
      let (file, tree) ← rollingOf env options path
      pure (Target.file file :: console, tree)
    else pure (console, env.tree)
  if targets.isEmpty then return ({ level, handlers := [{ target := .console, style := .brief }] }, tree)
  else return ({ level, handlers := targets.map fun target => { target, style } }, tree)

/-- Whether a record is kept: its level is above zero and no lower than that of the setup. -/
def keeps (s : Setup) (r : Record) : Bool := 0 < r.level && s.level ≤ r.level

end Setup

end Stencil.Log
