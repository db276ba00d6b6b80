import Stencil.Log.Setup
import Stencil.Text.Utf8

/-!
# The journal

What has been logged: the files, and what stands on the console. A record that the setup keeps goes to
every place in turn. A log file that the line would bring to its limit is rolled first: the older
files move up by one, the oldest gives way, and a new file is begun. A record that cannot be written
in the style of a place is left out there.
-/

namespace Stencil.Log

namespace Rolling

/-- Whether a line of so many characters would bring a file of so many bytes to its limit. -/
def isDue (r : Rolling) (size added : Nat) : Bool :=
  match r.limit.number? with
  | some (.whole n) => 0 < n && n ≤ size + added
  | some (.double x) => 0 < x && x ≤ Float.ofNat (size + added)
  | none => false

/-- How many older files are kept, if that is a whole number. -/
def kept? (r : Rolling) : Option Nat :=
  match r.backups with
  | .scalar s =>
    match s.number? with
    | some (.whole n) => some n.toNat
    | some (.double x) => if x ≤ 0 then some 0 else none
    | none => none
  | _ => none

/-- The name of the file that was rolled so many times. -/
def nameAfter (name : String) (times : Nat) : String :=
  if times = 0 then name else s!"{name}.{times}"

/-- A tree in which the files of a directory that were rolled from `name` move up by one, from the
oldest but one to the newest. -/
def shift (t : Files.Tree) (directory : Files.Place) (name : String) (kept : Nat) : Files.Tree :=
  (List.range kept).reverse.foldl (fun t times =>
    t.move (directory ++ [nameAfter name times]) (directory ++ [nameAfter name (times + 1)])) t

/-- A tree with the files of a log rolled. -/
def roll (r : Rolling) (kept : Nat) (t : Files.Tree) : Files.Tree :=
  match t.locate (Files.parentPath r.path), Files.baseName? r.path with
  | .ok directory, some name => shift t directory name kept
  | _, _ => t

/-- A tree with a line at the end of the log file. -/
def append (r : Rolling) (line : String) (t : Files.Tree) : Files.Tree :=
  let size := ((t.read r.path).toOption.getD []).length
  let rolled :=
    if r.isDue size (line.length + 1) then r.kept?.map fun kept => r.roll kept t else some t
  match rolled with
  | none => t
  | some t =>
    let before := (t.read r.path).toOption.getD []
    (t.write r.path (before ++ Text.encode (line ++ "\n"))).toOption.getD t

end Rolling

/-- What has been logged, and how logging is set up. -/
structure Journal where
  setup : Setup
  tree : Files.Tree
  console : String := ""

namespace Journal

/-- The journal after a place has received a record. -/
def receive (r : Record) (j : Journal) (h : Handler) : Journal :=
  match h.style.line r with
  | .error _ => j
  | .ok line =>
    match h.target with
    | .console => { j with console := j.console ++ line ++ "\n" }
    | .file f => { j with tree := f.append line j.tree }

/-- The journal after a record. -/
def log (j : Journal) (r : Record) : Journal :=
  if j.setup.keeps r then j.setup.handlers.foldl (receive r) j else j

/-- The record that logging is set up. -/
def started (level : Int) : Record :=
  { name := "root", level := Level.debug.rank, path := "logging"
    format := .text s!"Logging configured with level: {levelName level}" }

/-- A journal set up from options, what stood on the console before it, and the first record. -/
def start (env : Surroundings) (console : String) (options : List (Scalar × Datum)) :
    Except SetupFault Journal := do
  let (setup, tree) ← Setup.ofOptions env options
  return ({ setup, tree, console : Journal }).log (started setup.level)

end Journal

end Stencil.Log
