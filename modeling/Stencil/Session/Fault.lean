import Stencil.Engine
import Stencil.Reading

/-!
# Why a template is not compiled or rendered

The faults that a compiler meets, from the name of a template to its rendering. Most are reported with
the place where they arose; some come from below and are passed on as they are.
-/

namespace Stencil

/-- The report of a path that names no template; a path that cannot be looked up is not reported. -/
def NameFault.report? : NameFault → Option Report
  | .outside name root =>
    some (.notFound (.text name) (.text s!"Template path outside of root: {name}")
      (.place "identifiers" "normalize_template_id" [("root", .text root)]))
  | .embeddedNull => none

/-- Why a template is not compiled or rendered. -/
inductive Fault where
  | name (f : NameFault)
  /-- The file at `path` cannot be had. -/
  | missing (id path : String) (f : Files.Fault)
  /-- The file at `path` cannot even be looked for. -/
  | unreachable (path : String) (f : Files.Fault)
  | notText (f : Text.Utf8Fault)
  | circular (chain : List String)
  | shrink (f : ShrinkFault)
  | engine (f : EngineFailure)
  | rendering (f : Language.Fault)
  /-- A directory cannot be listed. -/
  | listing (path : String) (f : Files.Fault)
  /-- A directory to be listed lies outside of the root. -/
  | listingOutside
  /-- The task has not ended yet. -/
  | unfinished

namespace Fault

/-- The fault of a reading. -/
def ofReading : Reading.Fault → Fault
  | .circular chain => .circular chain
  | .name f => .name f

/-- The fault of a file that cannot be opened. -/
def ofFile (id path : String) (f : Files.Fault) : Fault :=
  match f with
  | .notFound | .isADirectory | .notADirectory | .noPermission => .missing id path f
  | f => .unreachable path f

/-- The fault of what a file holds. -/
def ofLoad : Reading.LoadFault → Fault
  | .notText f => .notText f
  | .shrink f => .shrink f

/-- The report of a fault, if it is one that is reported. -/
def report? : Fault → Option Report
  | .name f => f.report?
  | .missing id path f =>
    some (.notFound (.text id) (.text s!"Template not found: {id} ({f.message})")
      (.place "FileSystemLoader" "read_all" [("path", .text path)]))
  | .circular chain => some (.circular chain (.place "TemplateAssembler" "read" []))
  | .shrink f => f.report?
  | .engine (.rejected r _ _) => some r
  | _ => none

/-- A fault in words. -/
def message (f : Fault) : String :=
  match f.report? with
  | some r => r.text
  | none =>
    match f with
    | .name .embeddedNull => Files.Fault.embeddedNull.message
    | .unreachable path f | .listing path f => f.describe path
    | .notText f => f.message
    | .shrink f => f.message
    | .engine _ => "invalid syntax"
    | .rendering f => f.message?.getD ""
    | _ => ""

end Fault

end Stencil
