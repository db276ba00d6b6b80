import Stencil.Command
import Stencil.Json.Writer

/-!
# The command line

The words of the command line are run on a workspace, which is read from standard input as one line of
JSON: an object with the `files` by path, the `variables` by name, and the directory `here`. What the
command comes to is answered as one line of JSON on standard output.
-/

namespace Stencil.Main

/-- The texts of a field by name. -/
def textsOf (name : String) (entries : List (Scalar × Datum)) : List (String × String) :=
  match Datum.field? name entries with
  | some (.map fields) =>
    fields.filterMap fun (k, v) =>
      match k, v with
      | .text k, .scalar (.text v) => some (k, v)
      | _, _ => none
  | _ => []

/-- A tree with a file at a path, the directories above it made; a path that cannot be is left out. -/
def withFile (t : Files.Tree) (path text : String) : Files.Tree :=
  match t.makeDirectories (Files.parentPath path) with
  | .ok made => (made.write path (Text.encode text)).toOption.getD t
  | .error _ => t

/-- The workspace that an object describes. -/
def workspace (entries : List (Scalar × Datum)) : Surroundings :=
  let here := match Datum.field? "here" entries with | some d => Files.absolute "/" d.plain | none => "/"
  let start := (({} : Files.Tree).makeDirectories here).toOption.getD {}
  let tree := (textsOf "files" entries).foldl (fun t (path, text) => withFile t (Files.join here path) text) start
  { tree, here, environment := textsOf "variables" entries }

/-- What a command comes to, as an object. -/
def answer (o : Outcome) : Datum :=
  let files := o.tree.files.filterMap fun (path, content) =>
    match Text.decode content with
    | .ok text => some (path, Datum.text text)
    | .error _ => none
  let trouble := o.escaped.map fun t => ("trouble", Datum.text (t.message?.getD "The command was broken off"))
  Datum.ofFields ([("code", .int o.code), ("output", .text o.output), ("console", .text o.console),
    ("files", Datum.ofFields files)] ++ trouble.toList)

end Stencil.Main

open Stencil in
/-- Runs a command line. -/
def main (line : List String) : IO UInt32 := do
  let given ← (← IO.getStdin).getLine
  let env := match Json.read given with
    | .ok (.map entries) => Main.workspace entries
    | _ => {}
  let o := Command.runWords env line
  IO.println ((Json.write (Main.answer o)).toOption.getD "null")
  return UInt32.ofNat o.code
