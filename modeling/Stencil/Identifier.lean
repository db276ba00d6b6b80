import Stencil.Files.Tree

/-!
# Identifiers of templates

A template is known by the names that lead to it from the root. A path, absolute or relative to the
root, is brought to that form as text: it is set after the root, collapsed, and has to go on where the
collapsed root ends. An absolute path that does not is compared once more with all links followed on
both sides, so that a root reached through a link still matches.
-/

namespace Stencil

/-- Why a path names no template. -/
inductive NameFault where
  /-- The path leads out of the root, or to the root itself. -/
  | outside (name root : String)
  /-- The path cannot be looked up at all. -/
  | embeddedNull
  deriving Repr, DecidableEq

namespace Identifier

/-- What is left of some names after those of the root, if they start with them. -/
def afterRoot? : (root names : List String) → Option (List String)
  | [], names => some names
  | _ :: _, [] => none
  | r :: root, n :: names => if r = n then afterRoot? root names else none

/-- The names that lead from one collapsed path to another below it; a path is not below itself. -/
def relative? (root path : String) : Option (List String) :=
  match afterRoot? (Files.collapse (Files.components root)) (Files.collapse (Files.components path)) with
  | some (n :: names) => some (n :: names)
  | _ => none

/-- The identifier of the template at `name`, a path that is absolute or relative to `root`; a root
that is not absolute starts at `here`. -/
def normalize (tree : Files.Tree) (here root name : String) : Except NameFault String :=
  let root := Files.absolute here root
  let full := Files.tidy (Files.join root name)
  match relative? root full with
  | some names => .ok (Files.joinNames names)
  | none =>
    if Files.isAbsolute name then
      if (full ++ root).toList.contains '\x00' then .error .embeddedNull
      else
        match relative? (tree.realPath root) (tree.realPath full) with
        | some names => .ok (Files.joinNames names)
        | none => .error (.outside name root)
    else .error (.outside name root)

/-- Whether a template is scanned for directives and includes. -/
def isTemplate (id : String) : Bool := Files.suffix id == ".mjs"

/-- Whether a template is a stylesheet, which is shrunk as soon as it is loaded. -/
def isStylesheet (id : String) : Bool := Files.suffix id == ".css"

end Identifier

end Stencil
