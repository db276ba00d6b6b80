/-!
# Paths as text

A path is a text of names divided by slashes. Here it is taken apart and put together as text alone,
without a look at any file: blank names and single dots say nothing, and two dots take back the name
before them, or nothing at the top.
-/

namespace Stencil.Files

/-- Cuts a list of characters at every slash. -/
def splitSlash : List Char → List (List Char)
  | [] => [[]]
  | '/' :: rest => [] :: splitSlash rest
  | c :: rest =>
    match splitSlash rest with
    | part :: parts => (c :: part) :: parts
    | [] => [[c]]

/-- The names of a path, two dots among them; blank names and single dots are left out. -/
def components (path : String) : List String :=
  ((splitSlash path.toList).map String.ofList).filter fun name => name != "" && name != "."

/-- Whether a path starts at the top. -/
def isAbsolute (path : String) : Bool := path.toList.head? == some '/'

/-- One more name after names that are already collapsed, the last one first. -/
def collapseStep (done : List String) (name : String) : List String :=
  if name = ".." then done.drop 1 else name :: done

/-- Names from the top with every pair of dots carried out. -/
def collapse (names : List String) : List String :=
  (names.foldl collapseStep []).reverse

/-- The slashes that an absolute path starts with once it is tidied: two stay two, more are one. -/
def leadingSlashes (path : String) : String :=
  match path.toList with
  | '/' :: '/' :: '/' :: _ => "/"
  | '/' :: '/' :: _ => "//"
  | _ => "/"

/-- Names with slashes between. -/
def joinNames (names : List String) : String := "/".intercalate names

/-- A path set after another; an absolute one stands for itself. -/
def join (base path : String) : String :=
  if isAbsolute path then path
  else if base = "" then path
  else if base.toList.getLast? = some '/' then base ++ path
  else base ++ "/" ++ path

/-- An absolute path with blank names, dots and pairs of dots carried out. -/
def tidy (path : String) : String :=
  leadingSlashes path ++ joinNames (collapse (components path))

/-- A path from `here`, made absolute and tidied. -/
def absolute (here path : String) : String := tidy (join here path)

/-- A path with blank names and single dots left out; pairs of dots stay. -/
def plainPath (path : String) : String :=
  let body := joinNames (components path)
  if isAbsolute path then leadingSlashes path ++ body
  else if body = "" then "." else body

/-- The path of `name` below `root`, with blank names and single dots left out. -/
def under (root name : String) : String := plainPath (join root name)

/-- The last name of a path, if it has one. -/
def baseName? (path : String) : Option String := (components path).getLast?

/-- The ending of a name: its last dot and what follows. A name whose only dot is at its start or
whose last dot is at its end has none. -/
def suffixOf (name : String) : String :=
  let reversed := name.toList.reverse
  let ending := reversed.takeWhile (· != '.')
  match reversed.dropWhile (· != '.') with
  | _ :: before => if ending.isEmpty || before.isEmpty then "" else String.ofList ('.' :: ending.reverse)
  | [] => ""

/-- The ending of the last name of a path. -/
def suffix (path : String) : String := ((baseName? path).map suffixOf).getD ""

/-- The path without its last name. -/
def parentPath (path : String) : String :=
  let body := joinNames (components path).dropLast
  if isAbsolute path then leadingSlashes path ++ body
  else if body = "" then "." else body

end Stencil.Files
