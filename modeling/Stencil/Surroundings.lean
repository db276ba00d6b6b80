import Stencil.Files.Tree
import Stencil.Text.Blank
import Stencil.Text.Find

/-!
# Surroundings

The files, the current directory, the environment variables and the users that a program runs with.
Variables keep the order in which they were first set.
-/

namespace Stencil

/-- What a program runs with. -/
structure Surroundings where
  tree : Files.Tree := {}
  here : String := "/"
  environment : List (String × String) := []
  /-- The home directory of the user it runs for, if that user is known. -/
  home : Option String := none
  /-- The home directories of users by their names. -/
  homes : List (String × String) := []

namespace Surroundings

/-- Variables with one set: in its place if it is there, else at the end. -/
def setVariable (name value : String) : List (String × String) → List (String × String)
  | [] => [(name, value)]
  | (n, v) :: rest => if n = name then (n, value) :: rest else (n, v) :: setVariable name value rest

/-- The home directory of a user. Without a name it is that of the user the program runs for, and the
environment may give another one. -/
def homeOf? (s : Surroundings) (user : String) : Option String :=
  if user = "" then (s.environment.lookup "HOME").or s.home else s.homes.lookup user

/-- A path whose first name is a tilde and the name of a user, or a lone tilde, with the home directory
in its place. The path stays as it is where no home is known. -/
def expandHome (s : Surroundings) (path : String) : String :=
  match path.toList with
  | '~' :: rest =>
    let user := rest.takeWhile (· != '/')
    match s.homeOf? (String.ofList user) with
    | none => path
    | some home =>
      let expanded := Text.dropRight (· == '/') home.toList ++ rest.drop user.length
      if expanded.isEmpty then "/" else String.ofList expanded
  | _ => path

/-- The absolute form of a path, nothing carried out. -/
def absolute (s : Surroundings) (path : String) : String := Files.join s.here path

end Surroundings

end Stencil
