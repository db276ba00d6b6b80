import Stencil.Files.Path

/-!
# The words of a command line

A command line names a command, and then holds flags and plain words in any order. A flag that takes
a text finds it after an equals sign or in the next word; flags of one letter may share a word, and
the last of them may find its text in what is left of the word. After two dashes all words are plain.
Of a flag that occurs twice the last one counts.
-/

namespace Stencil

/-- The commands by name. -/
inductive Verb where
  | render
  | compile
  | precompile
  deriving Repr, DecidableEq

/-- What every command may be told about the compiler. -/
structure Choices where
  root : Option String := none
  config : Option String := none
  compress : Option Bool := none
  logLevel : Option String := none
  jsonLogs : Bool := false
  verbose : Bool := false
  deriving Repr

/-- A command. -/
inductive Command where
  /-- A template is rendered with the data in a file; the text goes to a file, or is shown. -/
  | render (template : String) (data output : Option String) (choices : Choices)
  /-- A template is compiled, and what it includes is told; its source may be shown. -/
  | compile (template : String) (showSource : Bool) (choices : Choices)
  /-- All templates are compiled. -/
  | precompile (choices : Choices)
  deriving Repr

namespace Verb

/-- The name of a command. -/
def label : Verb → String
  | render => "render"
  | compile => "compile"
  | precompile => "precompile"

/-- The command of a name. -/
def ofLabel? (s : String) : Option Verb := [render, compile, precompile].find? (·.label == s)

end Verb

/-- A flag. -/
inductive Flag where
  | root
  | config
  | compress
  | noCompress
  | logLevel
  | jsonLogs
  | verbose
  | data
  | output
  | showSource
  deriving Repr, DecidableEq

namespace Flag

/-- The flags by name. -/
def names : List (String × Flag) := [
  ("--root", root), ("--config", config), ("--compress", compress), ("--no-compress", noCompress),
  ("--log-level", logLevel), ("--json-logs", jsonLogs), ("--verbose", verbose), ("--data", data),
  ("--output", output), ("--show-source", showSource)]

/-- The flags by letter. -/
def letters : List (Char × Flag) :=
  [('r', root), ('c', config), ('v', verbose), ('d', data), ('o', output)]

/-- Whether a flag takes a text. -/
def takesText : Flag → Bool
  | root | config | logLevel | data | output => true
  | _ => false

/-- Whether a command knows a flag. -/
def isKnown (v : Verb) : Flag → Bool
  | data | output => v == .render
  | showSource => v == .compile
  | _ => true

/-- The flag of a name, if the command knows it. -/
def ofName? (v : Verb) (name : String) : Option Flag := (names.lookup name).filter (·.isKnown v)

/-- The flag of a letter, if the command knows it. -/
def ofLetter? (v : Verb) (letter : Char) : Option Flag := (letters.lookup letter).filter (·.isKnown v)

end Flag

/-- What a word holds: flags with their texts, and perhaps one more whose text is the next word. -/
structure Reached where
  given : List (Flag × String) := []
  waiting : Option Flag := none

namespace Reached

/-- The flags of a word of letters. -/
def ofLetters? (v : Verb) : List Char → Option Reached
  | [] => some {}
  | c :: rest => do
    let f ← Flag.ofLetter? v c
    if f.takesText then
      if rest.isEmpty then return { waiting := some f }
      else return { given := [(f, String.ofList rest)] }
    else
      let more ← ofLetters? v rest
      return { more with given := (f, "") :: more.given }

/-- The flag of a word that starts with two dashes. -/
def ofName? (v : Verb) (word : String) : Option Reached := do
  let name := word.toList.takeWhile (· != '=')
  let f ← Flag.ofName? v (String.ofList name)
  match f.takesText, word.toList.drop name.length with
  | true, _ :: text => return { given := [(f, String.ofList text)] }
  | true, [] => return { waiting := some f }
  | false, [] => return { given := [(f, "")] }
  | false, _ => none

end Reached

namespace Command

/-- The flags and the plain words of a command line after the command; none if they make no sense. -/
def readWords (v : Verb) : List String → Option (List (Flag × String) × List String)
  | [] => some ([], [])
  | word :: rest =>
    match word.toList with
    | ['-', '-'] => some ([], rest)
    | '-' :: c :: letters => do
      let reached ← if c = '-' then Reached.ofName? v word else Reached.ofLetters? v (c :: letters)
      match reached.waiting, rest with
      | none, rest =>
        let (given, words) ← readWords v rest
        return (reached.given ++ given, words)
      | some f, text :: rest =>
        let (given, words) ← readWords v rest
        return (reached.given ++ (f, text) :: given, words)
      | some _, [] => none
    | _ => do
      let (given, words) ← readWords v rest
      return (given, word :: words)

/-- The text of the last flag of a kind. -/
def last? (f : Flag) (given : List (Flag × String)) : Option String := given.reverse.lookup f

/-- The path that the last flag of a kind gives, blank names and single dots left out. -/
def path? (f : Flag) (given : List (Flag × String)) : Option String :=
  (last? f given).map Files.plainPath

/-- What flags tell about the compiler. -/
def choices (given : List (Flag × String)) : Choices :=
  { root := path? .root given
    config := path? .config given
    compress := (given.reverse.find? fun (f, _) => f == .compress || f == .noCompress).map
      fun (f, _) => f == .compress
    logLevel := last? .logLevel given
    jsonLogs := (last? .jsonLogs given).isSome
    verbose := (last? .verbose given).isSome }

/-- The command of a command line; none if it makes no sense. -/
def ofWords? (line : List String) : Option Command := do
  let line := if line.head? = some "--" then line.drop 1 else line
  let name :: rest := line | none
  let v ← Verb.ofLabel? name
  let (given, words) ← readWords v rest
  match v, words with
  | .render, [template] =>
    return .render template (path? .data given) (path? .output given) (choices given)
  | .compile, [template] => return .compile template (last? .showSource given).isSome (choices given)
  | .precompile, [] => return .precompile (choices given)
  | _, _ => none

end Command

end Stencil
