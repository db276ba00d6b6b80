import Stencil.Text.Blank
import Stencil.Text.Case
import Stencil.Text.Find

/-!
# Marked-up text

In a marked-up text a tag in brackets changes how the text after it looks, and a tag with a slash
takes the last change of that name back, or just the last one. A backslash before a tag makes it
plain text; of two backslashes before a tag one is left. Brackets that hold no tag are plain text,
and a backslash before such a bracket is lost.
-/

namespace Stencil.Terminal

/-- Whether a character can start what stands in the brackets of a tag. -/
def isTagStart (c : Char) : Bool := c.isLower || c == '#' || c == '/' || c == '@'

/-- What stands in the brackets of a tag and what follows them, for the text after an open bracket. -/
def tag? : List Char → Option (List Char × List Char)
  | [] => none
  | c :: rest =>
    if isTagStart c then
      let inner := rest.takeWhile fun c => c != '[' && c != ']'
      match rest.dropWhile fun c => c != '[' && c != ']' with
      | ']' :: after => some (c :: inner, after)
      | _ => none
    else none

theorem length_dropWhile_le (p : Char → Bool) (cs : List Char) :
    (cs.dropWhile p).length ≤ cs.length := by
  induction cs with
  | nil => simp
  | cons c rest ih =>
    rw [List.dropWhile_cons]
    split
    · exact Nat.le_succ_of_le ih
    · exact Nat.le_refl _

theorem length_of_tag? {cs inner after : List Char} (h : tag? cs = some (inner, after)) :
    after.length < cs.length := by
  match cs, h with
  | c :: rest, h =>
    simp only [tag?] at h
    split at h
    · split at h
      · rename_i found
        injection h with h
        injection h with _ h
        have := length_dropWhile_le (fun c => c != '[' && c != ']') rest
        rw [found, h, List.length_cons] at this
        exact Nat.lt_succ_of_lt this
      · contradiction
    · contradiction

/-- A part of a marked-up text. -/
inductive Segment where
  | plain (cs : List Char)
  /-- What looks like a tag, after so many backslashes. -/
  | tag (slashes : Nat) (inner : List Char)

/-- The parts of a text, given the plain text before it, the last character first, and how many
backslashes stand between. -/
def segmentsFrom (before : List Char) (slashes : Nat) (cs : List Char) : List Segment :=
  let passed := List.replicate slashes '\\' ++ before
  match cs with
  | [] => [.plain passed.reverse]
  | '\\' :: rest => segmentsFrom before (slashes + 1) rest
  | '[' :: rest =>
    match h : tag? rest with
    | some (inner, after) =>
      have := length_of_tag? h
      .plain before.reverse :: .tag slashes inner :: segmentsFrom [] 0 after
    | none => segmentsFrom ('[' :: passed) 0 rest
  | c :: rest => segmentsFrom (c :: passed) 0 rest
termination_by cs.length

/-- The parts of a text. -/
def segments (s : String) : List Segment := segmentsFrom [] 0 s.toList

/-- A text as a marked-up text that looks like it: a backslash stands before what looks like a tag. -/
def escape (s : String) : String :=
  let escaped := (segments s).flatMap fun
    | .plain cs => cs
    | .tag slashes inner => List.replicate (2 * slashes + 1) '\\' ++ ('[' :: inner) ++ [']']
  match escaped.reverse with
  | '\\' :: '\\' :: _ => String.ofList escaped
  | '\\' :: _ => String.ofList (escaped ++ ['\\'])
  | _ => String.ofList escaped

/-- The name of a tag in the form in which names are compared. -/
def tagName (cs : List Char) : List Char :=
  (Text.toLower (String.ofList (Text.trimBoth Text.isBlank cs))).toList

/-- The names still open after a tag; none if it closes what is not open. -/
def afterTag (names : List (List Char)) (inner : List Char) : Option (List (List Char)) :=
  match inner.takeWhile (· != '=') with
  | '/' :: name =>
    let name := tagName name
    if name.isEmpty then (if names.isEmpty then none else some (names.drop 1))
    else if names.contains name then some (names.erase name)
    else none
  | name => some (tagName name :: names)

/-- What is seen of some parts, given the names that are open, the last one first. -/
def seen (names : List (List Char)) : List Segment → Option (List Char)
  | [] => some []
  | .plain cs :: rest => do
    return Text.replaceAll ['\\', '['] ['['] cs ++ (← seen names rest)
  | .tag slashes inner :: rest => do
    let before := List.replicate (slashes / 2) '\\'
    if slashes % 2 = 1 then return before ++ ('[' :: inner) ++ (']' :: (← seen names rest))
    else return before ++ (← seen (← afterTag names inner) rest)

/-- What is seen of a marked-up text; none if a tag closes what is not open. -/
def plain? (s : String) : Option (List Char) := seen [] (segments s)

end Stencil.Terminal
