import Stencil.Text.Blank
import Stencil.Text.Find

/-!
# Cutting texts

Texts taken apart: at white space, at words from the left or the right, at line ends; and where a word
stands in a text.
-/

namespace Stencil.Text

/-- The words of a text that white space divides. After `limit` cuts the rest stays whole. -/
def words : (fuel limit : Nat) → List Char → List (List Char)
  | 0, _, _ => []
  | fuel + 1, limit, cs =>
    match cs.dropWhile isBlank with
    | [] => []
    | cs =>
      if limit = 0 then [cs]
      else
        cs.takeWhile (fun c => !isBlank c) ::
          words fuel (limit - 1) (cs.dropWhile fun c => !isBlank c)

/-- The words of a text that white space divides, cut from the right. -/
def wordsRight (limit : Nat) (cs : List Char) : List (List Char) :=
  ((words (cs.length + 1) limit cs.reverse).map List.reverse).reverse

/-- The parts between the occurrences of a word, cut from the right at most `limit` times. -/
def splitWordRight (word : List Char) (limit : Nat) (cs : List Char) : List (List Char) :=
  ((splitWord word.reverse limit cs.reverse).map List.reverse).reverse

/-- The lines of a text, with their ends or without. -/
def linesFrom (keepEnds : Bool) : (line : List Char) → List Char → List (List Char)
  | [], [] => []
  | line, [] => [line.reverse]
  | line, '\r' :: '\n' :: rest =>
    (if keepEnds then ('\n' :: '\r' :: line).reverse else line.reverse) :: linesFrom keepEnds [] rest
  | line, c :: rest =>
    if isLineEnd c then
      (if keepEnds then (c :: line).reverse else line.reverse) :: linesFrom keepEnds [] rest
    else linesFrom keepEnds (c :: line) rest

/-- The lines of a text. -/
def lines (keepEnds : Bool) (cs : List Char) : List (List Char) := linesFrom keepEnds [] cs

/-- How often a word occurs in a text, no two occurrences sharing a character. -/
def countWord (word cs : List Char) : Nat :=
  if word.isEmpty then cs.length + 1 else (splitWord word cs.length cs).length - 1

/-- Where a word first stands in a text. -/
def indexOf? (word cs : List Char) : Option Nat :=
  (splitFirst? word cs).map fun (before, _) => before.length

/-- Where a word last stands in a text. -/
def lastIndexOf? (word cs : List Char) : Option Nat :=
  (splitFirst? word.reverse cs.reverse).map fun (after, _) => cs.length - after.length - word.length

end Stencil.Text
