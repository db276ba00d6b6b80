import Stencil.Terminal.Markup
import Stencil.Text.Columns

/-!
# Lines on a terminal

A text is shown in lines of so many columns. A line is cut before the first word that does not fit; a
word that is wider than a line is cut where the line ends. Blanks count for the word before them and
may stand beyond the end. Tabs lead to the next multiple of eight columns, and characters that would
ring a bell or move the cursor are left out.
-/

namespace Stencil.Terminal

/-- The number of columns. -/
def width : Nat := 10000

/-- Whether a character only acts on the terminal: the bell, the backspace, two kinds of feed, and the
return. -/
def isControl (c : Char) : Bool := [7, 8, 11, 12, 13].contains c.toNat

/-- A line with blanks for its tabs, the first character in a column. -/
def expandTabs (column : Nat) : List Char → List Char
  | [] => []
  | '\t' :: rest =>
    let count := 8 - column % 8
    List.replicate count ' ' ++ expandTabs (column + count) rest
  | c :: rest => c :: expandTabs (column + Text.columnsOf c) rest

/-- Cuts a word into parts of at most so many columns, the first part begun. -/
def chop (limit : Nat) (part : List Char) : List Char → List (List Char)
  | [] => [part]
  | c :: rest =>
    if limit < Text.columns part + Text.columnsOf c then part :: chop limit [c] rest
    else chop limit (part ++ [c]) rest

/-- Cuts a text before each word but the first: a word, and the blanks after it. -/
def wordsWithBlanks (word : List Char) : List Char → List (List Char)
  | [] => if word.isEmpty then [] else [word]
  | c :: rest =>
    let ended := word.any (!Text.isBlank ·) && (word.getLast?.any Text.isBlank)
    if ended && !Text.isBlank c then word :: wordsWithBlanks [c] rest
    else wordsWithBlanks (word ++ [c]) rest

/-- Fills lines with words, the last line begun. -/
def fill (limit : Nat) (line : List Char) : List (List Char) → List (List Char)
  | [] => [line]
  | word :: rest =>
    let size := Text.columns (Text.dropRight Text.isBlank word)
    let done := if line.isEmpty then [] else [line]
    if Text.columns line + size ≤ limit then fill limit (line ++ word) rest
    else if limit < size then
      let parts := chop limit [] word
      done ++ parts.dropLast ++ fill limit (parts.getLastD []) rest
    else done ++ fill limit word rest

/-- A line without the blanks at its end that lie beyond the limit. -/
def dropBeyond (limit : Nat) (line : List Char) : List Char :=
  let blanks := (line.reverse.takeWhile Text.isBlank).length
  line.take (line.length - min blanks (line.length - limit))

/-- Cuts a text at its line ends. -/
def splitLines (cs : List Char) : List (List Char) := Text.splitWord ['\n'] cs.length cs

/-- The lines in which a text is shown. -/
def wrap (limit : Nat) (cs : List Char) : List (List Char) :=
  (splitLines cs).flatMap fun line =>
    (fill limit [] (wordsWithBlanks [] (expandTabs 0 line))).map (dropBeyond limit)

/-- A line set in the middle of so many columns; an odd blank comes last. -/
def centre (limit : Nat) (line : List Char) : List Char :=
  let line := Text.dropRight Text.isBlank line
  let spare := limit - Text.columns line
  List.replicate (spare / 2) ' ' ++ line ++ List.replicate (spare - spare / 2) ' '

/-- What a terminal shows of a marked-up text, before it is set in lines. -/
def shown? (markup : String) : Option (List Char) := (plain? markup).map (·.filter (!isControl ·))

/-- A marked-up text as it is printed, with an end to its last line; none if its tags do not fit. -/
def print? (markup : String) : Option String := do
  let lines := wrap width (← shown? markup)
  return String.ofList (lines.flatMap (· ++ ['\n']))

/-- A text without the commands that would change how it looks on a terminal. -/
def withoutStyles (cs : List Char) : List Char :=
  match cs with
  | [] => []
  | '\x1b' :: '[' :: rest =>
    match h : rest.dropWhile fun c => c.isDigit || c == ';' || c == '?' with
    | c :: after =>
      have : after.length < rest.length := by
        have := length_dropWhile_le (fun c => c.isDigit || c == ';' || c == '?') rest
        rw [h] at this
        exact this
      if c.isAlpha then withoutStyles after else '\x1b' :: withoutStyles ('[' :: rest)
    | [] => '\x1b' :: '[' :: rest
  | c :: rest => c :: withoutStyles rest
termination_by cs.length

end Stencil.Terminal
