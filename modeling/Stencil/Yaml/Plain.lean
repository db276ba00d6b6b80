import Stencil.Yaml.Cursor
import Stencil.Yaml.Fault
import Stencil.Yaml.Quoted

/-!
# Plain texts in YAML

A text without quotes. It goes on over lines that are set in further than what holds it, and ends
before a comment, before a colon with a blank after it, and inside brackets before a comma, a
question mark or a bracket.
-/

namespace Stencil.Yaml

/-- Whether a plain text can start here. -/
def startsPlain (flow : Bool) (c : Cursor) : Bool :=
  match c.peek 0 with
  | none => false
  | some ch =>
    let special := ch == ' ' || ch == '\t' || isBreak ch || "-?:,[]\x7b\x7d#&*!|>'\"%@".toList.contains ch ||
      ch.toNat == 96
    !special ||
      (!endsToken (c.peek 1) && (ch == '-' || (!flow && (ch == '?' || ch == ':'))))

/-- The characters of a plain text from here to the next blank or its end. -/
def plainRun (flow : Bool) : List Char → List Char
  | [] => []
  | ch :: rest =>
    let next := rest.head?
    let stops :=
      ch == ' ' || ch == '\t' || isBreak ch ||
      (ch == ':' && (endsToken next || (flow && next.any fun n => ",[]\x7b\x7d".toList.contains n))) ||
      (flow && ",?[]\x7b\x7d".toList.contains ch)
    if stops then [] else ch :: plainRun flow rest

/-- The line ends between two lines of a plain text with the place after them; none where a document
ends among them. -/
def plainBreaks : (fuel : Nat) → Cursor → Option (List Char) × Cursor
  | 0, c => (some [], c)
  | fuel + 1, c =>
    let c := c.drop (· == ' ')
    match c.lineEnd with
    | ([], _) => (some [], c)
    | (mark, next) =>
      if next.atDocumentMark then (none, next)
      else
        let (rest, c) := plainBreaks fuel next
        (rest.map (mark ++ ·), c)

/-- What the blanks and line ends after a part of a plain text come to, the place after them, and
whether a line ended. -/
def plainSpaces (c : Cursor) : List Char × Cursor × Bool :=
  let (blanks, c) := c.take (· == ' ')
  match c.lineEnd with
  | ([], _) => (blanks, c, false)
  | (mark, next) =>
    if next.atDocumentMark then ([], next, true)
    else
      match plainBreaks (next.rest.length + 1) next with
      | (none, c) => ([], c, true)
      | (some breaks, c) => (foldLine mark breaks, c, true)

/-- A plain text from here on, after blanks; the flag says whether the last blanks ended a line. -/
def plainFrom (flow : Bool) (indent : Int) : (fuel : Nat) → (blanks : List Char) → (ended : Bool) →
    Cursor → List Char × Cursor × Bool
  | 0, _, ended, c => ([], c, ended)
  | fuel + 1, blanks, ended, c =>
    let run := if c.peek 0 = some '#' then [] else plainRun flow c.rest
    if run.isEmpty then ([], c, ended)
    else
      let (next, c, ended) := plainSpaces (c.skip run.length)
      if next.isEmpty || c.peek 0 = some '#' || (!flow && (c.column : Int) < indent) then
        (blanks ++ run, c, ended)
      else
        let (rest, c, ended) := plainFrom flow indent fuel next ended c
        (blanks ++ run ++ rest, c, ended)

/-- A plain text inside something set in up to column `outer`, and whether a line ended after it. -/
def readPlain (flow : Bool) (outer : Int) (c : Cursor) : String × Cursor × Bool :=
  let (text, c, ended) := plainFrom flow (outer + 1) (c.rest.length + 1) [] false c
  (String.ofList text, c, ended)

end Stencil.Yaml
