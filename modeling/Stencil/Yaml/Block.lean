import Stencil.Yaml.Cursor
import Stencil.Yaml.Fault

/-!
# Block texts in YAML

A text that stands on the lines below its sign, set in further than what holds it. The sign `|` keeps
the lines as they are, `>` folds them; the signs after it say what becomes of the last line ends, and
how far the text is set in where its first line does not show that.
-/

namespace Stencil.Yaml

/-- What becomes of the line ends at the end of a block text. -/
inductive Chomp where
  | clip
  | keep
  | strip
  deriving DecidableEq

/-- The sign for what becomes of the last line ends, if it stands here. -/
def readChomp (c : Cursor) : Option Chomp × Cursor :=
  match c.peek 0 with
  | some '+' => (some .keep, c.step)
  | some '-' => (some .strip, c.step)
  | _ => (none, c)

/-- The digit that says how far the text is set in, if it stands here. -/
def readIndent (c : Cursor) : Except Fault (Option Nat × Cursor) :=
  match c.peek 0 with
  | some '0' => .error .malformed
  | some ch => .ok (if ch.isDigit then (some (ch.toNat - 48), c.step) else (none, c))
  | none => .ok (none, c)

/-- The signs after the one that opens a block text, in either order, and the rest of their line. -/
def readBlockHeader (c : Cursor) : Except Fault (Chomp × Option Nat × Cursor) := do
  let (chomp, c) := readChomp c
  let (indent, c) ← readIndent c
  let (chomp, c) := if chomp.isNone && indent.isSome then readChomp c else (chomp, c)
  if !endsWord (c.peek 0) then .error .malformed
  else
    let c := c.skipComment
    if !endsLine (c.peek 0) then .error .malformed
    else return (chomp.getD .clip, indent, c.lineEnd.2)

/-- The line ends before the first line of a text, and the greatest column that blanks reach. -/
def blockIndent : (fuel deepest : Nat) → Cursor → List Char × Nat × Cursor
  | 0, deepest, c => ([], deepest, c)
  | fuel + 1, deepest, c =>
    if c.peek 0 = some ' ' then
      let c := c.step
      blockIndent fuel (max deepest c.column) c
    else
      match c.lineEnd with
      | ([], _) => ([], deepest, c)
      | (mark, next) =>
        let (rest, deepest, c) := blockIndent fuel deepest next
        (mark ++ rest, deepest, c)

/-- The place after the blanks before a column. -/
def skipIndent (indent : Nat) (c : Cursor) : Cursor :=
  let blanks := (c.rest.takeWhile (· == ' ')).length
  c.skip (min blanks (indent - c.column))

/-- The line ends before the next line of a text that is set in so far. -/
def blockBreaks (indent : Nat) : (fuel : Nat) → Cursor → List Char × Cursor
  | 0, c => ([], c)
  | fuel + 1, c =>
    let c := skipIndent indent c
    match c.lineEnd with
    | ([], _) => ([], c)
    | (mark, next) =>
      let (rest, c) := blockBreaks indent fuel next
      (mark ++ rest, c)

/-- Whether a blank or a tab stands here. -/
def startsBlank (c : Cursor) : Bool := c.peek 0 == some ' ' || c.peek 0 == some '\t'

/-- The lines of a block text: the text, the line end of its last line and the ones after that. -/
def blockLines (folded : Bool) (indent : Nat) : (fuel : Nat) → (breaks : List Char) → Cursor →
    List Char × List Char × List Char × Cursor
  | 0, breaks, c => ([], [], breaks, c)
  | fuel + 1, breaks, c =>
    let flush := !startsBlank c
    let (line, c) := c.take fun ch => !isBreak ch
    let (mark, c) := c.lineEnd
    let (next, c) := blockBreaks indent (c.rest.length + 1) c
    if c.column = indent && (c.peek 0).isSome then
      let joint :=
        if folded && mark = ['\n'] && flush && !startsBlank c then
          (if next.isEmpty then [' '] else [])
        else mark
      let (rest, last, trailing, c) := blockLines folded indent fuel next c
      (breaks ++ line ++ joint ++ rest, last, trailing, c)
    else (breaks ++ line, mark, next, c)

/-- A block text, from its sign on, inside something set in up to column `outer`. -/
def readBlock (folded : Bool) (outer : Int) (c : Cursor) : Except Fault (String × Cursor) := do
  let (chomp, indent, c) ← readBlockHeader c.step
  let least := max 1 (outer + 1).toNat
  let fuel := c.rest.length + 1
  let (indent, breaks, c) :=
    match indent with
    | none =>
      let (breaks, deepest, c) := blockIndent fuel 0 c
      (max least deepest, breaks, c)
    | some n =>
      let indent := least + n - 1
      let (breaks, c) := blockBreaks indent fuel c
      (indent, breaks, c)
  let (body, last, trailing, c) :=
    if c.column = indent && (c.peek 0).isSome then blockLines folded indent fuel breaks c
    else ([], [], breaks, c)
  let ending :=
    match chomp with
    | .clip => last
    | .keep => last ++ trailing
    | .strip => []
  return (String.ofList (body ++ ending), c)

end Stencil.Yaml
