import Stencil.Text.Runs

/-!
# A place in a YAML text

What is left of a text, and how far into it that is: in characters, in lines, and in columns of the
line. Line ends are the line feed, the carriage return alone or before a line feed, the next-line
character and the two separators; a byte order mark takes no column.
-/

namespace Stencil.Yaml

/-- What is left of a text and where that starts. -/
structure Cursor where
  rest : List Char
  index : Nat := 0
  line : Nat := 0
  column : Nat := 0

/-- Whether a character ends a line. -/
def isBreak (c : Char) : Bool :=
  c == '\n' || c == '\r' || c.toNat == 0x85 || c.toNat == 0x2028 || c.toNat == 0x2029

/-- Whether nothing, or a line end, is there. -/
def endsLine (c : Option Char) : Bool := c.all isBreak

/-- Whether nothing, a space or a line end is there. -/
def endsWord (c : Option Char) : Bool := c.all fun c => c == ' ' || isBreak c

/-- Whether nothing, a space, a tab or a line end is there. -/
def endsToken (c : Option Char) : Bool := c.all fun c => c == ' ' || c == '\t' || isBreak c

/-- Whether a character may stand in the name of an anchor, a directive or a handle. -/
def isNameChar (c : Char) : Bool := c.isAlphanum || c == '-' || c == '_'

/-- Whether a text may hold a character. -/
def isAllowed (c : Char) : Bool :=
  let n := c.toNat
  n == 9 || n == 10 || n == 13 || (0x20 ≤ n && n ≤ 0x7E) || n == 0x85 ||
    (0xA0 ≤ n && n ≤ 0xFFFD) || 0x10000 ≤ n

namespace Cursor

/-- The character `k` places on. -/
def peek (c : Cursor) (k : Nat) : Option Char := c.rest[k]?

/-- One character on. -/
def step (c : Cursor) : Cursor :=
  match c.rest with
  | [] => c
  | ch :: rest =>
    let turns := if ch = '\r' then rest.head? != some '\n' else isBreak ch
    { rest
      index := c.index + 1
      line := if turns then c.line + 1 else c.line
      column := if turns then 0 else if ch.toNat = 0xFEFF then c.column else c.column + 1 }

/-- So many characters on. -/
def skip (c : Cursor) : Nat → Cursor
  | 0 => c
  | n + 1 => c.step.skip n

/-- The run of characters of a class, and the place after it. -/
def take (c : Cursor) (p : Char → Bool) : List Char × Cursor :=
  let run := c.rest.takeWhile p
  (run, c.skip run.length)

/-- The place after a run of characters of a class. -/
def drop (c : Cursor) (p : Char → Bool) : Cursor := (c.take p).2

/-- The line end that stands here, if one does, and the place after it. The two separators stand for
themselves, all others for a line feed. -/
def lineEnd (c : Cursor) : List Char × Cursor :=
  match c.rest with
  | '\r' :: '\n' :: _ => (['\n'], c.skip 2)
  | ch :: _ =>
    if ch.toNat = 0x2028 || ch.toNat = 0x2029 then ([ch], c.step)
    else if isBreak ch then (['\n'], c.step)
    else ([], c)
  | [] => ([], c)

/-- Whether three signs stand here as a word of their own. -/
def marks (c : Cursor) (sign : Char) : Bool :=
  c.peek 0 == some sign && c.peek 1 == some sign && c.peek 2 == some sign && endsToken (c.peek 3)

/-- Whether the mark that parts documents, or the one that ends a document, stands here. -/
def atDocumentMark (c : Cursor) : Bool := c.marks '-' || c.marks '.'

/-- The place after blanks and a comment. -/
def skipComment (c : Cursor) : Cursor :=
  let c := c.drop (· == ' ')
  if c.peek 0 = some '#' then c.drop (fun ch => !isBreak ch) else c

end Cursor

end Stencil.Yaml
