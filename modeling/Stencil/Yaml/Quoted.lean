import Stencil.Yaml.Cursor
import Stencil.Yaml.Fault
import Stencil.Text.Digit

/-!
# Quoted texts in YAML

A text between single quotes, in which a quote is written twice, or between double quotes, in which a
backslash starts an escape. Lines are folded: a line end with the blanks around it is one space, and
of more line ends in a row all but the first are kept.
-/

namespace Stencil.Yaml

/-- What a backslash and a character stand for. -/
def escapes : List (Char × Nat) := [
  ('0', 0), ('a', 7), ('b', 8), ('t', 9), ('\t', 9), ('n', 10), ('v', 11), ('f', 12), ('r', 13),
  ('e', 27), (' ', 32), ('"', 34), ('\\', 92), ('/', 47), ('N', 0x85), ('_', 0xA0), ('L', 0x2028),
  ('P', 0x2029)]

/-- How many digits of a code point follow a backslash and a character. -/
def codeLengths : List (Char × Nat) := [('x', 2), ('u', 4), ('U', 8)]

/-- The character of a code point. Half of a surrogate pair is no character; the replacement
character stands in for it. -/
def charOfCode (n : Nat) : Except Fault Char :=
  if n ≥ 0x80000000 then .error .tooLarge
  else if n > 0x10FFFF then .error (.impossible "chr() arg not in range(0x110000)")
  else if h : n.isValidChar then .ok (Char.ofNatAux n h)
  else .ok (Char.ofNat 0xFFFD)

/-- The value of exactly so many digits in base sixteen. -/
def readCode (length : Nat) (cs : List Char) : Except Fault Nat :=
  let digits := (cs.take length).filterMap (Text.baseDigit 16)
  if digits.length = length then .ok (Text.digitsValue 16 digits) else .error .malformed

/-- The line ends from here on, blanks between them left out. No document may end among them. -/
def foldedBreaks : (fuel : Nat) → Cursor → Except Fault (List Char × Cursor)
  | 0, c => .ok ([], c)
  | fuel + 1, c =>
    if c.atDocumentMark then .error .malformed
    else
      let c := c.drop fun ch => ch == ' ' || ch == '\t'
      match c.lineEnd with
      | ([], _) => .ok ([], c)
      | (mark, next) => do
        let (rest, c) ← foldedBreaks fuel next
        return (mark ++ rest, c)

/-- What a line end and the line ends after it come to. -/
def foldLine (mark breaks : List Char) : List Char :=
  (if mark ≠ ['\n'] then mark else if breaks.isEmpty then [' '] else []) ++ breaks

/-- The blanks from here on, or what the line ends among them come to. -/
def quotedSpaces (c : Cursor) : Except Fault (List Char × Cursor) := do
  let (blanks, c) := c.take fun ch => ch == ' ' || ch == '\t'
  match c.peek 0, c.lineEnd with
  | none, _ => .error .malformed
  | _, ([], _) => return (blanks, c)
  | _, (mark, next) =>
    let (breaks, c) ← foldedBreaks (next.rest.length + 1) next
    return (foldLine mark breaks, c)

/-- What the escape after a backslash stands for. -/
def readEscape (c : Cursor) : Except Fault (List Char × Cursor) := do
  match c.peek 0 with
  | none => .error .malformed
  | some ch =>
    match escapes.lookup ch, codeLengths.lookup ch, c.lineEnd with
    | some n, _, _ => return ([Char.ofNat n], c.step)
    | none, some length, _ =>
      let c := c.step
      let char ← charOfCode (← readCode length c.rest)
      return ([char], c.skip length)
    | none, none, ([], _) => .error .malformed
    | none, none, (_, next) => foldedBreaks (next.rest.length + 1) next

/-- The text up to the closing quote, the characters before it in reverse. -/
def quotedFrom (double : Bool) : (fuel : Nat) → (done : List Char) → Cursor →
    Except Fault (String × Cursor)
  | 0, _, _ => .error .malformed
  | fuel + 1, done, c => do
    match c.rest with
    | '\'' :: '\'' :: _ =>
      quotedFrom double fuel (if double then '\'' :: '\'' :: done else '\'' :: done) (c.skip 2)
    | [] => .error .malformed
    | ch :: _ =>
      if ch = (if double then '"' else '\'') then return (String.ofList done.reverse, c.step)
      else if double && ch = '\\' then
        let (chars, c) ← readEscape c.step
        quotedFrom double fuel (chars.reverse ++ done) c
      else if ch = ' ' || ch = '\t' || isBreak ch then
        let (chars, c) ← quotedSpaces c
        quotedFrom double fuel (chars.reverse ++ done) c
      else quotedFrom double fuel (ch :: done) c.step

/-- A text in quotes, from its opening quote on. -/
def readQuoted (double : Bool) (c : Cursor) : Except Fault (String × Cursor) :=
  quotedFrom double (c.rest.length + 1) [] c.step

end Stencil.Yaml
