import Stencil.Decimal.Limit
import Stencil.Yaml.Block
import Stencil.Yaml.Plain
import Stencil.Text.Utf8

/-!
# The tokens of a YAML text

A text as signs, names and scalars. How far a line is set in opens and closes block collections, which
have tokens of their own. A key is only known for one when its colon comes, so the scanner remembers
where a key may have started, one place for each depth of brackets, and sets the token for the key in
there afterwards; such a key stands on one line and has at most 1024 characters.
-/

namespace Stencil.Yaml

/-- A tag as it is written: a handle, if it has one, and what follows. -/
structure Tag where
  handle : Option String
  suffix : String
  deriving Repr, DecidableEq

/-- What a text is made of. -/
inductive Token where
  /-- The version that a text says it is written in. -/
  | version (major : Nat)
  /-- A handle for tags and what it stands for. -/
  | handle (name stem : String)
  /-- Any other directive. -/
  | directive
  | documentStart
  | documentEnd
  | blockSequenceStart
  | blockMappingStart
  | blockEnd
  | flowSequenceStart
  | flowSequenceEnd
  | flowMappingStart
  | flowMappingEnd
  | flowEntry
  | blockEntry
  | key
  | value
  | alias (name : String)
  | anchor (name : String)
  | tag (t : Tag)
  | scalar (text : String) (isPlain : Bool)
  deriving Repr, DecidableEq

/-- Where a key may have started: the token that it would be set before, and whether one must follow. -/
structure KeyPlace where
  token : Nat
  required : Bool
  index : Nat
  line : Nat
  column : Nat

/-- How far a text is scanned. -/
structure Scan where
  cursor : Cursor
  /-- The number of brackets that are open. -/
  depth : Nat := 0
  /-- The column up to which the innermost block collection is set in. -/
  indent : Int := -1
  /-- The same for those around it. -/
  outer : List Int := []
  /-- Whether a key may start here. -/
  keyAllowed : Bool := true
  /-- Where a key may have started, by depth. -/
  places : List (Nat × KeyPlace) := []
  tokens : Array Token := #[]

namespace Scan

/-- Whether brackets are open. -/
def inFlow (s : Scan) : Bool := s.depth ≠ 0

/-- The scan with a token added. -/
def push (s : Scan) (t : Token) : Scan := { s with tokens := s.tokens.push t }

/-- The scan moved on and a token added. -/
def pushPast (s : Scan) (length : Nat) (t : Token) : Scan :=
  { s with cursor := s.cursor.skip length, tokens := s.tokens.push t }

/-- The place to go on from: blanks, comments and line ends are passed over. A key may start on a new
line outside brackets. -/
def toNextToken : (fuel : Nat) → Scan → Scan
  | 0, s => s
  | fuel + 1, s =>
    let c := s.cursor.skipComment
    match c.lineEnd with
    | ([], _) => { s with cursor := c }
    | (_, next) => toNextToken fuel { s with cursor := next, keyAllowed := s.keyAllowed || !s.inFlow }

/-- The scan without the places from which no key can reach here any more. -/
def dropStale (s : Scan) : Except Fault Scan :=
  let stale (p : KeyPlace) := p.line ≠ s.cursor.line || s.cursor.index - p.index > 1024
  if s.places.any fun (_, p) => stale p && p.required then .error .malformed
  else .ok { s with places := s.places.filter fun (_, p) => !stale p }

/-- The scan without the place of a key at this depth. -/
def dropPlace (s : Scan) : Except Fault Scan :=
  if (s.places.lookup s.depth).any (·.required) then .error .malformed
  else .ok { s with places := s.places.filter (·.1 != s.depth) }

/-- The scan with the place here remembered, if a key may start here. -/
def markPlace (s : Scan) : Except Fault Scan := do
  if s.keyAllowed then
    let s ← s.dropPlace
    let c := s.cursor
    let place : KeyPlace :=
      { token := s.tokens.size, required := !s.inFlow && s.indent = c.column
        index := c.index, line := c.line, column := c.column }
    return { s with places := (s.depth, place) :: s.places }
  else return s

/-- The indents that are left when block collections beyond a column are closed, and how many are. -/
def closeTo (column : Int) : (indent : Int) → (outer : List Int) → Int × List Int × Nat
  | indent, [] => (indent, [], 0)
  | indent, next :: outer =>
    if indent > column then
      let (indent, outer, n) := closeTo column next outer
      (indent, outer, n + 1)
    else (indent, next :: outer, 0)

/-- The scan with the block collections closed that are set in beyond a column. -/
def unwind (s : Scan) (column : Int) : Scan :=
  if s.inFlow then s
  else
    let (indent, outer, n) := closeTo column s.indent s.outer
    { s with indent, outer, tokens := s.tokens ++ (List.replicate n Token.blockEnd).toArray }

/-- The scan with a block collection opened before the token `before`, if it is set in further. -/
def openBlock (s : Scan) (column : Nat) (before : Nat) (t : Token) : Scan :=
  if s.indent < column then
    { s with indent := column, outer := s.indent :: s.outer, tokens := s.tokens.insertIdxIfInBounds before t }
  else s

/-- A mark that no key may stand before on its line. -/
def breakOff (s : Scan) : Except Fault Scan := do
  let s ← (s.unwind (-1)).dropPlace
  return { s with keyAllowed := false }

/-- An entry of a block sequence. -/
def blockEntry (s : Scan) : Except Fault Scan := do
  if !s.inFlow && !s.keyAllowed then .error .malformed
  else
    let s :=
      if s.inFlow then s else s.openBlock s.cursor.column s.tokens.size .blockSequenceStart
    let s ← { s with keyAllowed := true }.dropPlace
    return s.pushPast 1 .blockEntry

/-- A key with a sign of its own. -/
def explicitKey (s : Scan) : Except Fault Scan := do
  if !s.inFlow && !s.keyAllowed then .error .malformed
  else
    let s := if s.inFlow then s else s.openBlock s.cursor.column s.tokens.size .blockMappingStart
    let s ← { s with keyAllowed := !s.inFlow }.dropPlace
    return s.pushPast 1 .key

/-- The colon before a value. If a key started at this depth, its token is set in where it did. -/
def value (s : Scan) : Except Fault Scan := do
  match s.places.lookup s.depth with
  | some place =>
    let s := { s with
      places := s.places.filter (·.1 != s.depth)
      tokens := s.tokens.insertIdxIfInBounds place.token .key }
    let s := if s.inFlow then s else s.openBlock place.column place.token .blockMappingStart
    return { s with keyAllowed := false }.pushPast 1 .value
  | none =>
    if !s.inFlow && !s.keyAllowed then .error .malformed
    else
      let s := if s.inFlow then s else s.openBlock s.cursor.column s.tokens.size .blockMappingStart
      return { s with keyAllowed := !s.inFlow }.pushPast 1 .value

/-- The name of an alias or an anchor. -/
def readName (c : Cursor) : Except Fault (String × Cursor) :=
  let (name, c) := c.step.take isNameChar
  let ends := endsToken (c.peek 0) ||
    (c.peek 0).any fun ch => "?:,]\x7d%@".toList.contains ch || ch.toNat == 96
  if name.isEmpty || !ends then .error .malformed else .ok (String.ofList name, c)

/-- Whether a character may stand in a tag. -/
def isTagChar (ch : Char) : Bool := ch.isAlphanum || "-;/?:@&=+$,_.!~*'()[]".toList.contains ch

/-- Bytes written as a percent sign and two digits each. -/
def readBytes : List Char → Except Fault (List UInt8 × Nat)
  | '%' :: rest => do
    let n ← readCode 2 rest
    let (bytes, length) ← readBytes (rest.drop 2)
    return (UInt8.ofNat n :: bytes, length + 3)
  | _ => .ok ([], 0)
termination_by cs => cs.length

/-- The characters of a tag. -/
def readTagChars : (fuel : Nat) → Cursor → Except Fault (List Char × Cursor)
  | 0, c => .ok ([], c)
  | fuel + 1, c => do
    let (run, c) := c.take isTagChar
    if c.peek 0 = some '%' then
      let (bytes, length) ← readBytes c.rest
      match Text.decode bytes with
      | .error _ => .error .malformed
      | .ok s =>
        let (rest, c) ← readTagChars fuel (c.skip length)
        return (run ++ s.toList ++ rest, c)
    else return (run, c)

/-- The part of a tag after its handle; it has at least one character. -/
def readTagSuffix (c : Cursor) : Except Fault (String × Cursor) := do
  let written := (c.peek 0).any fun ch => isTagChar ch || ch == '%'
  if !written then .error .malformed
  else
    let (chars, c) ← readTagChars (c.rest.length + 1) c
    return (String.ofList chars, c)

/-- A handle: a name between exclamation marks, or one mark before a blank. -/
def readHandle (c : Cursor) : Except Fault (String × Cursor) :=
  if c.peek 0 ≠ some '!' then .error .malformed
  else if c.peek 1 = some ' ' then .ok ("!", c.step)
  else
    let (name, after) := c.step.take isNameChar
    if after.peek 0 = some '!' then .ok (String.ofList ('!' :: name ++ ['!']), after.step)
    else .error .malformed

/-- A tag. -/
def readTag (c : Cursor) : Except Fault (Tag × Cursor) := do
  let (tag, c) ←
    match c.peek 1 with
    | some '<' => do
      let (suffix, c) ← readTagSuffix (c.skip 2)
      if c.peek 0 = some '>' then Except.ok ((⟨none, suffix⟩ : Tag), c.step) else .error .malformed
    | next => do
      if endsToken next then Except.ok ((⟨none, "!"⟩ : Tag), c.step)
      else
        let word := c.step.rest.takeWhile fun ch => !(ch == ' ' || isBreak ch)
        let (handle, c) ← if word.contains '!' then readHandle c else Except.ok ("!", c.step)
        let (suffix, c) ← readTagSuffix c
        Except.ok ((⟨some handle, suffix⟩ : Tag), c)
  if endsWord (c.peek 0) then return (tag, c) else .error .malformed

/-- The number of a version. -/
def readVersionPart (c : Cursor) : Except Fault (Nat × Cursor) :=
  let (digits, c) := c.take Char.isDigit
  if digits.isEmpty then .error .malformed
  else if Decimal.digitLimit < digits.length then
    .error (.impossible (Decimal.tooLongToRead digits.length))
  else .ok (Text.digitsValue 10 (digits.filterMap Text.digitValue), c)

/-- What follows the name of a directive. -/
def readDirectiveBody (name : String) (c : Cursor) : Except Fault (Token × Cursor) := do
  match name with
  | "YAML" =>
    let (major, c) ← readVersionPart (c.drop (· == ' '))
    if c.peek 0 ≠ some '.' then .error .malformed
    else
      let (_, c) ← readVersionPart c.step
      if endsWord (c.peek 0) then return (.version major, c) else .error .malformed
  | "TAG" =>
    let (handle, c) ← readHandle (c.drop (· == ' '))
    if c.peek 0 ≠ some ' ' then .error .malformed
    else
      let (stem, c) ← readTagSuffix (c.drop (· == ' '))
      if endsWord (c.peek 0) then return (.handle handle stem, c) else .error .malformed
  | _ => return (.directive, c.drop fun ch => !isBreak ch)

/-- A directive with the rest of its line. -/
def readDirective (c : Cursor) : Except Fault (Token × Cursor) := do
  let (name, c) := c.step.take isNameChar
  if name.isEmpty || !endsWord (c.peek 0) then .error .malformed
  else
    let (token, c) ← readDirectiveBody (String.ofList name) c
    let c := c.skipComment
    if endsLine (c.peek 0) then return (token, c.lineEnd.2) else .error .malformed

/-- An opening bracket. -/
def openFlow (s : Scan) (t : Token) : Except Fault Scan := do
  let s ← s.markPlace
  return { s with depth := s.depth + 1, keyAllowed := true }.pushPast 1 t

/-- A closing bracket. -/
def closeFlow (s : Scan) (t : Token) : Except Fault Scan := do
  let s ← s.dropPlace
  if s.depth = 0 then .error .malformed
  else return { s with depth := s.depth - 1, keyAllowed := false }.pushPast 1 t

/-- A token that may stand at the start of a key. -/
def keyPart (s : Scan) (read : Cursor → Except Fault (Token × Cursor)) : Except Fault Scan := do
  let s ← s.markPlace
  let (token, c) ← read s.cursor
  return { s with keyAllowed := false, cursor := c }.push token

/-- A block text. -/
def blockText (s : Scan) (folded : Bool) : Except Fault Scan := do
  let s ← { s with keyAllowed := true }.dropPlace
  let (text, c) ← readBlock folded s.indent s.cursor
  return { s with cursor := c }.push (.scalar text false)

/-- A plain text. -/
def plainText (s : Scan) : Except Fault Scan := do
  let s ← s.markPlace
  let (text, c, ended) := readPlain s.inFlow s.indent s.cursor
  return { s with keyAllowed := ended, cursor := c }.push (.scalar text true)

/-- The next token, whose first character is given. -/
def token (s : Scan) (ch : Char) : Except Fault Scan := do
  let c := s.cursor
  let free := endsToken (c.peek 1)
  if ch = '%' && c.column = 0 then
    let s ← s.breakOff
    let (t, c) ← readDirective s.cursor
    return { s with cursor := c }.push t
  else if c.column = 0 && c.marks '-' then return (← s.breakOff).pushPast 3 .documentStart
  else if c.column = 0 && c.marks '.' then return (← s.breakOff).pushPast 3 .documentEnd
  else if ch = '[' then s.openFlow .flowSequenceStart
  else if ch = '\x7b' then s.openFlow .flowMappingStart
  else if ch = ']' then s.closeFlow .flowSequenceEnd
  else if ch = '\x7d' then s.closeFlow .flowMappingEnd
  else if ch = ',' then return (← { s with keyAllowed := true }.dropPlace).pushPast 1 .flowEntry
  else if ch = '-' && free then s.blockEntry
  else if ch = '?' && (s.inFlow || free) then s.explicitKey
  else if ch = ':' && (s.inFlow || free) then s.value
  else if ch = '*' then s.keyPart fun c => do let (name, c) ← readName c; return (.alias name, c)
  else if ch = '&' then s.keyPart fun c => do let (name, c) ← readName c; return (.anchor name, c)
  else if ch = '!' then s.keyPart fun c => do let (t, c) ← readTag c; return (.tag t, c)
  else if ch = '|' && !s.inFlow then s.blockText false
  else if ch = '>' && !s.inFlow then s.blockText true
  else if ch = '\'' then
    s.keyPart fun c => do let (text, c) ← readQuoted false c; return (.scalar text false, c)
  else if ch = '"' then
    s.keyPart fun c => do let (text, c) ← readQuoted true c; return (.scalar text false, c)
  else if startsPlain s.inFlow c then s.plainText
  else .error .malformed

/-- Scans to the end of the text. Answers the tokens, and the fault that stopped the scan if one did. -/
def run : (fuel : Nat) → Scan → List Token × Option Fault
  | 0, s => (s.tokens.toList, some .malformed)
  | fuel + 1, s =>
    match (s.toNextToken (s.cursor.rest.length + 1)).dropStale with
    | .error f => (s.tokens.toList, some f)
    | .ok next =>
      let next := next.unwind next.cursor.column
      match next.cursor.rest with
      | [] =>
        match (next.unwind (-1)).dropPlace with
        | .ok s => (s.tokens.toList, none)
        | .error f => (next.tokens.toList, some f)
      | ch :: _ =>
        match next.token ch with
        | .ok s => run fuel s
        | .error f => (next.tokens.toList, some f)

end Scan

/-- The tokens of a text, up to the fault that stopped the scan if one did. A byte order mark at the
start says nothing. -/
def scan (text : String) : List Token × Option Fault :=
  let chars := text.toList
  if chars.any fun ch => !isAllowed ch then ([], some .malformed)
  else
    let start : Cursor := { rest := chars }
    let start := if (start.peek 0).any (·.toNat == 0xFEFF) then start.step else start
    Scan.run (chars.length + 2) { cursor := start }

end Stencil.Yaml
