import Stencil.Decimal.Reading
import Stencil.Text.Quoted
import Stencil.Text.Utf8
import Stencil.Text.Word

/-!
# Tokens of the template language

A source is text with tags in it. `<%` opens a statement, `<%=` a value to print and `<%#` a comment;
`%>` closes each of them. A minus inside a marker takes away the white space outside of it, a plus
keeps what an option would take away. Between `<% raw %>` and `<% endraw %>` everything is text.

The tokens are made one after another, so a fault in a source shows only when all before it is read:
it is a token of its own, the last one.
-/

namespace Stencil.Language

/-- How white space around tags is treated. -/
structure Options where
  /-- A line end right after a statement or a comment is dropped. -/
  trimBlocks : Bool := false
  /-- White space from the start of a line to a statement or a comment is dropped. -/
  stripBlocks : Bool := false
  /-- A line end at the end of the source is kept. -/
  keepLastLineEnd : Bool := true
  deriving Repr, DecidableEq

/-- The signs of expressions. -/
inductive Sign where
  | add | sub | mul | div | floorDiv | mod | pow | tilde
  | openBracket | closeBracket | openParen | closeParen | openBrace | closeBrace
  | eq | ne | gt | ge | lt | le | assign | dot | colon | pipe | comma | semicolon
  deriving Repr, DecidableEq

namespace Sign

/-- How a sign is written. -/
def text : Sign → String
  | add => "+" | sub => "-" | mul => "*" | div => "/" | floorDiv => "//" | mod => "%"
  | pow => "**" | tilde => "~" | openBracket => "[" | closeBracket => "]" | openParen => "("
  | closeParen => ")" | openBrace => "\x7b" | closeBrace => "\x7d" | eq => "==" | ne => "!="
  | gt => ">" | ge => ">=" | lt => "<" | le => "<=" | assign => "=" | dot => "." | colon => ":"
  | pipe => "|" | comma => "," | semicolon => ";"

/-- The bracket that closes an opening one. -/
def closing? : Sign → Option Sign
  | openBracket => some closeBracket
  | openParen => some closeParen
  | openBrace => some closeBrace
  | _ => none

/-- Whether a sign is a closing bracket. -/
def isClosing : Sign → Bool
  | closeBracket | closeParen | closeBrace => true
  | _ => false

/-- The sign at the start of a text, the longest that fits, and the rest. -/
def scan? : List Char → Option (Sign × List Char)
  | '/' :: '/' :: r => some (floorDiv, r)
  | '*' :: '*' :: r => some (pow, r)
  | '=' :: '=' :: r => some (eq, r)
  | '!' :: '=' :: r => some (ne, r)
  | '>' :: '=' :: r => some (ge, r)
  | '<' :: '=' :: r => some (le, r)
  | '+' :: r => some (add, r)
  | '-' :: r => some (sub, r)
  | '*' :: r => some (mul, r)
  | '/' :: r => some (div, r)
  | '%' :: r => some (mod, r)
  | '~' :: r => some (tilde, r)
  | '[' :: r => some (openBracket, r)
  | ']' :: r => some (closeBracket, r)
  | '(' :: r => some (openParen, r)
  | ')' :: r => some (closeParen, r)
  | '\x7b' :: r => some (openBrace, r)
  | '\x7d' :: r => some (closeBrace, r)
  | '>' :: r => some (gt, r)
  | '<' :: r => some (lt, r)
  | '=' :: r => some (assign, r)
  | '.' :: r => some (dot, r)
  | ':' :: r => some (colon, r)
  | '|' :: r => some (pipe, r)
  | ',' :: r => some (comma, r)
  | ';' :: r => some (semicolon, r)
  | _ => none

end Sign

/-- What a token is. -/
inductive Lexeme where
  /-- Text outside of tags. -/
  | data (text : String)
  | blockBegin
  | blockEnd
  | printBegin
  | printEnd
  | name (text : String)
  | string (text : String)
  | int (value : Nat)
  | float (value : Float)
  | sign (s : Sign)
  | eof
  /-- The source cannot be read from here on. -/
  | fault (message : String)
  deriving Repr

/-- A token and the line on which it starts. -/
structure Token where
  line : Nat
  lexeme : Lexeme
  deriving Repr

namespace Lexeme

/-- The token in words: a name stands for itself, any other by its kind. -/
def describe : Lexeme → String
  | data _ => "template data / text"
  | blockBegin => "begin of statement block"
  | blockEnd => "end of statement block"
  | printBegin => "begin of print statement"
  | printEnd => "end of print statement"
  | name text => text
  | string _ => "string"
  | int _ => "integer"
  | float _ => "float"
  | sign s => s.text
  | eof => "end of template"
  | fault message => message

end Lexeme

/-! ### Parts of tags -/

/-- How many line ends a text holds. -/
def lineEnds (cs : List Char) : Nat := cs.count '\n'

/-- The text that a run of characters was taken from, as far as `rest`. -/
def taken (cs rest : List Char) : List Char := cs.take (cs.length - rest.length)

/-- A word of letters, and the rest after it. -/
def afterWord? (word : String) (cs : List Char) : Option (List Char) :=
  if word.toList.isPrefixOf cs then some (cs.drop word.length) else none

/-- The mark after `<%` that says how white space before the tag is treated, and the rest. -/
def leadMark : List Char → Option Char × List Char
  | '-' :: rest => (some '-', rest)
  | '+' :: rest => (some '+', rest)
  | rest => (none, rest)

/-- The rest after `%>`, with the line end after it if `trim` says so. -/
def afterEnd? (trim : Bool) : List Char → Option (List Char)
  | '%' :: '>' :: '\n' :: rest => some (if trim then rest else '\n' :: rest)
  | '%' :: '>' :: rest => some rest
  | _ => none

/-- The rest after the end of a statement or comment, with the white space that its mark takes away. -/
def afterBlockEnd? (o : Options) : List Char → Option (List Char)
  | '+' :: rest => afterEnd? false rest
  | '-' :: rest => (afterEnd? false rest).map (·.dropWhile Text.isBlank)
  | cs => afterEnd? o.trimBlocks cs

/-- The rest after the end of a printed value. -/
def afterPrintEnd? : List Char → Option (List Char)
  | '-' :: rest => (afterEnd? false rest).map (·.dropWhile Text.isBlank)
  | cs => afterEnd? false cs

/-- The tags that a source can hold. -/
inductive Tag where
  | raw
  | print
  | comment
  | block
  deriving DecidableEq

/-- The tag at the start of a text, its mark, and the rest inside of it. -/
def tag? (cs : List Char) : Option (Tag × Option Char × List Char) :=
  match cs with
  | '<' :: '%' :: rest =>
    let (mark, inner) := leadMark rest
    let raw? := do
      let after ← afterWord? "raw" (inner.dropWhile Text.isBlank)
      let after := after.dropWhile Text.isBlank
      match after with
      | '-' :: after => (afterEnd? false after).map (·.dropWhile Text.isBlank)
      | after => afterEnd? false after
    match raw?, rest with
    | some after, _ => some (.raw, mark, after)
    | none, '=' :: inner => let (mark, inner) := leadMark inner; some (.print, mark, inner)
    | none, '#' :: inner => let (mark, inner) := leadMark inner; some (.comment, mark, inner)
    | none, _ => some (.block, mark, inner)
  | _ => none

/-- The text before the first tag, the tag, its mark, and the rest inside of it. -/
def firstTag? : List Char → Option (List Char × Tag × Option Char × List Char)
  | [] => none
  | c :: rest =>
    match tag? (c :: rest) with
    | some found => some ([], found)
    | none => (firstTag? rest).map fun (text, found) => (c :: text, found)

/-- The end of a raw part at the start of a text: its mark and the rest after it. -/
def rawEnd? (o : Options) : List Char → Option (Option Char × List Char)
  | '<' :: '%' :: rest => do
    let (mark, inner) := leadMark rest
    let after ← afterWord? "endraw" (inner.dropWhile Text.isBlank)
    let after ← afterBlockEnd? o (after.dropWhile Text.isBlank)
    return (mark, after)
  | _ => none

/-- The text before the first end of a raw part, its mark, and the rest after it. -/
def firstRawEnd? (o : Options) : List Char → Option (List Char × Option Char × List Char)
  | [] => none
  | c :: rest =>
    match rawEnd? o (c :: rest) with
    | some found => some ([], found)
    | none => (firstRawEnd? o rest).map fun (text, found) => (c :: text, found)

/-- The rest after the first end of a comment. -/
def afterComment? (o : Options) : List Char → Option (List Char)
  | [] => none
  | c :: rest =>
    match afterBlockEnd? o (c :: rest) with
    | some after => some after
    | none => afterComment? o rest

/-- The text before a tag as far as it is kept. A minus takes its white space away; without a plus an
option takes white space away that stands alone before the tag on its line. -/
def keptText (o : Options) (isPrint lineStarting : Bool) (mark : Option Char) (text : List Char) :
    List Char :=
  if mark = some '-' then Text.dropRight Text.isBlank text
  else if mark = none && o.stripBlocks && !isPrint then
    let tail := (text.reverse.takeWhile (· != '\n'))
    let wholeLine := tail.length < text.length || lineStarting
    if wholeLine && tail.all Text.isBlank then text.take (text.length - tail.length) else text
  else text

/-! ### Tokens inside of tags -/

/-- Digits that single low lines divide: the digits' values and the rest. -/
def digitGroups (digit : Char → Option Nat) (cs : List Char) : List Nat × List Char :=
  Decimal.digitRun digit cs

/-- A number with a fraction or an exponent, and the rest. -/
def float? (cs : List Char) : Option (Float × List Char) :=
  match digitGroups Text.digitValue cs with
  | ([], _) => none
  | (whole, rest) =>
    let (fraction, afterFraction) :=
      match rest with
      | '.' :: r =>
        match digitGroups Text.digitValue r with
        | ([], _) => ([], rest)
        | (ds, after) => (ds, after)
      | _ => ([], rest)
    let (e, after) := Decimal.exponentPart Text.digitValue afterFraction
    if fraction.isEmpty && after.length == rest.length then none
    else
      let value := Text.digitsValue 10 (whole ++ fraction)
      some (Decimal.ofDecimal false value (e - fraction.length), after)

/-- Digits of a base after its letter, a low line allowed before each. -/
def prefixed? (base : Nat) (cs : List Char) : Option (Nat × List Char) :=
  let cs := match cs with | '_' :: rest => rest | cs => cs
  match digitGroups (Text.baseDigit base) cs with
  | ([], _) => none
  | (ds, after) => some (Text.digitsValue base ds, after)

/-- A whole number, and the rest: digits that start with no zero, zeros, or a zero with the letter of
another base and digits of that. -/
def int? (cs : List Char) : Option (Nat × List Char) :=
  match cs with
  | '0' :: rest =>
    let inBase :=
      match rest with
      | 'b' :: r | 'B' :: r => prefixed? 2 r
      | 'o' :: r | 'O' :: r => prefixed? 8 r
      | 'x' :: r | 'X' :: r => prefixed? 16 r
      | _ => none
    match inBase with
    | some found => some found
    | none =>
      let (_, after) := digitGroups (fun c => if c = '0' then some 0 else none) cs
      some (0, after)
  | c :: _ =>
    if c.isDigit then
      let (ds, after) := digitGroups Text.digitValue cs
      some (Text.digitsValue 10 ds, after)
    else none
  | [] => none

/-- The rest of a string literal after its quote: its body as written, and what follows. -/
def literalBody? (quote : Char) : List Char → Option (List Char × List Char)
  | [] => none
  | '\\' :: c :: rest => (literalBody? quote rest).map fun (s, after) => ('\\' :: c :: s, after)
  | c :: rest =>
    if c = quote then some ([], rest)
    else if c = '\\' then none
    else (literalBody? quote rest).map fun (s, after) => (c :: s, after)

/-- A character written with ASCII characters only. -/
def asciiChar (c : Char) : List Char :=
  if c.toNat < 0x80 then [c]
  else if c.toNat < 0x100 then '\\' :: 'x' :: Text.hexDigits 2 c.toNat
  else if c.toNat < 0x10000 then '\\' :: 'u' :: Text.hexDigits 4 c.toNat
  else '\\' :: 'U' :: Text.hexDigits 8 c.toNat

/-- The value of exactly `count` hexadecimal digits, and the rest. -/
def hexValue? (count : Nat) (cs : List Char) : Option (Nat × List Char) :=
  let ds := (cs.take count).filterMap (Text.baseDigit 16)
  if ds.length = count then some (Text.digitsValue 16 ds, cs.drop count) else none

/-- The character of a letter after a backslash. -/
def escapeLetter? : Char → Option Char
  | '\\' => some '\\'
  | '\'' => some '\''
  | '"' => some '"'
  | 'a' => some '\x07'
  | 'b' => some '\x08'
  | 'f' => some '\x0c'
  | 'n' => some '\n'
  | 'r' => some '\r'
  | 't' => some '\t'
  | 'v' => some '\x0b'
  | _ => none

/-- The text of a literal's body with its escapes carried out. A backslash that starts no escape stands
for itself. -/
def unescape : (fuel : Nat) → List Char → Except String (List Char)
  | 0, _ => .ok []
  | _, [] => .ok []
  | fuel + 1, '\\' :: rest =>
    let hex (count : Nat) (letter : String) (digits : List Char) : Except String (List Char) :=
      match hexValue? count digits with
      | none => .error ("truncated \\" ++ letter ++ " escape")
      | some (n, after) =>
        if n > 0x10FFFF then .error "illegal Unicode character"
        else (unescape fuel after).map (Char.ofNat n :: ·)
    match rest with
    | [] => .error "\\ at end of string"
    | '\n' :: after => unescape fuel after
    | 'x' :: digits => hex 2 "xXX" digits
    | 'u' :: digits => hex 4 "uXXXX" digits
    | 'U' :: digits => hex 8 "UXXXXXXXX" digits
    | 'N' :: after =>
      match after with
      | '\x7b' :: named =>
        if named.contains '\x7d' then .error "unknown Unicode character name"
        else .error "malformed \\N character escape"
      | _ => .error "malformed \\N character escape"
    | c :: after =>
      match escapeLetter? c with
      | some e => (unescape fuel after).map (e :: ·)
      | none =>
        let octal := (rest.take 3).takeWhile fun d => (Text.baseDigit 8 d).isSome
        if octal.isEmpty then (unescape fuel (c :: after)).map ('\\' :: ·)
        else
          let n := Text.digitsValue 8 (octal.filterMap (Text.baseDigit 8))
          (unescape fuel (rest.drop octal.length)).map (Char.ofNat n :: ·)
  | fuel + 1, c :: rest => (unescape fuel rest).map (c :: ·)

/-- The lexeme of a string literal's body. -/
def stringLexeme (body : List Char) : Lexeme :=
  let ascii := body.flatMap asciiChar
  match unescape (ascii.length + 1) ascii with
  | .ok cs => .string (String.ofList cs)
  | .error message => .fault message

/-- A token inside of a tag and the rest; `afterDot` says whether a dot stands right before. -/
def inner? (afterDot : Bool) (cs : List Char) : Option (Lexeme × List Char) :=
  match if afterDot then none else float? cs with
  | some (x, rest) => some (.float x, rest)
  | none =>
    match int? cs with
    | some (n, rest) => some (.int n, rest)
    | none =>
      match cs.takeWhile Text.isWord with
      | c :: word =>
        let rest := cs.dropWhile Text.isWord
        if Text.isName (c :: word) then some (.name (String.ofList (c :: word)), rest)
        else some (.fault "Invalid character in identifier", rest)
      | [] =>
        let literal? :=
          match cs with
          | '\'' :: rest => literalBody? '\'' rest
          | '"' :: rest => literalBody? '"' rest
          | _ => none
        match literal? with
        | some (body, rest) => some (stringLexeme body, rest)
        | none => (Sign.scan? cs).map fun (s, rest) => (.sign s, rest)

/-! ### The source as a whole -/

/-- Where a scan is. -/
inductive Mode where
  | text
  | block
  | print
  | comment
  | raw
  deriving DecidableEq

/-- The state of a scan: where it is, the line, whether a line has just ended, the brackets that are
open, whether the last character was a dot, and the rest of the source. -/
structure Scan where
  mode : Mode
  line : Nat
  lineStarting : Bool
  brackets : List Sign
  afterDot : Bool
  rest : List Char

/-- A token for a text, unless it is empty. -/
def dataToken (line : Nat) (text : List Char) : List Token :=
  if text.isEmpty then [] else [⟨line, .data (String.ofList text)⟩]

/-- Whether a text ends in a line end. -/
def endsLine (cs : List Char) : Bool := cs.getLast? == some '\n'

/-- The state after the characters up to `rest` are taken, and nothing else changes. -/
def Scan.advance (s : Scan) (rest : List Char) : Scan :=
  let here := taken s.rest rest
  { s with line := s.line + lineEnds here, lineStarting := endsLine here,
           afterDot := here.getLast? == some '.', rest }

/-- One step of a scan: tokens and the state after them, or tokens after which nothing follows. -/
def Scan.step (o : Options) (total : Nat) (s : Scan) : List Token × Option Scan :=
  let stop (message : String) : List Token × Option Scan := ([⟨s.line, .fault message⟩], none)
  match s.mode with
  | .text =>
    match firstTag? s.rest with
    | none => (dataToken s.line s.rest, none)
    | some (text, tag, mark, inside) =>
      let kept := keptText o (tag = .print) s.lineStarting mark text
      let before := dataToken s.line kept
      let line := s.line + lineEnds text
      let next (mode : Mode) : Scan := { s.advance inside with mode }
      match tag with
      | .raw => (before, some (next .raw))
      | .comment => (before, some (next .comment))
      | .print => (before ++ [⟨line, .printBegin⟩], some (next .print))
      | .block => (before ++ [⟨line, .blockBegin⟩], some (next .block))
  | .raw =>
    match firstRawEnd? o s.rest with
    | none => if s.rest.isEmpty then ([], none) else stop "Missing end of raw directive"
    | some (text, mark, after) =>
      let kept := keptText o false s.lineStarting mark text
      (dataToken s.line kept, some { s.advance after with mode := .text })
  | .comment =>
    match afterComment? o s.rest with
    | none => if s.rest.isEmpty then ([], none) else stop "Missing end of comment tag"
    | some after => ([], some { s.advance after with mode := .text })
  | mode =>
    let ended :=
      if s.brackets.isEmpty then
        if mode = .print then afterPrintEnd? s.rest else afterBlockEnd? o s.rest
      else none
    match ended with
    | some after =>
      ([⟨s.line, if mode = .print then .printEnd else .blockEnd⟩],
        some { s.advance after with mode := .text })
    | none =>
      match s.rest with
      | [] => ([], none)
      | c :: _ =>
        if Text.isBlank c then ([], some (s.advance (s.rest.dropWhile Text.isBlank)))
        else
          match inner? s.afterDot s.rest with
          | none =>
            let place := total - s.rest.length
            let shown := Text.quoted (String.singleton c)
            stop s!"unexpected char {shown} at {place}"
          | some (.fault message, _) => stop message
          | some (.sign sign, rest) =>
            let next := s.advance rest
            let token : Token := ⟨s.line, .sign sign⟩
            match sign.closing? with
            | some close => ([token], some { next with brackets := close :: s.brackets })
            | none =>
              if sign.isClosing then
                match s.brackets with
                | [] => stop ("unexpected '" ++ sign.text ++ "'")
                | expected :: open_ =>
                  if expected = sign then ([token], some { next with brackets := open_ })
                  else stop ("unexpected '" ++ sign.text ++ "', expected '" ++ expected.text ++ "'")
              else ([token], some next)
          | some (lexeme, rest) => ([⟨s.line, lexeme⟩], some (s.advance rest))

/-- The tokens from a state on; each step takes at least one character or ends the scan. -/
def Scan.run (o : Options) (total : Nat) : (fuel : Nat) → Scan → List Token
  | 0, _ => []
  | fuel + 1, s =>
    match s.step o total with
    | (tokens, none) => tokens
    | (tokens, some next) => tokens ++ Scan.run o total fuel next

/-- The source with line ends made alike, and the last one dropped if the options say so. -/
def sourceChars (o : Options) (source : String) : List Char :=
  let cs := Text.unifyLineEnds source.toList
  if !o.keepLastLineEnd && endsLine cs then cs.dropLast else cs

/-- The tokens of a source. The end stands on the line of the last token. -/
def tokens (o : Options) (source : String) : List Token :=
  let cs := sourceChars o source
  let found := Scan.run o cs.length (cs.length + 2) ⟨.text, 1, true, [], false, cs⟩
  let last := found.getLast?
  match last with
  | some ⟨_, .fault _⟩ => found
  | _ => found ++ [⟨(last.map (·.line)).getD 1, .eof⟩]

end Stencil.Language
