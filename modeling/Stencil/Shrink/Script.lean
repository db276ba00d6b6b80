import Stencil.Text.Blank
import Stencil.Text.Find

/-!
# Shrinking scripts

A script is shrunk by dropping comments and needless white space; nothing else of it changes. White
space is needed between two names, between two signs that would run together, and as a line end
where a statement may end. Strings and regular expressions are kept as they are, which takes knowing
a regular expression from a division: it stands after certain signs, after `return`, or between a
closing parenthesis and the call of a method.

The scanner goes from left to right. What it does at a place depends on the characters before it, as
they stand in the text, and on those after it.
-/

namespace Stencil.Script

/-- Whether a character is white space that ends no line. -/
def isSpace (c : Char) : Bool := c.toNat ≤ 0x20 && c != '\n' && c != '\r'

/-- Whether a character ends a line. -/
def isLineEnd (c : Char) : Bool := c == '\n' || c == '\r'

/-- Whether a character is part of a name. -/
def isNameChar (c : Char) : Bool := c.isAlphanum || c == '_' || c == '$' || 127 ≤ c.toNat

/-- Whether a character may start a statement on a line of its own. -/
def opensStatement (c : Char) : Bool := isNameChar c || "\x7b[(!+-".toList.contains c

/-- Whether a character may end a statement on a line of its own. -/
def closesStatement (c : Char) : Bool := isNameChar c || "\x7d])\"'`+-".toList.contains c

/-- Whether a regular expression may stand after a character. -/
def precedesPattern (c : Char) : Bool := "(,=:[!&|?\x7b\x7d;\r\n+*-".toList.contains c

/-- Whether a line end after a regular expression is needed before a character. -/
def needsBreak (c : Char) : Bool := 0x20 < c.toNat && !"\x7d])?:|,;.&=+-".toList.contains c

/-- Whether a character stands for itself wherever it is. -/
def isPlain (c : Char) : Bool := 0x20 < c.toNat && !"'\"`/".toList.contains c

/-- The rest after the end of a comment. -/
def closeComment? (cs : List Char) : Option (List Char) :=
  (Text.splitFirst? ['*', '/'] cs).map (·.2)

/-- One item of white space: whether it ends a line, and the rest. Comments count as white space, and
a comment that goes to the end of its line ends it. -/
def blankItem? : List Char → Option (Bool × List Char)
  | '/' :: '*' :: rest => (closeComment? rest).map fun after => (false, after)
  | '/' :: '/' :: rest =>
    match rest.dropWhile fun c => !isLineEnd c with
    | _ :: after => some (true, after)
    | [] => none
  | c :: rest => if isSpace c then some (false, rest) else if isLineEnd c then some (true, rest) else none
  | [] => none

/-- White space as far as it goes: whether it ends a line, and the rest. -/
def gap : (fuel : Nat) → List Char → Bool × List Char
  | 0, cs => (false, cs)
  | fuel + 1, cs =>
    match blankItem? cs with
    | some (lineEnd, rest) => let (more, after) := gap fuel rest; (lineEnd || more, after)
    | none => (false, cs)

/-- White space as far as it ends no line. -/
def spaces : (fuel : Nat) → List Char → List Char
  | 0, cs => cs
  | fuel + 1, cs =>
    match blankItem? cs with
    | some (false, rest) => spaces fuel rest
    | _ => cs

/-- The rest after the longest stretch of white space that holds a line end and has a character after
it that needs one. -/
def lineBreak? : (fuel : Nat) → (seen : Bool) → List Char → Option (List Char)
  | 0, _, _ => none
  | fuel + 1, seen, cs =>
    let longer :=
      match blankItem? cs with
      | some (lineEnd, rest) => lineBreak? fuel (seen || lineEnd) rest
      | none => none
    longer <|> if seen && (cs.head?.map needsBreak).getD false then some cs else none

/-- The rest of a string after its opening quote: what is left of the string and what follows it. A
line ends inside only after a backslash, unless the string may span lines. -/
def stringRest? (quote : Char) (spansLines : Bool) : List Char → Option (List Char × List Char)
  | [] => none
  | '\\' :: '\r' :: '\n' :: rest =>
    (stringRest? quote spansLines rest).map fun (s, after) => ('\\' :: '\r' :: '\n' :: s, after)
  | '\\' :: c :: rest => (stringRest? quote spansLines rest).map fun (s, after) => ('\\' :: c :: s, after)
  | c :: rest =>
    if c = quote then some ([c], rest)
    else if c = '\\' || (!spansLines && isLineEnd c) then none
    else (stringRest? quote spansLines rest).map fun (s, after) => (c :: s, after)

/-- A string at the start of a text, and the rest. -/
def string? : List Char → Option (List Char × List Char)
  | c :: rest =>
    if c = '\'' || c = '"' || c = '`' then
      (stringRest? c (c == '`') rest).map fun (s, after) => (c :: s, after)
    else none
  | [] => none

/-- The rest of a regular expression after its opening slash, up to the closing one. A slash in
brackets, like an escaped one, does not close it. -/
def patternRest? (bracketed : Bool) : List Char → Option (List Char × List Char)
  | [] => none
  | '\\' :: c :: rest =>
    if isLineEnd c then none
    else (patternRest? bracketed rest).map fun (s, after) => ('\\' :: c :: s, after)
  | c :: rest =>
    if isLineEnd c || c = '\\' then none
    else if bracketed then (patternRest? (c != ']') rest).map fun (s, after) => (c :: s, after)
    else if c = '/' then some (['/'], rest)
    else (patternRest? (c == '[') rest).map fun (s, after) => (c :: s, after)

/-- A regular expression at the start of a text with its flags, and the rest. -/
def pattern? : List Char → Option (List Char × List Char)
  | '/' :: c :: rest =>
    if isLineEnd c || c = '/' || c = '*' then none
    else
      (patternRest? false (c :: rest)).map fun (s, after) =>
        ('/' :: (s ++ after.takeWhile Char.isLower), after.dropWhile Char.isLower)
  | _ => none

/-- Whether a method is called on what stands before: a dot and a small letter follow, with white
space between or not. -/
def callsMethod (cs : List Char) : Bool :=
  match (gap cs.length cs).2 with
  | '.' :: rest => (((gap rest.length rest).2).head?.map Char.isLower).getD false
  | _ => false

/-- Whether the characters before, the last one first, end in the word `return`. -/
def afterReturn (before : List Char) : Bool :=
  match before with
  | 'n' :: 'r' :: 'u' :: 't' :: 'e' :: 'r' :: c :: _ => !isNameChar c
  | _ => false

/-- A regular expression with the white space before it dropped, and the line break after it if one
is needed there. -/
def keptPattern? (breakBefore : Bool) (cs : List Char) : Option (List Char × List Char) :=
  let (lineEnd, start) := gap cs.length cs
  (pattern? start).map fun (s, after) =>
    let s := if breakBefore && lineEnd then '\n' :: s else s
    match lineBreak? (after.length + 1) false after with
    | some rest => (s ++ ['\n'], rest)
    | none => (s, after)

/-- Characters that stand for themselves, from the start of a text. -/
def plain? (cs : List Char) : Option (List Char × List Char) :=
  match cs.takeWhile isPlain with
  | [] => none
  | run => some (run, cs.dropWhile isPlain)

/-- A string and the characters after it that stand for themselves. -/
def keptString? (cs : List Char) : Option (List Char × List Char) :=
  (string? cs).map fun (s, after) => (s ++ after.takeWhile isPlain, after.dropWhile isPlain)

/-- White space at the start of a text, and what is kept of it after the character `last`. -/
def keptGap? (last : Option Char) (cs : List Char) : Option (List Char × List Char) :=
  let (lineEnd, after) := gap cs.length cs
  let narrow := spaces cs.length cs
  let both (p q : Char → Bool) (rest : List Char) : Bool :=
    (last.map p).getD false && (rest.head?.map q).getD false
  if lineEnd && both closesStatement opensStatement after then some (['\n'], after)
  else if narrow.length < cs.length then
    if both isNameChar isNameChar narrow || both (· == '+') (· == '+') narrow ||
        both (· == '-') (· == '-') narrow then some ([' '], narrow)
    else some ([], narrow)
  else if lineEnd then some ([], after)
  else none

/-- What stands at the start of a text after the characters `before`, the last one first: what is kept
of it, and the rest. -/
def step? (before cs : List Char) : Option (List Char × List Char) :=
  let last := before.head?
  let methodPattern? :=
    if last = some ')' then
      match pattern? (gap cs.length cs).2 with
      | some (s, after) => if callsMethod after then some (s, after) else none
      | none => none
    else none
  let signPattern? := if (last.map precedesPattern).getD false then keptPattern? false cs else none
  let returnPattern? := if afterReturn before then keptPattern? true cs else none
  plain? cs <|> keptString? cs <|> methodPattern? <|> signPattern? <|> returnPattern? <|> keptGap? last cs

/-- The shrunk rest of a text. -/
def shrinkFrom : (fuel : Nat) → (before cs : List Char) → List Char
  | 0, _, cs => cs
  | _, _, [] => []
  | fuel + 1, before, c :: rest =>
    let (kept, after) := (step? before (c :: rest)).getD ([c], rest)
    let taken := (c :: rest).take ((c :: rest).length - after.length)
    kept ++ shrinkFrom fuel (taken.reverse ++ before) after

/-- The script without needless white space and comments. -/
def shrink (text : String) : String :=
  let cs := '\n' :: (text.toList ++ ['\n'])
  String.ofList (Text.trimBoth (fun c => c.toNat ≤ 0x20) (shrinkFrom cs.length [] cs))

end Stencil.Script
