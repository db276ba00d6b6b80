import Stencil.Text.Digit
import Stencil.Text.Find

/-!
# Shrinking stylesheets

A stylesheet is shrunk by dropping comments, needless white space and needless semicolons. Strings,
addresses and escapes are kept, but an escaped line end inside them goes, and with it the white space
of an address. One kind of comment is kept in a short form: a comment that ends in an escaped star
hides what follows from some old browsers, and the next comment ends that; both leave a mark.

A blank before a colon separates two selectors outside the rules and is kept there, so the scanner
counts how many rules are open, and how many groups were announced whose brace opens no rule.
-/

namespace Stencil.Stylesheet

/-- Whether a character is white space. -/
def isSpace (c : Char) : Bool := c == ' ' || c == '\t' || c == '\n' || c == '\r' || c == '\x0c'

/-- Whether a character ends a line. -/
def isLineEnd (c : Char) : Bool := c == '\n' || c == '\r' || c == '\x0c'

/-- Whether a character is part of a name. -/
def isNameChar (c : Char) : Bool := c.isAlphanum || c == '-' || c == '_' || 128 ≤ c.toNat

/-- Whether a character never stands by itself for anything but itself. -/
def isPlain (c : Char) : Bool := !isSpace c && !"\\\"&'u>@/;:\x7b\x7d+".toList.contains c

/-- Whether a character goes on with what an escape has started. -/
def followsEscape (c : Char) : Bool := isPlain c || c == '&'

/-- What the scanner remembers: whether a hiding comment is open, how many rules are open, and how
many groups were announced whose brace is still to come. -/
structure State where
  hidden : Bool := false
  rules : Nat := 0
  groups : Nat := 0

namespace State

/-- Whether the text here belongs to no rule and no group. -/
def atTop (s : State) : Bool := s.rules == 0 && s.groups == 0

end State

/-- A comment at the start of a text, and the rest. -/
def comment? : List Char → Option (List Char × List Char)
  | '/' :: '*' :: rest =>
    (Text.splitFirst? ['*', '/'] rest).map fun (body, after) =>
      ('/' :: '*' :: (body ++ ['*', '/']), after)
  | _ => none

/-- One item of white space. -/
inductive Item where
  | space
  | comment (text : List Char)

/-- An item of white space at the start of a text, and the rest. -/
def item? : List Char → Option (Item × List Char)
  | [] => none
  | c :: rest =>
    if isSpace c then some (.space, rest)
    else (comment? (c :: rest)).map fun (text, after) => (.comment text, after)

/-- White space as far as it goes, and the rest. -/
def gap : (fuel : Nat) → List Char → List Item × List Char
  | 0, cs => ([], cs)
  | fuel + 1, cs =>
    match item? cs with
    | some (item, rest) => let (items, after) := gap fuel rest; (item :: items, after)
    | none => ([], cs)

/-- White space and semicolons as far as they go, and the rest. -/
def wideGap : (fuel : Nat) → List Char → List Item × List Char
  | 0, cs => ([], cs)
  | fuel + 1, cs =>
    match cs with
    | ';' :: rest => let (items, after) := wideGap fuel rest; (.space :: items, after)
    | cs =>
      match item? cs with
      | some (item, rest) => let (items, after) := wideGap fuel rest; (item :: items, after)
      | none => ([], cs)

/-- Whether a comment hides what follows it. -/
def isHiding (text : List Char) : Bool := (Text.dropPrefix? ['/', '*', '\\'] text.reverse).isSome

/-- What a run of comments leaves, the last of which is given. -/
def leave (s : State) (last : List Char) : State × List Char :=
  if isHiding last then
    if s.hidden then (s, []) else ({ s with hidden := true }, "/*\\*/".toList)
  else if s.hidden then ({ s with hidden := false }, "/**/".toList)
  else (s, [])

/-- What white space leaves: comments in a row count as their last one. -/
def squeeze (s : State) : List Item → State × List Char
  | [] => (s, [])
  | .space :: rest => squeeze s rest
  | .comment _ :: .comment text :: rest => squeeze s (.comment text :: rest)
  | .comment text :: rest =>
    let (s, mark) := leave s text
    let (s, more) := squeeze s rest
    (s, mark ++ more)
termination_by items => items.length

/-- A line end, and the rest. -/
def lineEnd? : List Char → Option (List Char × List Char)
  | '\r' :: '\n' :: rest => some (['\r', '\n'], rest)
  | c :: rest => if isLineEnd c then some ([c], rest) else none
  | [] => none

/-- An escaped line end at the start of a text: the rest. -/
def escapedLineEnd? : List Char → Option (List Char)
  | '\\' :: rest => (lineEnd? rest).map (·.2)
  | _ => none

/-- At most so many hexadecimal digits, and the rest. -/
def hexRun : (most : Nat) → List Char → List Char × List Char
  | 0, cs => ([], cs)
  | _, [] => ([], [])
  | most + 1, c :: rest =>
    if (Text.baseDigit 16 c).isSome then
      let (ds, after) := hexRun most rest
      (c :: ds, after)
    else ([], c :: rest)

/-- An escape at the start of a text: up to six digits with one white space after them, or any other
character that ends no line. -/
def escape? : List Char → Option (List Char × List Char)
  | '\\' :: c :: rest =>
    if (Text.baseDigit 16 c).isSome then
      let (ds, after) := hexRun 6 (c :: rest)
      match lineEnd? after with
      | some (stop, after) => some ('\\' :: (ds ++ stop), after)
      | none =>
        match after with
        | b :: after' => if isSpace b then some ('\\' :: (ds ++ [b]), after') else some ('\\' :: ds, after)
        | [] => some ('\\' :: ds, [])
    else if isLineEnd c then none
    else some (['\\', c], rest)
  | _ => none

/-- How line ends may stand in a string. -/
inductive Lines where
  /-- Not at all. -/
  | none
  /-- After a backslash. -/
  | escaped
  /-- Anywhere. -/
  | free
  deriving DecidableEq

/-- The rest of a string after its opening quote: what is left of it, and what follows. -/
def stringRest? (quote : Char) (lines : Lines) : List Char → Option (List Char × List Char)
  | [] => Option.none
  | '\\' :: '\r' :: '\n' :: rest =>
    if lines = .none then Option.none
    else (stringRest? quote lines rest).map fun (s, after) => ('\\' :: '\r' :: '\n' :: s, after)
  | '\\' :: c :: rest =>
    if lines = .none && isLineEnd c then Option.none
    else (stringRest? quote lines rest).map fun (s, after) => ('\\' :: c :: s, after)
  | c :: rest =>
    if c = quote then some ([c], rest)
    else if c = '\\' || (lines != .free && isLineEnd c) then Option.none
    else (stringRest? quote lines rest).map fun (s, after) => (c :: s, after)

/-- A string at the start of a text, and the rest. -/
def string? (lines : Lines) : List Char → Option (List Char × List Char)
  | c :: rest =>
    if c = '\'' || c = '"' then (stringRest? c lines rest).map fun (s, after) => (c :: s, after)
    else none
  | [] => none

/-- The text with every escaped line end dropped. -/
def joinLines : (fuel : Nat) → List Char → List Char
  | 0, cs => cs
  | fuel + 1, cs =>
    match escapedLineEnd? cs, cs with
    | some after, _ => joinLines fuel after
    | none, c :: rest => c :: joinLines fuel rest
    | none, [] => []

/-- The text with white space and escaped line ends dropped, escapes kept. -/
def dropSpace : (fuel : Nat) → List Char → List Char
  | 0, cs => cs
  | fuel + 1, cs =>
    match escape? cs with
    | some (e, after) => e ++ dropSpace fuel after
    | none =>
      match escapedLineEnd? cs, cs with
      | some after, _ => dropSpace fuel after
      | none, c :: rest => if isSpace c then dropSpace fuel rest else c :: dropSpace fuel rest
      | none, [] => []

/-- Whether a character stands for itself in an address without quotes. -/
def isAddressChar (c : Char) : Bool :=
  0x20 < c.toNat && c.toNat != 0x7F && !"\"'()\\".toList.contains c

/-- Where a scan of an address without quotes is: at its first part, just after an escaped line end
that ends that part, after white space, or in a later part. -/
inductive Spot where
  | first
  | joint
  | blank
  | later

/-- The rest of an address without quotes and what follows its closing parenthesis. White space in it
must have something on either side. -/
def addressRest? : (fuel : Nat) → Spot → List Char → Option (List Char × List Char)
  | 0, _, _ => none
  | fuel + 1, spot, cs =>
    match escape? cs with
    | some (e, after) =>
      let next := match spot with | .first => Spot.first | _ => Spot.later
      (addressRest? fuel next after).map fun (s, after) => (e ++ s, after)
    | none =>
      match escapedLineEnd? cs with
      | some after =>
        let taken := cs.take (cs.length - after.length)
        let next := match spot with | .first => Spot.joint | _ => Spot.later
        (addressRest? fuel next after).map fun (s, after) => (taken ++ s, after)
      | none =>
        match cs with
        | [] => none
        | c :: rest =>
          if isSpace c then
            match spot with
            | .joint => none
            | _ => (addressRest? fuel .blank rest).map fun (s, after) => (c :: s, after)
          else if c = ')' then
            match spot with
            | .joint => none
            | _ => some ([], rest)
          else if isAddressChar c then
            let next := match spot with | .first => Spot.first | _ => Spot.later
            (addressRest? fuel next rest).map fun (s, after) => (c :: s, after)
          else none

/-- Whether an address in quotes holds its data as they are, so that its white space counts: it starts
with `data:`, and what stands before the comma does not end in `;base64`. -/
def holdsPlainData : List Char → Bool
  | _ :: rest =>
    let lower := rest.map Char.toLower
    match Text.dropPrefix? "data:".toList lower with
    | none => false
    | some tail =>
      let kind := tail.takeWhile fun c => 0x20 < c.toNat && !"\\\"',".toList.contains c
      (tail.drop kind.length).head? == some ',' &&
        (Text.dropPrefix? ";base64".toList.reverse kind.reverse).isNone
  | [] => false

/-- An address at the start of a text, without its needless white space, and the rest. -/
def address? (cs : List Char) : Option (List Char × List Char) := do
  let start ← Text.dropPrefix? "url(".toList cs
  let body := start.dropWhile isSpace
  let wrap (a : List Char) : List Char := "url(".toList ++ a ++ [')']
  match string? .free body with
  | some (s, after) =>
    match after.dropWhile isSpace with
    | ')' :: rest => return (wrap (if holdsPlainData s then s else dropSpace s.length s), rest)
    | _ => none
  | none =>
    let spot := if body.length < start.length then Spot.later else Spot.first
    let (a, rest) ← addressRest? (body.length + 1) spot body
    return (wrap (dropSpace a.length a), rest)

/-- The rest after a word in any case, and the word as it stands. -/
def word? (word : String) (cs : List Char) : Option (List Char × List Char) :=
  let here := cs.take word.length
  if here.map Char.toLower = word.toList then some (here, cs.drop word.length) else none

/-- The words that announce a group whose brace opens no rule. -/
def groupWords : List String :=
  ["@media", "@supports", "@document", "@keyframes", "@-webkit-keyframes", "@-moz-keyframes",
   "@-o-keyframes", "@-ms-keyframes"]

/-- The announcement of a group at the start of a text, and the rest. -/
def group? (cs : List Char) : Option (List Char × List Char) :=
  groupWords.findSome? fun word =>
    match word? word cs with
    | some (here, rest) => if (rest.head?.map isNameChar).getD false then none else some (here, rest)
    | none => none

/-- The names of the first line and the first letter at the start of a text, and the rest. -/
def firstWord? (cs : List Char) : Option (List Char × List Char) :=
  word? ":first-line" cs <|> word? ":first-letter" cs

/-- Line ends and tabs in a row as one blank. -/
def blankRuns : (inRun : Bool) → List Char → List Char
  | _, [] => []
  | inRun, c :: rest =>
    if isSpace c && c != ' ' then (if inRun then [] else [' ']) ++ blankRuns true rest
    else c :: blankRuns false rest

/-- What one step answers: the state after it, what is kept, and the rest. -/
abbrev Kept := State × List Char × List Char

/-- White space at the start of a text after the character `last`. -/
def spaceStep? (s : State) (last : Option Char) (cs : List Char) : Option Kept :=
  match gap cs.length cs with
  | ([], _) => none
  | (items, after) =>
    let (s', kept) := squeeze s items
    let bare := last.isNone || (last.map "\x7b\x7d(=:>[,!".toList.contains).getD false
    if bare then some (s', kept, after)
    else if last = some '&' then none
    else
      let blank :=
        match after.head? with
        | none => false
        | some c => if ":\x7b\x7d);=>],!".toList.contains c then c == ':' && s.atTop else true
      some (s', if blank then ' ' :: kept else kept, after)

/-- A semicolon and the white space and semicolons after it; before the brace that ends a rule none is
needed. -/
def semicolonStep? (s : State) : List Char → Option Kept
  | ';' :: rest =>
    let (items, after) := wideGap rest.length rest
    let (s', kept) := squeeze s items
    let needed := !(after.head? == some '\x7d' && s.rules != 0)
    some (s', if needed then ';' :: kept else kept, after)
  | _ => none

/-- A brace. -/
def braceStep? (s : State) : List Char → Option Kept
  | '\x7b' :: rest =>
    let s := if s.groups = 0 then { s with rules := s.rules + 1 } else { s with groups := s.groups - 1 }
    some (s, ['\x7b'], rest)
  | '\x7d' :: rest => some ({ s with rules := s.rules - 1 }, ['\x7d'], rest)
  | _ => none

/-- The sign for the selector around, with white space after it; a blank stays if the white space is
more than comments and something follows. -/
def parentStep? (s : State) : List Char → Option Kept
  | '&' :: rest =>
    match gap rest.length rest with
    | ([], _) => none
    | (items, after) =>
      let (s', kept) := squeeze s items
      let wide := items.any fun i => match i with | .space => true | .comment _ => false
      some (s', '&' :: (if wide && !after.isEmpty then ' ' :: kept else kept), after)
  | _ => none

/-- An empty comment after a greater-than sign, which means something outside the rules. -/
def childStep? (s : State) (cs : List Char) : Option Kept :=
  (Text.dropPrefix? ">/**/".toList cs).map fun rest =>
    let (items, after) := gap rest.length rest
    if s.atTop then
      let (s', kept) := squeeze { s with hidden := false } items
      (s', ">/**/".toList ++ kept, after)
    else
      let (s', kept) := squeeze s items
      (s', '>' :: kept, after)

/-- The name of the first line or letter before a brace or a comma, where a blank must follow it. -/
def firstStep? (s : State) (cs : List Char) : Option Kept :=
  match firstWord? cs with
  | none => none
  | some (word, rest) =>
    let (items, after) := gap rest.length rest
    match after with
    | c :: _ =>
      if c = '\x7b' || c = ',' then
        let (s', kept) := squeeze s items
        some (s', word ++ ' ' :: kept, after)
      else none
    | [] => none

/-- What stands at the start of a text after the character `last`. -/
def step? (s : State) (last : Option Char) (cs : List Char) : Option Kept :=
  let same : Option (List Char × List Char) → Option Kept := Option.map fun (kept, rest) => (s, kept, rest)
  let plain? :=
    match cs.takeWhile isPlain with
    | [] => none
    | run => some (run, cs.dropWhile isPlain)
  let addressHere? := if (last.map isNameChar).getD false then none else address? cs
  same plain? <|> spaceStep? s last cs <|> semicolonStep? s cs <|> braceStep? s cs <|>
    same (string? .none cs) <|> same addressHere? <|>
    ((group? cs).map fun (kept, rest) => ({ s with groups := s.groups + 1 }, kept, rest)) <|>
    parentStep? s cs <|> childStep? s cs <|> firstStep? s cs <|>
    same ((string? .escaped cs).map fun (t, rest) => (joinLines t.length t, rest)) <|>
    same ((escape? cs).map fun (e, rest) =>
      (blankRuns false (e ++ rest.takeWhile followsEscape), rest.dropWhile followsEscape))

/-- The shrunk rest of a text after the character `last`. -/
def shrinkFrom : (fuel : Nat) → State → (last : Option Char) → List Char → List Char
  | 0, _, _, cs => cs
  | _, _, _, [] => []
  | fuel + 1, s, last, c :: rest =>
    let (s', kept, after) := (step? s last (c :: rest)).getD (s, [c], rest)
    let taken := (c :: rest).take ((c :: rest).length - after.length)
    kept ++ shrinkFrom fuel s' taken.getLast? after

/-- The stylesheet without comments, needless white space and needless semicolons. -/
def shrink (text : String) : String :=
  String.ofList (shrinkFrom text.length {} none text.toList)

end Stencil.Stylesheet
