import Stencil.Language.Syntax

/-!
# Parsing templates

The parser reads tokens from the left and never goes back. A fault in the source shows at the token
that cannot be read. The messages for tags that are unknown or not closed tell which tags are waited
for, so the parser keeps the open tags and, for each body being read, the tags that may end it.

Each function that calls another of its group hands down one unit of fuel less; the fuel at the start
is more than any chain of such calls can use.
-/

namespace Stencil.Language.Parse

/-- What the parser keeps: the token at hand, those after it, the open tags, and the tags that may end
each body, the innermost first. -/
structure State where
  current : Token
  after : List Token
  openTags : List String := []
  endTags : List (List String) := []

/-- A reading of some tokens. -/
abbrev Parser := StateT State (Except SyntaxFault)

/-- Rejects the source at a line. -/
def failAt {α : Type} (line : Nat) (message : String) : Parser α := throw ⟨line, message, false⟩

/-- The token at hand. -/
def current : Parser Token := return (← get).current

/-- What the token at hand is. -/
def lexeme : Parser Lexeme := return (← get).current.lexeme

/-- The line of the token at hand. -/
def line : Parser Nat := return (← get).current.line

/-- Rejects the source at the token at hand. -/
def fail {α : Type} (message : String) : Parser α := do failAt (← line) message

/-- Takes a token in hand, if the source can be read so far. -/
def arrive (t : Token) : Parser Unit :=
  match t.lexeme with
  | .fault message => failAt t.line message
  | _ => modify fun s => { s with current := t }

/-- Takes the next token in hand and answers the one before it. At the end it stays. -/
def advance : Parser Token := do
  let s ← get
  match s.after with
  | [] => return s.current
  | t :: after =>
    set { s with after }
    arrive t
    return s.current

/-- What the token after the one at hand is. -/
def look : Parser Lexeme := do
  let s ← get
  match s.after with
  | [] => return .eof
  | t :: _ =>
    match t.lexeme with
    | .fault message => failAt t.line message
    | l => return l

/-- Whether a token is a given sign. -/
def isSign (s : Sign) : Lexeme → Bool
  | .sign t => s == t
  | _ => false

/-- Whether a token is a given name. -/
def isName (n : String) : Lexeme → Bool
  | .name m => n == m
  | _ => false

/-- Whether the token at hand is a given sign. -/
def atSign (s : Sign) : Parser Bool := return isSign s (← lexeme)

/-- Whether the token at hand is a given name. -/
def atName (n : String) : Parser Bool := return isName n (← lexeme)

/-- Goes on after a token that passes a test, or says that it does not. -/
def skipIf (p : Lexeme → Bool) : Parser Bool := do
  if p (← lexeme) then
    let _ ← advance
    return true
  else return false

/-- Takes a token that passes a test; `expected` says in words what it should be. -/
def expect (expected : String) (p : Lexeme → Bool) : Parser Token := do
  let t ← current
  if p t.lexeme then advance
  else
    match t.lexeme with
    | .eof => failAt t.line ("unexpected end of template, expected " ++ Text.quoted expected ++ ".")
    | l =>
      failAt t.line ("expected token " ++ Text.quoted expected ++ ", got " ++
        Text.quoted l.describe)

/-- Takes a sign. -/
def expectSign (s : Sign) : Parser Unit := do
  let _ ← expect s.text (isSign s)

/-- Takes a given name. -/
def expectName (n : String) : Parser Unit := do
  let _ ← expect n (isName n)

/-- Takes any name. -/
def expectAnyName : Parser (Nat × String) := do
  let t ← expect "name" fun l => match l with | .name _ => true | _ => false
  match t.lexeme with
  | .name n => return (t.line, n)
  | _ => return (t.line, "")

/-- Whether the token at hand ends a statement. -/
def atBlockEnd : Parser Bool :=
  return match ← lexeme with | .blockEnd => true | _ => false

/-! ### Expressions -/

/-- The parsers that expressions are made of, with the fuel that is left to them. -/
structure Below where
  expression : (withChoice : Bool) → Parser Expr
  primary : (withSpace : Bool) → Parser Expr
  unary : (withFilter : Bool) → Parser Expr

/-- Whether the token at hand ends a list of expressions without brackets. -/
def atTupleEnd (endNames : List String) : Parser Bool := do
  match ← lexeme with
  | .printEnd | .blockEnd | .sign .closeParen => return true
  | .name n => return endNames.contains n
  | _ => return false

/-- Items with commas between, as far as they go, and whether a comma was read. -/
def tupleItems (item : Parser Expr) (endNames : List String) :
    (fuel : Nat) → (first : Bool) → Parser (List Expr × Bool)
  | 0, _ => return ([], false)
  | fuel + 1, first => do
    if !first then expectSign .comma
    if ← atTupleEnd endNames then return ([], false)
    let e ← item
    if ← atSign .comma then
      let (rest, _) ← tupleItems item endNames fuel false
      return (e :: rest, true)
    else return ([e], false)

/-- Many more items than any source has. -/
def plenty : Nat := 1000000000

/-- One expression, or several with commas between as a tuple. -/
def tupleOf (item : Parser Expr) (endNames : List String) (inParens : Bool) :
    Parser Expr := do
  let (items, isTuple) ← tupleItems item endNames plenty true
  match items, isTuple with
  | [e], false => return e
  | [], _ =>
    if inParens then return .tuple []
    else
      fail ("Expected an expression, got " ++ Text.quoted (← lexeme).describe)
  | items, _ => return .tuple items

/-- Strings that follow each other are one. -/
def moreStrings : (fuel : Nat) → Parser String
  | 0 => return ""
  | fuel + 1 => do
    match ← lexeme with
    | .string s =>
      let _ ← advance
      return s ++ (← moreStrings fuel)
    | _ => return ""

/-- Items up to a closing sign, with commas between and one allowed after the last. -/
def itemsUntil {α : Type} (close : Sign) (item : Parser α) : (fuel : Nat) → (first : Bool) →
    Parser (List α)
  | 0, _ => return []
  | fuel + 1, first => do
    if ← atSign close then return []
    if !first then
      expectSign .comma
    if ← atSign close then return []
    let e ← item
    return e :: (← itemsUntil close item fuel false)

/-- A name or a literal. With `withSpace`, a name, a dot and a name are a member of a namespace, which
is written as an item without a key. -/
def primaryStep (below : Below) (withSpace : Bool) : Parser Expr := do
  let t ← current
  match t.lexeme with
  | .name n =>
    let _ ← advance
    if n = "true" ∨ n = "True" then return .const (.bool true)
    else if n = "false" ∨ n = "False" then return .const (.bool false)
    else if n = "none" ∨ n = "None" then return .const .none
    else if withSpace && (← atSign .dot) then
      let _ ← advance
      let (_, member) ← expectAnyName
      return .item (.var n) (.const (.text member))
    else return .var n
  | .string _ => return .const (.text (← moreStrings plenty))
  | .int n =>
    let _ ← advance
    return .const (.int n)
  | .float x =>
    let _ ← advance
    return .const (.float x)
  | .sign .openParen =>
    let _ ← advance
    let e ← tupleOf (below.expression true) [] true
    expectSign .closeParen
    return e
  | .sign .openBracket =>
    let _ ← advance
    let items ← itemsUntil .closeBracket (below.expression true) plenty true
    expectSign .closeBracket
    return .list items
  | .sign .openBrace =>
    let _ ← advance
    let entry : Parser (Expr × Expr) := do
      let key ← below.expression true
      expectSign .colon
      return (key, ← below.expression true)
    let entries ← itemsUntil .closeBrace entry plenty true
    expectSign .closeBrace
    return .dict entries
  | l => failAt t.line ("unexpected " ++ Text.quoted l.describe)

/-- A key in brackets: an expression, or the bounds of a part with colons between. -/
def subscript (below : Below) : Parser Expr := do
  let bound : Parser (Option Expr) := do
    match ← lexeme with
    | .sign .closeBracket | .sign .comma | .sign .colon => return none
    | _ => return some (← below.expression true)
  let afterStart (start : Option Expr) : Parser Expr := do
    let stop ← bound
    if ← skipIf (isSign .colon) then
      match ← lexeme with
      | .sign .closeBracket | .sign .comma => return .slice start stop none
      | _ => return .slice start stop (some (← below.expression true))
    else return .slice start stop none
  if ← skipIf (isSign .colon) then afterStart none
  else
    let e ← below.expression true
    if ← skipIf (isSign .colon) then afterStart (some e) else return e

/-- Keys up to the closing bracket. -/
def subscripts (below : Below) : (fuel : Nat) → (first : Bool) → Parser (List Expr)
  | 0, _ => return []
  | fuel + 1, first => do
    if ← atSign .closeBracket then return []
    if !first then expectSign .comma
    let e ← subscript below
    return e :: (← subscripts below fuel false)

/-- The arguments of a call up to the closing parenthesis. Those by place come first, then those by
name; a sequence or a mapping to spread comes last. -/
def argumentsFrom (below : Below) (start : Nat) : (fuel : Nat) → (first : Bool) →
    Arguments Expr → Parser (Arguments Expr)
  | 0, _, args => return args
  | fuel + 1, first, args => do
    if ← atSign .closeParen then return args
    if !first then
      expectSign .comma
    if ← atSign .closeParen then return args
    let ensure (b : Bool) : Parser Unit :=
      if b then return () else failAt start "invalid syntax for function call expression"
    match ← lexeme with
    | .sign .mul =>
      ensure (args.spread.isNone && args.spreadNamed.isNone)
      let _ ← advance
      let e ← below.expression true
      argumentsFrom below start fuel false { args with spread := some e }
    | .sign .pow =>
      ensure args.spreadNamed.isNone
      let _ ← advance
      let e ← below.expression true
      argumentsFrom below start fuel false { args with spreadNamed := some e }
    | l =>
      let key? ← match l with
        | .name n => do if isSign .assign (← look) then pure (some n) else pure none
        | _ => pure none
      match key? with
      | some n =>
        ensure args.spreadNamed.isNone
        let _ ← advance
        let _ ← advance
        let e ← below.expression true
        argumentsFrom below start fuel false { args with named := args.named ++ [(n, e)] }
      | none =>
        ensure (args.spread.isNone && args.spreadNamed.isNone && args.named.isEmpty)
        let e ← below.expression true
        argumentsFrom below start fuel false { args with placed := args.placed ++ [e] }

/-- The arguments of a call with their parentheses. -/
def callArguments (below : Below) : Parser (Arguments Expr) := do
  let start ← line
  expectSign .openParen
  let args ← argumentsFrom below start plenty true {}
  expectSign .closeParen
  return args

/-- What follows a value directly: attributes, items and calls. -/
def postfixes (below : Below) : (fuel : Nat) → Expr → Parser Expr
  | 0, e => return e
  | fuel + 1, e => do
    match ← lexeme with
    | .sign .dot =>
      let _ ← advance
      let t ← advance
      match t.lexeme with
      | .name n => postfixes below fuel (.member e n)
      | .int n => postfixes below fuel (.item e (.const (.int n)))
      | _ => failAt t.line "expected name or number"
    | .sign .openBracket =>
      let _ ← advance
      let keys ← subscripts below plenty true
      expectSign .closeBracket
      match keys with
      | [key] => postfixes below fuel (.item e key)
      | keys => postfixes below fuel (.item e (.tuple keys))
    | .sign .openParen => postfixes below fuel (.call e (← callArguments below))
    | _ => return e

/-- A name with dots in it; the first part is read already. -/
def dottedName : (fuel : Nat) → String → Parser String
  | 0, n => return n
  | fuel + 1, n => do
    if ← skipIf (isSign .dot) then
      let (_, m) ← expectAnyName
      dottedName fuel (n ++ "." ++ m)
    else return n

/-- A filter after its bar, applied to a value or to the text around it. -/
def oneFilter (below : Below) (value : Option Expr) : Parser Expr := do
  let (at_, n) ← expectAnyName
  let n ← dottedName plenty n
  let args ← if ← atSign .openParen then callArguments below else pure {}
  return .filter at_ value n args

/-- Filters with bars before them. -/
def moreFilters (below : Below) : (fuel : Nat) → Option Expr → Parser (Option Expr)
  | 0, e => return e
  | fuel + 1, e => do
    if ← skipIf (isSign .pipe) then moreFilters below fuel (some (← oneFilter below e))
    else return e

/-- A test after its `is`. -/
def oneTest (below : Below) (value : Expr) : Parser Expr := do
  let at_ := (← advance).line
  let negated ← skipIf (isName "not")
  let (_, n) ← expectAnyName
  let n ← dottedName plenty n
  let startsArgument : Lexeme → Bool
    | .name n => n != "else" && n != "or" && n != "and"
    | .string _ | .int _ | .float _ | .sign .openBracket | .sign .openBrace => true
    | _ => false
  let l ← lexeme
  let args ←
    if isSign .openParen l then callArguments below
    else if startsArgument l then do
      if isName "is" l then fail "You cannot chain multiple tests with is"
      let e ← below.primary false
      pure { placed := [← postfixes below plenty e] }
    else pure {}
  let e := Expr.test at_ value n args
  return if negated then .negate e else e

/-- What follows a value after attributes, items and calls: filters, tests and calls. -/
def filterPostfixes (below : Below) : (fuel : Nat) → Expr → Parser Expr
  | 0, e => return e
  | fuel + 1, e => do
    match ← lexeme with
    | .sign .pipe =>
      let _ ← advance
      filterPostfixes below fuel (← oneFilter below (some e))
    | .name "is" => filterPostfixes below fuel (← oneTest below e)
    | .sign .openParen => filterPostfixes below fuel (.call e (← callArguments below))
    | _ => return e

/-- A signed value with what follows it. A sign binds closer than a filter. -/
def unaryStep (below : Below) (withFilter : Bool) : Parser Expr := do
  let e ←
    match ← lexeme with
    | .sign .sub => do
      let _ ← advance
      pure (.unary .neg (← below.unary false))
    | .sign .add => do
      let _ ← advance
      pure (.unary .pos (← below.unary false))
    | _ => below.primary false
  let e ← postfixes below plenty e
  if withFilter then filterPostfixes below plenty e else return e

/-- Operations of one rank, from left to right. -/
def leftAssociative (operator? : Lexeme → Option Binary) (operand : Parser Expr) :
    (fuel : Nat) → Expr → Parser Expr
  | 0, e => return e
  | fuel + 1, e => do
    match operator? (← lexeme) with
    | some op =>
      let _ ← advance
      leftAssociative operator? operand fuel (.binary op e (← operand))
    | none => return e

/-- Powers, from left to right. -/
def powers (below : Below) : Parser Expr := do
  leftAssociative (fun l => if isSign .pow l then some .pow else none) (below.unary true) plenty
    (← below.unary true)

/-- Products and quotients. -/
def products (below : Below) : Parser Expr := do
  let operator? : Lexeme → Option Binary
    | .sign .mul => some .mul
    | .sign .div => some .div
    | .sign .floorDiv => some .floorDiv
    | .sign .mod => some .mod
    | _ => none
  leftAssociative operator? (powers below) plenty (← powers below)

/-- More texts to join, each after a tilde. -/
def joined (below : Below) : (fuel : Nat) → Parser (List Expr)
  | 0 => return []
  | fuel + 1 => do
    if ← skipIf (isSign .tilde) then
      let e ← products below
      return e :: (← joined below fuel)
    else return []

/-- Joined texts. -/
def concats (below : Below) : Parser Expr := do
  let e ← products below
  match ← joined below plenty with
  | [] => return e
  | more => return .concat (e :: more)

/-- Sums and differences. -/
def sums (below : Below) : Parser Expr := do
  let operator? : Lexeme → Option Binary
    | .sign .add => some .add
    | .sign .sub => some .sub
    | _ => none
  leftAssociative operator? (concats below) plenty (← concats below)

/-- Comparisons, each with the sum after it. -/
def comparisons (below : Below) : (fuel : Nat) → Parser (List (Comparison × Expr))
  | 0 => return []
  | fuel + 1 => do
    let sign? : Lexeme → Option Comparison
      | .sign .eq => some .eq
      | .sign .ne => some .ne
      | .sign .lt => some .lt
      | .sign .le => some .le
      | .sign .gt => some .gt
      | .sign .ge => some .ge
      | .name "in" => some .isIn
      | _ => none
    let l ← lexeme
    match sign? l with
    | some c =>
      let _ ← advance
      let e ← sums below
      return (c, e) :: (← comparisons below fuel)
    | none =>
      let isNotIn ← if isName "not" l then do pure (isName "in" (← look)) else pure false
      if isNotIn then
        let _ ← advance
        let _ ← advance
        let e ← sums below
        return (.notIn, e) :: (← comparisons below fuel)
      else return []

/-- A sum and what it is compared with. -/
def compared (below : Below) : Parser Expr := do
  let e ← sums below
  match ← comparisons below plenty with
  | [] => return e
  | rest => return .compare e rest

/-- A comparison with any number of `not` before it. -/
def negations (below : Below) : (fuel : Nat) → Parser Expr
  | 0 => compared below
  | fuel + 1 => do
    if ← skipIf (isName "not") then return .negate (← negations below fuel) else compared below

/-- More operands after a word. -/
def wordOperands (word : String) (join : Expr → Expr → Expr)
    (operand : Parser Expr) : (fuel : Nat) → Expr → Parser Expr
  | 0, e => return e
  | fuel + 1, e => do
    if ← skipIf (isName word) then wordOperands word join operand fuel (join e (← operand))
    else return e

/-- Operands with `and` between. -/
def conjunctions (below : Below) : Parser Expr := do
  wordOperands "and" .both (negations below plenty) plenty (← negations below plenty)

/-- Operands with `or` between. -/
def disjunctions (below : Below) : Parser Expr := do
  wordOperands "or" .either (conjunctions below) plenty (← conjunctions below)

/-- Choices after a value: `if`, a test, and maybe `else` and another expression. -/
def choices (below : Below) : (fuel : Nat) → (line : Nat) → Expr → Parser Expr
  | 0, _, e => return e
  | fuel + 1, at_, e => do
    if ← skipIf (isName "if") then
      let test ← disjunctions below
      let no ← if ← skipIf (isName "else") then some <$> below.expression true else pure none
      choices below fuel (← line) (.choose at_ test e no)
    else return e

/-- An expression, with choices or without. -/
def expressionStep (below : Below) (withChoice : Bool) : Parser Expr := do
  let at_ ← line
  let e ← disjunctions below
  if withChoice then choices below plenty at_ e else return e

mutual

/-- An expression. -/
def expression : (fuel : Nat) → (withChoice : Bool) → Parser Expr
  | 0, _ => fail "expression too deep"
  | fuel + 1, withChoice =>
    expressionStep ⟨expression fuel, primary fuel, unary fuel⟩ withChoice

/-- A name or a literal. -/
def primary : (fuel : Nat) → (withSpace : Bool) → Parser Expr
  | 0, _ => fail "expression too deep"
  | fuel + 1, withSpace => primaryStep ⟨expression fuel, primary fuel, unary fuel⟩ withSpace

/-- A signed value with what follows it. -/
def unary : (fuel : Nat) → (withFilter : Bool) → Parser Expr
  | 0, _ => fail "expression too deep"
  | fuel + 1, withFilter => unaryStep ⟨expression fuel, primary fuel, unary fuel⟩ withFilter

end

/-- How deep expressions can go. -/
def depth : Nat := 100000

/-- The parsers of expressions. -/
def below : Below := ⟨expression depth, primary depth, unary depth⟩

/-- One expression or a tuple of several. -/
def tuple (withChoice : Bool) (endNames : List String) : Parser Expr :=
  tupleOf (below.expression withChoice) endNames false

/-! ### Targets -/

/-- The names that stand for constants. -/
def constantNames : List String := ["true", "false", "none", "True", "False", "None"]

mutual

/-- The target that an expression is, if it can be assigned to. -/
def target? (withSpace : Bool) (line : Nat) : Expr → Option Target
  | .var n => if constantNames.contains n then none else some (.name line n)
  | .item (.var n) (.const (.text m)) => if withSpace then some (.member n m) else none
  | .tuple items => (targets? withSpace line items).map .tuple
  | _ => none

/-- The targets that expressions are. -/
def targets? (withSpace : Bool) (line : Nat) : List Expr → Option (List Target)
  | [] => some []
  | e :: rest =>
    match target? withSpace line e, targets? withSpace line rest with
    | some t, some ts => some (t :: ts)
    | _, _ => none

end

/-- A target of an assignment: a name, several with commas between, or a member of a namespace. -/
def assignTarget (endNames : List String) (withSpace : Bool) : Parser Target := do
  let at_ ← line
  let e ← tupleOf (below.primary withSpace) endNames false
  match target? withSpace at_ e with
  | some t => return t
  | none => failAt at_ ("can't assign to " ++ Text.quoted e.kind)

/-- A target that is a single name. -/
def nameTarget : Parser (Nat × String) := do
  let (at_, n) ← expectAnyName
  if constantNames.contains n then failAt at_ "can't assign to 'name'"
  return (at_, n)

/-! ### Statements -/

/-- The names of the tags that start statements. -/
def statementNames : List String :=
  ["for", "if", "block", "extends", "print", "macro", "include", "from", "import", "set", "with",
   "autoescape", "call", "filter"]

/-- Rejects a tag that is not known here, or a source that ends too early. -/
def failTag {α : Type} (found : Option String) (endTags : List (List String)) (line : Nat) : Parser α := do
  let expected := endTags.flatten
  let first :=
    match found with
    | none => "Unexpected end of template."
    | some n => "Encountered unknown tag " ++ Text.quoted n ++ "."
  let looking :=
    match endTags with
    | [] => []
    | tags :: _ =>
      let names := " or ".intercalate (tags.map Text.quoted)
      if (found.map expected.contains).getD false then
        ["You probably made a nesting mistake. Jinja is expecting this tag, but currently looking for " ++
          names ++ "."]
      else ["Jinja was looking for the following tags: " ++ names ++ "."]
  let innermost :=
    match (← get).openTags with
    | [] => []
    | tag :: _ => ["The innermost block that needs to be closed is " ++ Text.quoted tag ++ "."]
  failAt line (" ".intercalate (first :: looking ++ innermost))

/-- A statement after the mark that opens its tag, with the fuel that is left to it, and bodies. -/
structure Nested where
  statement : Parser Statement
  body : (endTags : List String) → Parser (List Statement)

/-- A body up to one of some tags, which may be skipped. -/
def bodyUntil (nested : Nested) (endTags : List String) (skipEnd : Bool) : Parser (List Statement) := do
  let _ ← skipIf (isSign .colon)
  let _ ← expect "end of statement block" fun l => match l with | .blockEnd => true | _ => false
  let body ← nested.body endTags
  match ← lexeme with
  | .eof => do failTag none (endTags :: (← get).endTags) (← line)
  | _ => pure ()
  if skipEnd then
    let _ ← advance
  return body

/-- The tag that ended a body. -/
def endTag : Parser String := do
  match (← advance).lexeme with
  | .name n => return n
  | _ => return ""

/-- The parameters of a macro in parentheses: names, and defaults for the last of them. -/
def signatureFrom : (fuel : Nat) → (first : Bool) → List String → List Expr →
    Parser (List String × List Expr)
  | 0, _, names, defaults => return (names, defaults)
  | fuel + 1, first, names, defaults => do
    if ← atSign .closeParen then return (names, defaults)
    if !first then expectSign .comma
    let (_, n) ← nameTarget
    if ← skipIf (isSign .assign) then
      let e ← below.expression true
      signatureFrom fuel false (names ++ [n]) (defaults ++ [e])
    else if !defaults.isEmpty then fail "non-default argument follows default argument"
    else signatureFrom fuel false (names ++ [n]) defaults

/-- The parameters of a macro with their parentheses. -/
def signature : Parser (List String × List Expr) := do
  expectSign .openParen
  let found ← signatureFrom plenty true [] []
  expectSign .closeParen
  return found

/-- The words about the context of an include or import, which say nothing here. -/
def contextWords : Parser Bool := do
  let l ← lexeme
  if isName "with" l || isName "without" l then
    if isName "context" (← look) then
      let _ ← advance
      let _ ← advance
      return true
    else return false
  else return false

/-- Names to import with commas between, up to the end of the statement. -/
def importedNames : (fuel : Nat) → (first : Bool) → Parser (List String)
  | 0, _ => return []
  | fuel + 1, first => do
    if !first then expectSign .comma
    match ← lexeme with
    | .name _ =>
      if ← contextWords then return []
      let (at_, n) ← nameTarget
      if n.startsWith "_" then
        throw ⟨at_, "names starting with an underline can not be imported", true⟩
      let bound ← if ← skipIf (isName "as") then (do pure (← nameTarget).2) else pure n
      if ← contextWords then return [bound]
      else if ← atSign .comma then return bound :: (← importedNames fuel false)
      else return [bound]
    | _ =>
      let _ ← expectAnyName
      return []

/-- Targets and values of a `with`, up to the end of the tag. -/
def withBindings : (fuel : Nat) → (first : Bool) → Parser (List (Target × Expr))
  | 0, _ => return []
  | fuel + 1, first => do
    if ← atBlockEnd then return []
    if !first then expectSign .comma
    let t ← assignTarget [] false
    expectSign .assign
    let e ← below.expression true
    return (t, e) :: (← withBindings fuel false)

/-- Values of a `print`, up to the end of the tag. -/
def printedValues : (fuel : Nat) → (first : Bool) → Parser (List Printed)
  | 0, _ => return []
  | fuel + 1, first => do
    if ← atBlockEnd then return []
    if !first then expectSign .comma
    let e ← below.expression true
    return .value e :: (← printedValues fuel false)

/-- The rest of an `if` after its word: its test and body, then its alternatives, the last one first. -/
def branchFrom (nested : Nested) : (fuel : Nat) → Parser (Expr × List Statement ×
    List (Expr × List Statement) × List Statement)
  | 0 => fail "statement too deep"
  | fuel + 1 => do
    let test ← tuple false []
    let body ← bodyUntil nested ["elif", "else", "endif"] false
    match ← endTag with
    | "elif" =>
      let (test', body', more, orElse) ← branchFrom nested fuel
      return (test, body, (test', body') :: more, orElse)
    | "else" => return (test, body, [], ← bodyUntil nested ["endif"] true)
    | _ => return (test, body, [], [])

/-- Whether a statement prints nothing but white space. -/
def isBlankOutput : Statement → Bool
  | .output items => items.all fun i =>
    match i with
    | .data s => s.toList.all Text.isBlank
    | .value _ => false
  | _ => false

/-- A statement whose tag starts with the given name, which is at hand. -/
def statementNamed (nested : Nested) (name : String) : Parser Statement := do
  let at_ := (← advance).line
  match name with
  | "for" =>
    let target ← assignTarget ["in"] false
    expectName "in"
    let iter ← tuple false ["recursive"]
    let test ← if ← skipIf (isName "if") then some <$> below.expression true else pure none
    let isRecursive ← skipIf (isName "recursive")
    let body ← bodyUntil nested ["endfor", "else"] false
    let orElse ← if (← endTag) = "endfor" then pure [] else bodyUntil nested ["endfor"] true
    return .loop target iter test isRecursive body orElse
  | "if" =>
    let (test, body, alternatives, orElse) ← branchFrom nested plenty
    return .branch test body (alternatives.map fun (t, b) => .branch t b [] []) orElse
  | "block" =>
    let (_, n) ← expectAnyName
    let isScoped ← skipIf (isName "scoped")
    let isRequired ← skipIf (isName "required")
    if ← atSign .sub then
      fail ("Block names in Jinja have to be valid Python identifiers and may not contain hyphens, " ++
        "use an underscore instead.")
    let body ← bodyUntil nested ["endblock"] true
    if isRequired && !body.all isBlankOutput then
      fail "Required blocks can only contain comments or whitespace"
    let _ ← skipIf (isName n)
    return .block at_ n isScoped isRequired body
  | "extends" => return .extend at_ (← below.expression true)
  | "print" => return .output (← printedValues plenty true)
  | "macro" =>
    let (_, n) ← nameTarget
    let (parameters, defaults) ← signature
    let body ← bodyUntil nested ["endmacro"] true
    return .macro_ at_ n ⟨parameters, defaults, body⟩
  | "include" =>
    let e ← below.expression true
    let ignoreMissing ← if ← atName "ignore" then do pure (isName "missing" (← look)) else pure false
    if ignoreMissing then
      let _ ← advance
      let _ ← advance
    let _ ← contextWords
    return .include e ignoreMissing
  | "from" =>
    let e ← below.expression true
    expectName "import"
    return .importFrom e (← importedNames plenty true)
  | "import" =>
    let e ← below.expression true
    expectName "as"
    let (_, n) ← nameTarget
    let _ ← contextWords
    return .importAs e n
  | "set" =>
    let target ← assignTarget [] true
    if ← skipIf (isSign .assign) then return .assign target (← tuple true [])
    else
      let filter ← moreFilters below plenty none
      return .assignBlock target filter (← bodyUntil nested ["endset"] true)
  | "with" =>
    let bindings ← withBindings plenty true
    let body ← bodyUntil nested ["endwith"] true
    return .within (bindings.map (·.1)) (bindings.map (·.2)) body
  | "autoescape" =>
    let e ← below.expression true
    return .autoescape e (← bodyUntil nested ["endautoescape"] true)
  | "call" =>
    let (parameters, defaults) ← if ← atSign .openParen then signature else pure ([], [])
    let e ← below.expression true
    match e with
    | .call .. => pure ()
    | _ => failAt at_ "expected call"
    return .callBlock at_ e ⟨parameters, defaults, ← bodyUntil nested ["endcall"] true⟩
  | _ =>
    let first ← oneFilter below none
    let filter ← moreFilters below plenty (some first)
    return .filtered (filter.getD first) (← bodyUntil nested ["endfilter"] true)

/-- A statement after the mark that opens its tag. -/
def statementStep (nested : Nested) : Parser Statement := do
  let t ← current
  match t.lexeme with
  | .name n =>
    if statementNames.contains n then
      modify fun s => { s with openTags := n :: s.openTags }
      let st ← statementNamed nested n
      modify fun s => { s with openTags := s.openTags.drop 1 }
      return st
    else failTag (some n) (← get).endTags t.line
  | _ => failAt t.line "tag name expected"

/-- What is printed so far as a statement of its own. -/
def flush (printed : List Printed) : List Statement :=
  if printed.isEmpty then [] else [.output printed.reverse]

/-- Statements up to one of some tags or the end of the source. -/
def bodyFrom (statement : Parser Statement) (endTags : List String) :
    (fuel : Nat) → List Printed → Parser (List Statement)
  | 0, _ => return []
  | fuel + 1, printed => do
    match ← lexeme with
    | .data s =>
      let _ ← advance
      bodyFrom statement endTags fuel (.data s :: printed)
    | .printBegin =>
      let _ ← advance
      let e ← tuple true []
      let _ ← expect "end of print statement" fun l => match l with | .printEnd => true | _ => false
      bodyFrom statement endTags fuel (.value e :: printed)
    | .blockBegin =>
      let _ ← advance
      let atEnd := match ← lexeme with | .name n => endTags.contains n | _ => false
      if atEnd then return flush printed
      else
        let st ← statement
        let _ ← expect "end of statement block" fun l => match l with | .blockEnd => true | _ => false
        return flush printed ++ st :: (← bodyFrom statement endTags fuel [])
    | _ => return flush printed

mutual

/-- A statement after the mark that opens its tag. -/
def statement : (fuel : Nat) → Parser Statement
  | 0 => fail "statement too deep"
  | fuel + 1 => statementStep ⟨statement fuel, body fuel⟩

/-- A body up to one of some tags. -/
def body : (fuel : Nat) → (endTags : List String) → Parser (List Statement)
  | 0, _ => fail "statement too deep"
  | fuel + 1, endTags => do
    modify fun s => { s with endTags := endTags :: s.endTags }
    let found ← bodyFrom (statement fuel) endTags plenty []
    modify fun s => { s with endTags := s.endTags.drop 1 }
    return found

end

/-- The statements of a source. -/
def template (o : Options) (source : String) : Except SyntaxFault (List Statement) :=
  match tokens o source with
  | [] => .ok []
  | t :: after => do
    let start : Parser (List Statement) := do
      arrive t
      bodyFrom (statement depth) [] plenty []
    let (found, _) ← start.run { current := ⟨1, .eof⟩, after }
    return found

end Stencil.Language.Parse
