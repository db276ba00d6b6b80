import Stencil.Language.Filters
import Stencil.Language.Parse

/-!
# What a template may say

A source that follows the grammar can still be rejected for what it says: for a block that is defined
twice, a filter or a test that there is not, an assignment to the name of the loop, or an `extends`
that stands inside of something. A filter or test that is asked for only under a condition is not
missed before the condition holds.
-/

namespace Stencil.Language

namespace Arguments

/-- All expressions among arguments. -/
def exprs (args : Arguments Expr) : List Expr :=
  args.placed ++ args.named.map (·.2) ++ args.spread.toList ++ args.spreadNamed.toList

/-- Whether a name is given twice. -/
def repeatsName (args : Arguments Expr) : Bool :=
  let names := args.named.map (·.1)
  names.eraseDups.length != names.length

end Arguments

namespace Expr

/-- The parts of an expression, in the order in which they are written out. -/
def parts : Expr → List Expr
  | .const _ | .var _ => []
  | .tuple items | .list items | .concat items => items
  | .dict entries => entries.flatMap fun (key, v) => [key, v]
  | .member target _ => [target]
  | .item target key => [target, key]
  | .slice start stop step => start.toList ++ stop.toList ++ step.toList
  | .call target args => target :: args.exprs
  | .filter _ value _ args => value.toList ++ args.exprs
  | .test _ value _ args => value :: args.exprs
  | .unary _ operand | .negate operand => [operand]
  | .binary _ left right | .both left right | .either left right => [left, right]
  | .compare first rest => first :: rest.map (·.2)
  | .choose _ condition yes no => yes :: condition :: no.toList

/-- The names that an expression uses. -/
def names : (fuel : Nat) → Expr → List String
  | 0, _ => []
  | _, .var name => [name]
  | fuel + 1, e => e.parts.flatMap (names fuel)

/-- Whether an expression says something twice or puts a part of a sequence where none can stand. -/
def isMalformed : (fuel : Nat) → Expr → Bool
  | 0, _ => false
  | fuel + 1, e =>
    let here :=
      match e with
      | .call _ args | .filter _ _ _ args | .test _ _ _ args => args.repeatsName
      | .tuple items => items.any fun e => match e with | .slice .. => true | _ => false
      | _ => false
    here || e.parts.any (isMalformed fuel)

/-- The first filter or test in an expression that there is not. What stands under a condition of its
own is left out. -/
def missing? : (fuel : Nat) → Expr → Option SyntaxFault
  | 0, _ => none
  | _, .choose .. => none
  | fuel + 1, e =>
    let here :=
      match e with
      | .filter line _ name _ =>
        if Filter.isKnown name then none
        else some ⟨line, "No filter named " ++ Text.quoted name ++ ".", true⟩
      | .test line _ name _ =>
        if (Test.ofName? name).isSome then none
        else some ⟨line, "No test named " ++ Text.quoted name ++ ".", true⟩
      | _ => none
    here <|> e.parts.findSome? (missing? fuel)

end Expr

/-- A name as it is met in a body: used or given a value. -/
inductive Mention where
  | use (name : String)
  | store (line : Nat) (name : String)

mutual

/-- The names that a target gives values to. -/
def Target.mentions : Target → List Mention
  | .name line n => [.store line n]
  | .member .. => []
  | .tuple targets => Target.allMentions targets

/-- The names that targets give values to. -/
def Target.allMentions : List Target → List Mention
  | [] => []
  | t :: rest => t.mentions ++ Target.allMentions rest

end

namespace Expr

/-- The names that an expression uses, as mentions. -/
def mentions (e : Expr) : List Mention := (e.names Parse.depth).map .use

end Expr

namespace Statement

/-- The parts of a statement that are statements. -/
def bodies : Statement → List Statement
  | .assignBlock _ _ body | .within _ _ body | .autoescape _ body | .block _ _ _ _ body
  | .filtered _ body => body
  | .loop _ _ _ _ body orElse => body ++ orElse
  | .branch _ body alternatives orElse => body ++ alternatives ++ orElse
  | .macro_ _ _ d | .callBlock _ _ d => d.body
  | _ => []

/-- The expressions that stand in a statement itself. -/
def exprs : Statement → List Expr
  | .output items => items.filterMap fun i => match i with | .value e => some e | .data _ => none
  | .assign _ value => [value]
  | .assignBlock _ filter _ => filter.toList
  | .loop _ iter test _ _ _ => iter :: test.toList
  | .branch test _ _ _ => [test]
  | .within _ values _ => values
  | .autoescape value _ => [value]
  | .block .. => []
  | .extend _ template => [template]
  | .include template _ | .importAs template _ | .importFrom template _ => [template]
  | .filtered filter _ => [filter]
  | .macro_ _ _ d => d.defaults
  | .callBlock _ call d => call :: d.defaults

/-- The names that a statement mentions, with those inside of blocks or without. -/
def mentions (intoBlocks : Bool) : (fuel : Nat) → Statement → List Mention
  | 0, _ => []
  | fuel + 1, s =>
    let inside (body : List Statement) := body.flatMap (mentions intoBlocks fuel)
    let uses (es : List Expr) := es.flatMap Expr.mentions
    let given (d : MacroSyntax Statement) := d.parameters.map (Mention.store 0)
    match s with
    | .assign target value => target.mentions ++ value.mentions
    | .assignBlock target filter body => target.mentions ++ uses filter.toList ++ inside body
    | .loop target iter test _ body orElse =>
      target.mentions ++ iter.mentions ++ inside body ++ inside orElse ++ uses test.toList
    | .within targets values body => Target.allMentions targets ++ uses values ++ inside body
    | .block _ _ _ _ body => if intoBlocks then inside body else []
    | .filtered filter body => inside body ++ filter.mentions
    | .macro_ _ _ d => given d ++ uses d.defaults ++ inside d.body
    | .callBlock _ call d => call.mentions ++ given d ++ uses d.defaults ++ inside d.body
    | s => uses s.exprs ++ inside s.bodies

/-- A statement and all statements inside of it. -/
def all : (fuel : Nat) → Statement → List Statement
  | 0, _ => []
  | fuel + 1, s => s :: s.bodies.flatMap (all fuel)

end Statement

/-- Those of some names that a body uses before it gives them a value. -/
def usedFirst (names : List String) : List Mention → List String
  | [] => []
  | .use n :: rest => if names.contains n then n :: usedFirst names rest else usedFirst names rest
  | .store _ n :: rest => usedFirst (names.filter (· != n)) rest

/-- The special names of macros that the body of one uses. -/
def MacroSyntax.uses (d : MacroSyntax Statement) : List String :=
  usedFirst ["caller", "kwargs", "varargs"] (d.body.flatMap (Statement.mentions false Parse.depth))

/-- The blocks of a template, each with its line, name and body. -/
def blocksOf (body : List Statement) : List (Nat × String × List Statement) :=
  (body.flatMap (Statement.all Parse.depth)).filterMap fun s =>
    match s with
    | .block line name _ _ body => some (line, name, body)
    | _ => none

/-- What is known about the place of a statement when it is checked. -/
structure Surroundings where
  /-- Whether nothing but conditions stands around it. -/
  isTop : Bool
  /-- Whether nothing stands around it. -/
  isRoot : Bool
  /-- Whether it is right inside of a condition. -/
  isSoft : Bool
  /-- Whether what it prints is left out after an `extends`. -/
  isLeftOut : Bool

namespace Surroundings

/-- The place of a body with a scope of its own. -/
def inner (f : Surroundings) : Surroundings := { f with isTop := false, isRoot := false, isSoft := false }

/-- The place of a body under a condition. -/
def soft (f : Surroundings) : Surroundings := { f with isRoot := false, isSoft := true }

end Surroundings

/-- What is known about the `extends` so far: whether one stands at the root. -/
structure Extended where
  isKnown : Bool := false

/-- A check of a part of a template. -/
abbrev Checking := StateT Extended (Except SyntaxFault)

/-- Rejects the first expression that asks for a filter or test that there is not. -/
def checkExprs (f : Surroundings) (es : List Expr) : Checking Unit :=
  if f.isSoft then return ()
  else
    match es.findSome? (Expr.missing? Parse.depth) with
    | some fault => throw fault
    | none => return ()

/-- Rejects a macro that takes its caller as a parameter without a default. -/
def checkCaller (line : Nat) (d : MacroSyntax Statement) : Checking Unit := do
  match d.parameters.findIdx? (· == "caller") with
  | none => return ()
  | some i =>
    if d.uses.contains "caller" && i + d.defaults.length < d.parameters.length then
      throw ⟨line, "When defining macros or call blocks the special \"caller\" argument must be omitted " ++
        "or be given a default.", true⟩

/-- Rejects a loop that gives its own name a value. -/
def checkLoopName (s : Statement) : Checking Unit := do
  let stores := (s.mentions true Parse.depth).filterMap fun m =>
    match m with
    | .store line "loop" => if line = 0 then none else some line
    | _ => none
  match stores with
  | [] => return ()
  | line :: _ => throw ⟨line, "Can't assign to special loop variable in for-loop body", true⟩

/-- Checks a statement; `body` checks the statements inside of it. The answer says whether those after it
count. -/
def checkStatement (body : Surroundings → List Statement → Checking Unit) (f : Surroundings) (s : Statement) :
    Checking Bool := do
  match s with
  | .output _ =>
    if f.isLeftOut && (← get).isKnown then return true
    checkExprs f s.exprs
    return true
  | .assignBlock _ filter inside =>
    body { f.inner with isLeftOut := false } inside
    checkExprs f.inner filter.toList
    return true
  | .loop _ iter test isRecursive inside orElse =>
    checkExprs f.inner test.toList
    checkLoopName s
    if !isRecursive then checkExprs f [iter]
    body f.inner inside
    body f.inner orElse
    if isRecursive then checkExprs f [iter]
    return true
  | .branch _ inside alternatives orElse =>
    body f.soft inside
    alternatives.forM fun a => body f.soft a.bodies
    body f.soft orElse
    return true
  | .within _ values inside =>
    checkExprs f values
    body f.inner inside
    return true
  | .autoescape value inside =>
    checkExprs f.inner [value]
    body f.inner inside
    return true
  | .extend line template =>
    if !f.isTop then throw ⟨line, "cannot use extend from a non top-level scope", true⟩
    if (← get).isKnown then return false
    checkExprs f [template]
    if f.isRoot then set ({ isKnown := true } : Extended)
    return true
  | .filtered filter inside =>
    body f.inner inside
    checkExprs f.inner [filter]
    return true
  | .macro_ line _ d =>
    checkCaller line d
    checkExprs f.inner d.defaults
    body { f.inner with isLeftOut := false } d.body
    return true
  | .callBlock line call d =>
    checkCaller line d
    checkExprs f.inner d.defaults
    body { f.inner with isLeftOut := false } d.body
    checkExprs f [call]
    return true
  | .block .. => return true
  | s =>
    checkExprs f s.exprs
    return true

/-- Checks statements up to one after which none counts. -/
def checkEach (statement : Statement → Checking Bool) : List Statement → Checking Unit
  | [] => return ()
  | s :: rest => do if ← statement s then checkEach statement rest

/-- Checks a body. -/
def checkBody : (fuel : Nat) → Surroundings → List Statement → Checking Unit
  | 0, _, _ => return ()
  | fuel + 1, f, body => checkEach (checkStatement (checkBody fuel) f) body

/-- Rejects a block that is defined twice. -/
def checkBlocks : (seen : List String) → List (Nat × String × List Statement) → Checking Unit
  | _, [] => return ()
  | seen, (line, name, _) :: rest =>
    if seen.contains name then throw ⟨line, "block " ++ Text.quoted name ++ " defined twice", true⟩
    else checkBlocks (name :: seen) rest

/-- Checks a template. -/
def check (body : List Statement) : Except SyntaxFault Unit := do
  let all := body.flatMap (Statement.all Parse.depth)
  let blocks := blocksOf body
  let extends_ := all.any fun s => match s with | .extend .. => true | _ => false
  let run : Checking Unit := do
    checkBlocks [] blocks
    checkBody Parse.depth ⟨true, true, false, extends_⟩ body
    blocks.forM fun (_, _, inside) => checkBody Parse.depth ⟨false, false, false, false⟩ inside
  let _ ← run.run {}
  return ()

/-- Whether a template says something twice that can be said once only. -/
def isMalformed (body : List Statement) : Bool :=
  (body.flatMap (Statement.all Parse.depth)).any fun s =>
    let repeats (names : List String) : Bool := names.eraseDups.length != names.length
    let here :=
      match s with
      | .macro_ _ _ d => repeats d.parameters
      | .callBlock _ call d =>
        repeats d.parameters ||
          (match call with
            | .call _ args => args.named.any fun e => e.1 == "caller"
            | _ => false)
      | _ => false
    here || s.exprs.any (Expr.isMalformed Parse.depth)

end Stencil.Language
