import Stencil.Language.Filters

/-!
# Rendering

Expressions are evaluated and statements printed in a place: an innermost scope, inside of others. A
body of a loop, a macro, a `with` or a captured text has a scope of its own, so what it assigns is
not seen outside; an `if` has none. Names that no scope has are looked up in the context, where what
is assigned at the top of a template is put as well, so that blocks see it.

The functions below are each a step that rests on others for the parts; `evaluator` ties them together
and hands down one unit of fuel less at each nested part. A call of a macro or a recursive loop counts
towards the depth, and a rendering that goes too deep stops.
-/

namespace Stencil.Language

/-- How many calls of macros and loops can be under way at one time. -/
def depthLimit : Nat := 240

namespace Place

/-- The value of a name. -/
def lookUpFrom (name : String) : (fuel : Nat) → (scope : Option Address) → Run (Option Value)
  | 0, _ => return none
  | _, none => return none
  | fuel + 1, some a => do
    match ← Run.look a with
    | .scope bound outer =>
      match bound.lookup name with
      | some (some v) => return some v
      | some none => return some (Value.undefinedName name)
      | none => lookUpFrom name fuel outer
    | _ => return none

/-- The value of a name, which is undefined if nothing gives it one. -/
def lookUp (p : Place) (name : String) : Run Value := do
  match ← lookUpFrom name plenty (some p.scope) with
  | some v => return v
  | none =>
    match ← Run.look p.context with
    | .context assigned given _ =>
      return (assigned.lookup name <|> given.lookup name).getD (Value.undefinedName name)
    | _ => return Value.undefinedName name

/-- Entries with one more, in the place of an older one of its name. -/
def putName {α : Type} (name : String) (v : α) : List (String × α) → List (String × α)
  | [] => [(name, v)]
  | (n, w) :: rest => if n = name then (n, v) :: rest else (n, w) :: putName name v rest

/-- Gives a name a value in the innermost scope, and where blocks see it if this is the top. -/
def assignName (p : Place) (name : String) (v : Value) : Run Unit := do
  match ← Run.look p.scope with
  | .scope bound outer => Run.put p.scope (.scope (putName name (some v) bound) outer)
  | _ => pure ()
  if p.isTop then
    match ← Run.look p.context with
    | .context assigned given blocks => Run.put p.context (.context (putName name v assigned) given blocks)
    | _ => pure ()

/-- A place in a new scope inside of this one. -/
def inner (p : Place) (bound : List (String × Option Value)) : Run Place := do
  let scope ← Run.makeAt (.scope bound (some p.scope))
  return { p with scope, isTop := false }

/-- The names of all scopes and their values, an inner one before an outer one of its name. -/
def visible : (fuel : Nat) → (scope : Option Address) → Run (List (String × Option Value))
  | 0, _ => return []
  | _, none => return []
  | fuel + 1, some a => do
    match ← Run.look a with
    | .scope bound outer => return bound ++ (← visible fuel outer)
    | _ => return []

end Place

/-- Prints a text. -/
def printText (s : String) : Run Unit := modify fun m => { m with printed := m.printed ++ s }

/-- Prints a value that should be a text; what is none spoils the text that is being printed. -/
def printRaw : Value → Run Unit
  | .text s _ => printText s
  | _ => modify fun m => { m with isSpoiled := true }

/-- Prints a value as a text. -/
def printValue (v : Value) : Run Unit := do
  if (← get).isEscaping then printText (← v.escapedText) else printText (← v.shown)

/-- What a computation prints, which is not printed then. -/
def capture (run : Run Unit) : Run Value := do
  let before ← get
  set { before with printed := "", isSpoiled := false }
  run
  let after ← get
  set { after with printed := before.printed, isSpoiled := before.isSpoiled }
  if after.isSpoiled then throw .wrongKind
  else return .text after.printed after.isEscaping

/-! ### Targets -/

/-- The items of a value that is taken apart into `count` parts. -/
def takeApart (k : Evaluator) (count : Nat) (v : Value) : Run (List Value) := do
  let a ← v.iterator
  let found ← Value.drain k a (count + 1) []
  if found.length > count then
    throw (.wrongValue ("too many values to unpack (expected " ++ toString count ++ ")"))
  else if found.length < count then
    throw (.wrongValue ("not enough values to unpack (expected " ++ toString count ++ ", got " ++
      toString found.length ++ ")"))
  else return found

mutual

/-- Assigns a value to a target. -/
def assign (k : Evaluator) (p : Place) : Target → Value → Run Unit
  | .name _ name, v => p.assignName name v
  | .member space name, v => do
    match ← p.lookUp space with
    | .object a =>
      match ← Run.look a with
      | .space entries => Run.put a (.space (← Value.putEntry (.plain name) v entries))
      | .dict entries => Run.put a (.dict (← Value.putEntry (.plain name) v entries))
      | _ => throw .wrongKind
    | _ => throw .wrongKind
  | .tuple targets, v => do assignAll k p targets (← takeApart k targets.length v)

/-- Assigns values to targets. -/
def assignAll (k : Evaluator) (p : Place) : List Target → List Value → Run Unit
  | t :: targets, v :: values => do
    assign k p t v
    assignAll k p targets values
  | _, _ => return ()

end

mutual

/-- The names whose attributes a target assigns to. -/
def spacesOf : Target → List String
  | .name .. => []
  | .member space _ => [space]
  | .tuple targets => spacesOfAll targets

/-- The names whose attributes targets assign to. -/
def spacesOfAll : List Target → List String
  | [] => []
  | t :: rest => spacesOf t ++ spacesOfAll rest

end

/-- Stops if a target assigns to an attribute of what is no namespace. -/
def needSpaces (p : Place) (t : Target) : Run Unit :=
  (spacesOf t).forM fun name => do
    let refused : Run Unit := throw (.refused "cannot assign attribute on non-namespace object")
    match ← p.lookUp name with
    | .object a =>
      match ← Run.look a with
      | .space _ => return ()
      | _ => refused
    | _ => refused

/-! ### Calls -/

/-- Calls a macro. -/
def callMacro (k : Evaluator) (depth : Nat) (m : Macro) (placed : List Value)
    (named : List (String × Value)) : Run Value := do
  if depth ≥ depthLimit then throw .tooDeep
  let parameters := m.definition.parameters
  let count := parameters.length
  let late := parameters.drop placed.length
  let bound := (parameters.zip (placed.map some)) ++ late.map fun n => (n, named.lookup n)
  let named := named.filter fun e => !late.contains e.1
  let hasCaller := if late.isEmpty then parameters.contains "caller" else late.contains "caller"
  let needsCaller := m.takesCaller && !hasCaller
  let caller :=
    if needsCaller then
      match named.lookup "caller" with
      | none | some .null => [("caller", some (.undefined "No caller defined"))]
      | some v => [("caller", some v)]
    else []
  let named := if needsCaller then named.filter fun e => e.1 != "caller" else named
  let others ←
    if m.takesNamed then do
      let rest ← Run.make (.dict (named.map fun (n, v) => (.plain n, v)))
      pure [("kwargs", some rest)]
    else if named.isEmpty then pure []
    else throw .wrongKind
  let more ←
    if m.takesPlaced then pure [("varargs", some (.tuple (placed.drop count)))]
    else if placed.length > count then throw .wrongKind
    else pure []
  let p ← m.place.inner (bound ++ caller ++ others ++ more)
  let p := { p with depth := depth + 1 }
  let defaults := m.definition.defaults
  let withDefault := count - defaults.length
  bound.zipIdx.forM fun ((name, given), i) => do
    if given.isNone then
      match if i < withDefault then none else defaults[i - withDefault]? with
      | some e => p.assignName name (← k.expr p e)
      | none => p.assignName name (.undefined ("parameter " ++ Text.quoted name ++ " was not provided"))
  capture (k.body p m.definition.body)

/-- Goes through the rest of a loop. -/
def loopFrom (k : Evaluator) (p : Place) (target : Target) (body : List Statement) (a : Address) :
    (fuel : Nat) → (any : Bool) → Run Bool
  | 0, any => return any
  | fuel + 1, any => do
    match ← Run.look a with
    | .loop l =>
      match ← l.take k a with
      | none => return any
      | some v =>
        match ← Run.look p.scope with
        | .scope _ outer => Run.put p.scope (.scope [("loop", some (.object a))] outer)
        | _ => pure ()
        assign k p target v
        k.body p body
        loopFrom k p target body a fuel true
    | _ => return any

/-- Goes through a value: the body for each item that passes the test, or what stands for none. -/
def runLoop (k : Evaluator) (r : Recursion) (isRecursive : Bool) (outer depth : Nat) (sequence : Value) :
    Run Unit := do
  let sequence ←
    match r.test with
    | none => pure sequence
    | some test => do
      let source ← sequence.iterator
      Run.iterator (.tested source r.target test { r.place with depth })
  let iterator ← sequence.iterator
  let a ← Run.makeAt (.loop { sequence, iterator, outer, recursion := if isRecursive then some r else none })
  let p ← r.place.inner []
  let p := { p with depth }
  let any ← loopFrom k p r.target r.body a plenty false
  match ← Run.look p.scope with
  | .scope bound outer => Run.put p.scope (.scope (bound.map fun (n, _) => (n, none)) outer)
  | _ => pure ()
  if !any && !r.orElse.isEmpty then
    let p ← r.place.inner []
    k.body { p with depth } r.orElse

/-- Prints a block of a template. -/
def runBlock (k : Evaluator) (depth : Nat) (name : String) (context : Address) : Run Unit := do
  match ← Run.look context with
  | .context _ _ blocks =>
    let self ← Run.make (.blocks context)
    let missing := Value.undefined ("there is no parent block called " ++ Text.quoted name ++ ".")
    let scope ← Run.makeAt (.scope [("self", some self), ("super", some missing)] none)
    k.body { scope, context, isTop := false, depth } ((blocks.lookup name).getD [])
  | _ => return ()

/-- What a call gives. -/
def callStep (k : Evaluator) (depth : Nat) (v : Value) (placed : List Value)
    (named : List (String × Value)) : Run Value := do
  match v with
  | .undefined m => throw (.undefined m)
  | .function f => Value.callFunction k f placed named
  | .method receiver name => receiver.callMethod k name placed named
  | .object a =>
    match ← Run.look a with
    | .callable m => callMacro k depth m placed named
    | .joiner separator isUsed =>
      let _ ← bind [] placed named
      if isUsed then return separator
      else
        Run.put a (.joiner separator true)
        return .plain ""
    | .loop l =>
      match l.recursion, ← bind [needed "iterable"] placed named with
      | some r, [sequence] =>
        if depth ≥ depthLimit then throw .tooDeep
        capture (runLoop k r true (l.outer + 1) (depth + 1) sequence)
      | _, _ => throw .wrongKind
    | .block name context =>
      let _ ← bind [] placed named
      if depth ≥ depthLimit then throw .tooDeep
      capture (runBlock k (depth + 1) name context)
    | _ => throw .wrongKind
  | _ => throw .wrongKind

/-! ### Iterators -/

/-- Starts to go through a value as a filter does. -/
def startDelayed (v : Value) : Delayed → Run Source
  | .map placed named => do
    if !(← v.truthy) then return .items []
    let step ←
      match placed, named.lookup "attribute" with
      | [], some key => do
        match named.filter fun e => e.1 != "attribute" && e.1 != "default" with
        | (n, _) :: _ => throw (.filterArgument ("Unexpected keyword argument " ++ Text.quoted n))
        | [] =>
          let fallback := match named.lookup "default" with | some .null | none => none | some d => some d
          pure (.path (← Path.ofValue key fallback))
      | name :: placed, _ => pure (.filter name placed named)
      | [], none => throw (.filterArgument "map requires a filter argument")
    return .mapped (← v.iterator) step
  | .choose keep withAttribute placed named => do
    if !(← v.truthy) then return .items []
    let (path, placed) ←
      if withAttribute then do
        match placed with
        | key :: placed => pure (some (← Path.ofValue key none), placed)
        | [] => throw (.filterArgument "Missing parameter for attribute name")
      else pure (none, placed)
    let test := match placed with | name :: placed => some (name, placed, named) | [] => none
    return .chosen (← v.iterator) { keep, path, test }
  | .entries => do
    match v with
    | .undefined _ => return .items []
    | .object a =>
      match ← Run.look a with
      | .dict entries => return .entries .entries a 0 entries.length
      | _ => throw .wrongKind
    | _ => throw .wrongKind
  | .batch size filler => return .batches (← v.iterator) size filler []
  | .unique isCaseSensitive path => return .unique (← v.iterator) [] isCaseSensitive path

/-- Whether a filter chooses an item. -/
def Choice.accepts (k : Evaluator) (c : Choice) (v : Value) : Run Bool := do
  let v ←
    match c.path with
    | some path => path.follow k v
    | none => pure v
  let holds ←
    match c.test with
    | some (name, placed, named) => Value.satisfiesByName k name v placed named
    | none => v.truthy
  return holds == c.keep

/-- The next item that passes a test. -/
def findNext (k : Evaluator) (accepts : Value → Run Bool) (source : Address) :
    (fuel : Nat) → Run (Option Value)
  | 0 => return none
  | fuel + 1 => do
    match ← k.next source with
    | none => return none
    | some v => if ← accepts v then return some v else findNext k accepts source fuel

/-- The next batch of items, and those that are waiting after it. -/
def nextBatch (k : Evaluator) (source : Address) (size filler : Value) :
    (fuel : Nat) → (pending : List Value) → Run (Option (List Value) × List Value)
  | 0, _ => return (none, [])
  | fuel + 1, pending => do
    match ← k.next source with
    | some v =>
      if ← Value.same (.int pending.length) size then return (some pending, [v])
      else nextBatch k source size filler fuel (pending ++ [v])
    | none =>
      if pending.isEmpty then return (none, [])
      else
        match filler with
        | .null => return (some pending, [])
        | filler =>
          if ← Value.ordered .lt (.int pending.length) size then
            let missing := (← size.needWhole) - pending.length
            return (some (pending ++ List.replicate missing.toNat filler), [])
          else return (some pending, [])

/-- The next item whose key did not come before, and the keys so far. -/
def nextUnique (k : Evaluator) (source : Address) (isCaseSensitive : Bool) (path : Path) :
    (fuel : Nat) → (seen : List Value) → Run (Option Value × List Value)
  | 0, seen => return (none, seen)
  | fuel + 1, seen => do
    match ← k.next source with
    | none => return (none, seen)
    | some v =>
      let found ← path.follow k v
      let key := if isCaseSensitive then found else found.ignoreCase
      key.needKey
      if ← Value.among Value.same key seen then nextUnique k source isCaseSensitive path fuel seen
      else return (some v, key :: seen)

/-- The next item of a source, and the source after it. -/
def Source.next (k : Evaluator) : Source → Run (Option Value × Source)
  | .items [] => return (none, .items [])
  | .items (v :: rest) => return (some v, .items rest)
  | .list a position => do
    match ← Run.look a with
    | .list all =>
      match all[position]? with
      | some v => return (some v, .list a (position + 1))
      | none => return (none, .items [])
    | _ => return (none, .items [])
  | .backwards _ 0 => return (none, .items [])
  | .backwards a (position + 1) => do
    match ← Run.look a with
    | .list all =>
      match all[position]? with
      | some v => return (some v, .backwards a position)
      | none => return (none, .items [])
    | _ => return (none, .items [])
  | .numbers _ _ 0 => return (none, .items [])
  | .numbers n step (count + 1) => return (some (.int n), .numbers (n + step) step count)
  | .entries which a position size => do
    let entries ← Value.entriesAt a
    if entries.length != size then throw .disturbed
    match entries[position]? with
    | none => return (none, .items [])
    | some (key, v) =>
      let item :=
        match which with
        | .keys => key
        | .values => v
        | .entries => .tuple [key, v]
      return (some item, .entries which a (position + 1) size)
  | .mapped source step => do
    match ← k.next source with
    | none => return (none, .items [])
    | some v =>
      let found ←
        match step with
        | .path path => path.follow k v
        | .filter name placed named => Value.filteredByName k name v placed named
      return (some found, .mapped source step)
  | .chosen source choice => do
    return (← findNext k (choice.accepts k) source plenty, .chosen source choice)
  | .tested source target test place => do
    let accepts (v : Value) : Run Bool := do
      let p ← place.inner []
      assign k p target v
      (← k.expr p test).truthy
    return (← findNext k accepts source plenty, .tested source target test place)
  | .batches source size filler pending => do
    let (batch, pending) ← nextBatch k source size filler plenty pending
    match batch with
    | none => return (none, .items [])
    | some found => return (some (← Run.list found), .batches source size filler pending)
  | .unique source seen isCaseSensitive path => do
    let (v, seen) ← nextUnique k source isCaseSensitive path plenty seen
    return (v, .unique source seen isCaseSensitive path)
  | .loop a => do
    match ← Run.look a with
    | .loop l =>
      let v ← l.take k a
      return (v.map fun v => .tuple [v, .object a], .loop a)
    | _ => return (none, .items [])
  | .delayed v make => do return (none, ← startDelayed v make)

/-- The next item of an iterator. -/
def nextStep (k : Evaluator) (a : Address) : Run (Option Value) := do
  match ← Run.look a with
  | .iterator source =>
    let source ←
      match source with
      | .delayed v make => startDelayed v make
      | source => pure source
    let (v, source) ← source.next k
    Run.put a (.iterator source)
    return v
  | _ => return none

/-! ### Expressions -/

/-- The arguments of a call: by place and by name. -/
def arguments (k : Evaluator) (p : Place) (args : Arguments Expr) :
    Run (List Value × List (String × Value)) := do
  let placed ← args.placed.mapM (k.expr p)
  let spread ←
    match args.spread with
    | none => pure []
    | some e => do (← k.expr p e).items k
  let named ← args.named.mapM fun (n, e) => do return (n, ← k.expr p e)
  let spreadNamed ←
    match args.spreadNamed with
    | none => pure []
    | some e => do
      match ← k.expr p e with
      | .undefined m => throw (.undefined m)
      | .object a =>
        match ← Run.look a with
        | .dict entries => entries.mapM fun (key, v) => do return (← key.needText, v)
        | _ => throw .wrongKind
      | _ => throw .wrongKind
  if spreadNamed.any fun e => named.any fun f => e.1 == f.1 then throw .wrongKind
  return (placed ++ spread, named ++ spreadNamed)

/-- Whether a chain of comparisons holds; it ends at the first one that does not. -/
def comparisons (k : Evaluator) (p : Place) (v : Value) : List (Comparison × Expr) → Run Bool
  | [] => return true
  | (c, e) :: rest => do
    let w ← k.expr p e
    if ← Value.compare k c v w then comparisons k p w rest else return false

/-- The value of an expression. -/
def exprStep (k : Evaluator) (p : Place) : Expr → Run Value
  | .const c => return .ofConstant c
  | .var name => p.lookUp name
  | .tuple items => do return .tuple (← items.mapM (k.expr p))
  | .list items => do Run.list (← items.mapM (k.expr p))
  | .dict entries => do
    let found ← entries.mapM fun (key, v) => do
      let key ← k.expr p key
      return (key, ← k.expr p v)
    Run.make (.dict (← Value.putEntries [] found))
  | .member target name => do (← k.expr p target).member k name
  | .item target (.slice start stop step) => do
    let v ← k.expr p target
    let bound (e : Option Expr) : Run Value :=
      match e with
      | some e => k.expr p e
      | none => return .null
    v.slice (← bound start) (← bound stop) (← bound step)
  | .item target key => do
    let v ← k.expr p target
    v.part k (← k.expr p key)
  | .slice .. => throw .wrongKind
  | .call target args => do
    let v ← k.expr p target
    let (placed, named) ← arguments k p args
    k.call p.depth v placed named
  | .filter _ value name args => do
    let v ←
      match value with
      | some e => k.expr p e
      | none => pure p.captured
    let (placed, named) ← arguments k p args
    match Filter.ofName? name with
    | some f => v.filtered k f placed named
    | none =>
      if named.isEmpty then throw (.refused ("No filter named " ++ Text.quoted name ++ " found."))
      else throw .wrongKind
  | .test _ value name args => do
    let v ← k.expr p value
    let (placed, named) ← arguments k p args
    match Test.ofName? name with
    | some t => return .bool (← v.satisfies k Filter.isKnown t placed named)
    | none =>
      if named.isEmpty then throw (.refused ("No test named " ++ Text.quoted name ++ " found."))
      else throw .wrongKind
  | .unary op operand => do (← k.expr p operand).operateOne op
  | .binary op left right => do
    let v ← k.expr p left
    v.operate op (← k.expr p right)
  | .concat items => do
    let values ← items.mapM (k.expr p)
    if (← get).isEscaping && values.any (fun v => match v with | .text _ safe => safe | _ => false) then
      return .text (String.join (← values.mapM Value.escapedText)) true
    else return .plain (String.join (← values.mapM Value.shown))
  | .compare first rest => do return .bool (← comparisons k p (← k.expr p first) rest)
  | .both left right => do
    let v ← k.expr p left
    if ← v.truthy then k.expr p right else return v
  | .either left right => do
    let v ← k.expr p left
    if ← v.truthy then return v else k.expr p right
  | .negate operand => do return .bool !(← (← k.expr p operand).truthy)
  | .choose line test yes no => do
    if ← (← k.expr p test).truthy then k.expr p yes
    else
      match no with
      | some e => k.expr p e
      | none =>
        return .undefined ("the inline if-expression on line " ++ toString line ++
          " evaluated to false and no else section was defined.")

/-! ### Statements -/

/-- The first of some alternatives whose test holds, or what stands for none. -/
def runAlternatives (k : Evaluator) (p : Place) (orElse : List Statement) : List Statement → Run Unit
  | [] => k.body p orElse
  | .branch test body _ _ :: rest => do
    if ← (← k.expr p test).truthy then k.body p body else runAlternatives k p orElse rest
  | _ :: rest => runAlternatives k p orElse rest

/-- A macro as an object, with the place that it is written in. -/
def makeMacro (p : Place) (name : Option String) (uses : List String) (d : MacroSyntax Statement) :
    Run Value :=
  Run.make (.callable
    { name, definition := d, place := p, takesCaller := uses.contains "caller",
      takesNamed := uses.contains "kwargs" && !d.parameters.contains "kwargs",
      takesPlaced := uses.contains "varargs" && !d.parameters.contains "varargs" })

/-- Prints a statement; `uses` tells which of the special names of macros a body uses. -/
def statementStep (uses : MacroSyntax Statement → List String) (k : Evaluator) (p : Place) :
    Statement → Run Unit
  | .output items => items.forM fun item =>
    match item with
    | .data s => printText s
    | .value e => do printValue (← k.expr p e)
  | .assign target value => do
    needSpaces p target
    assign k p target (← k.expr p value)
  | .assignBlock target filter body => do
    let inside ← p.inner []
    let captured ← capture (k.body inside body)
    let v ←
      match filter with
      | none => pure captured
      | some e => do
        let found ← k.expr { inside with captured } e
        if (← get).isEscaping then pure (.text (← found.shown) true) else pure found
    assign k p target v
  | .loop target iter test isRecursive body orElse => do
    let sequence ← k.expr p iter
    let r : Recursion := { target, test, body, orElse, place := p }
    if isRecursive then printRaw (← capture (runLoop k r true 0 p.depth sequence))
    else runLoop k r false 0 p.depth sequence
  | .branch test body alternatives orElse => do
    if ← (← k.expr p test).truthy then k.body p body else runAlternatives k p orElse alternatives
  | .within targets values body => do
    let inside ← p.inner []
    (targets.zip values).forM fun (t, e) => do assign k inside t (← k.expr p e)
    k.body inside body
  | .autoescape value body => do
    let before := (← get).isEscaping
    let isEscaping ← (← k.expr p value).truthy
    let inside ← p.inner []
    modify fun m => { m with isEscaping }
    k.body inside body
    modify fun m => { m with isEscaping := before }
  | .block _ name isScoped isRequired _ => do
    let context ←
      if isScoped then do
        match ← Run.look p.context with
        | .context assigned given blocks =>
          let local_ := (← Place.visible plenty (some p.scope)).filterMap fun (n, v) => v.map (n, ·)
          Run.makeAt (.context [] (local_ ++ assigned ++ given) blocks)
        | _ => pure p.context
      else pure p.context
    if isRequired then throw (.refused ("Required block " ++ Text.quoted name ++ " not found"))
    runBlock k p.depth name context
  | .extend _ template => do
    let _ ← k.expr p template
    throw .wrongKind
  | .include template ignoreMissing => do
    let v ← k.expr p template
    match v with
    | .text .. => throw .wrongKind
    | .undefined _ => throw .wrongKind
    | v =>
      if ← v.truthy then throw .wrongKind
      else if ignoreMissing then return ()
      else throw .noTemplates
  | .importAs template _ => do
    let _ ← k.expr p template
    throw .wrongKind
  | .importFrom template _ => do
    let _ ← k.expr p template
    throw .wrongKind
  | .filtered filter body => do
    let inside ← p.inner []
    let captured ← capture (k.body inside body)
    printRaw (← k.expr { inside with captured } filter)
  | .macro_ _ name d => do p.assignName name (← makeMacro p (some name) (uses d) d)
  | .callBlock _ call d => do
    let caller ← makeMacro p none (uses d) d
    match call with
    | .call target args =>
      let v ← k.expr p target
      let (placed, named) ← arguments k p args
      if named.any fun e => e.1 == "caller" then throw .wrongKind
      printRaw (← k.call p.depth v placed (named ++ [("caller", caller)]))
    | e => printRaw (← k.expr p e)

/-- The evaluator with an amount of fuel, of which each nested part takes one unit. -/
def evaluator (uses : MacroSyntax Statement → List String) : (fuel : Nat) → Evaluator
  | 0 =>
    { expr := fun _ _ => throw .tooDeep
      body := fun _ _ => throw .tooDeep
      call := fun _ _ _ _ => throw .tooDeep
      next := fun _ => throw .tooDeep }
  | fuel + 1 =>
    let k : Unit → Evaluator := fun _ => evaluator uses fuel
    { expr := fun p e => exprStep (k ()) p e
      body := fun p body => body.forM fun s => statementStep uses (k ()) p s
      call := fun depth v placed named => callStep (k ()) depth v placed named
      next := fun a => nextStep (k ()) a }

end Stencil.Language
