import Stencil.Language.Iterate

/-!
# Parts of values

`v.name` and `v[key]` both find attributes and items: the first looks for an attribute and then for an
item of that name, the second the other way round. What there is not is undefined.
-/

namespace Stencil.Language

namespace Value

/-- The methods of texts. -/
def textMethods : List String :=
  ["capitalize", "casefold", "center", "count", "endswith", "find", "index", "isalnum", "isalpha",
   "isascii", "isdecimal", "isdigit", "islower", "isspace", "istitle", "isupper", "join", "ljust",
   "lower", "lstrip", "partition", "removeprefix", "removesuffix", "replace", "rfind", "rindex",
   "rjust", "rpartition", "rsplit", "rstrip", "split", "splitlines", "startswith", "strip",
   "swapcase", "title", "upper", "zfill"]

/-- The methods of lists. -/
def listMethods : List String :=
  ["append", "clear", "copy", "count", "extend", "index", "insert", "pop", "remove", "reverse", "sort"]

/-- The methods of mappings. -/
def dictMethods : List String :=
  ["clear", "copy", "get", "items", "keys", "pop", "popitem", "setdefault", "update", "values"]

/-- An attribute of a loop. -/
def loopAttribute? (k : Evaluator) (a : Address) (l : Loop) (name : String) : Run (Option Value) := do
  let size : Run Int := do return (← l.size k a)
  match name with
  | "index" => return some (.int l.taken)
  | "index0" => return some (.int (l.taken - 1))
  | "revindex" => return some (.int ((← size) - l.taken + 1))
  | "revindex0" => return some (.int ((← size) - l.taken))
  | "first" => return some (.bool (l.taken == 1))
  | "last" => return some (.bool (← l.peek k a).isNone)
  | "length" => return some (.int (← size))
  | "depth" => return some (.int (l.outer + 1))
  | "depth0" => return some (.int l.outer)
  | "previtem" => return some (l.previous.getD (.undefined "there is no previous item"))
  | "nextitem" => return some ((← l.peek k a).getD (.undefined "there is no next item"))
  | "cycle" | "changed" => return some (.method (.object a) name)
  | _ => return none

/-- An attribute of an object. -/
def objectAttribute? (k : Evaluator) (a : Address) (name : String) : Run (Option Value) := do
  let method (names : List String) : Option Value :=
    if names.contains name then some (.method (.object a) name) else none
  match ← Run.look a with
  | .list _ => return method listMethods
  | .dict _ => return method dictMethods
  | .space entries => entry? same (.plain name) entries
  | .cycler items position =>
    match name with
    | "current" => return items[position]?
    | "pos" => return some (.int position)
    | "items" => return some (.tuple items)
    | _ => return method ["next", "reset"]
  | .joiner separator isUsed =>
    match name with
    | "sep" => return some separator
    | "used" => return some (.bool isUsed)
    | _ => return none
  | .loop l => loopAttribute? k a l name
  | .callable m =>
    match name with
    | "name" => return some (match m.name with | some n => .plain n | none => .null)
    | "arguments" => return some (.tuple (m.definition.parameters.map .plain))
    | "catch_kwargs" => return some (.bool m.takesNamed)
    | "catch_varargs" => return some (.bool m.takesPlaced)
    | "caller" => return some (.bool m.takesCaller)
    | _ => return none
  | .blocks context =>
    match ← Run.look context with
    | .context _ _ blocks =>
      if (blocks.lookup name).isSome then some <$> Run.make (.block name context) else return none
    | _ => return none
  | .block block _ =>
    match name with
    | "name" => return some (.plain block)
    | "super" =>
      return some (.undefined ("there is no parent block called " ++ Text.quoted block ++ "."))
    | _ => return none
  | _ => return none

/-- An attribute of a value, if it has one of that name. -/
def attribute? (k : Evaluator) (name : String) : Value → Run (Option Value)
  | undefined m => throw (.undefined m)
  | object a => objectAttribute? k a name
  | v@(text ..) => return if textMethods.contains name then some (.method v name) else none
  | v@(tuple _) => return if ["count", "index"].contains name then some (.method v name) else none
  | v@(range start stop step) =>
    match name with
    | "start" => return some (.int start)
    | "stop" => return some (.int stop)
    | "step" => return some (.int step)
    | "count" | "index" => return some (.method v name)
    | _ => return none
  | other (.date d) => return (dayPart d).map .int
  | other (.moment m) =>
    match name with
    | "hour" => return some (.int m.hour)
    | "minute" => return some (.int m.minute)
    | "second" => return some (.int m.second)
    | "microsecond" => return some (.int m.micro)
    | _ => return (dayPart m.day).map .int
  | _ => return none
where
  /-- A part of a day. -/
  dayPart (d : Day) : Option Int :=
    match name with
    | "year" => some d.year
    | "month" => some d.month
    | "day" => some d.day
    | _ => none

/-- The position that an index names in a sequence, from its end if it is below zero. -/
def position? (size : Nat) (i : Int) : Option Nat :=
  let j := if i < 0 then i + size else i
  if 0 ≤ j ∧ j < size then some j.toNat else none

/-- The item of a key, if there is one. -/
def item? (k : Evaluator) (key : Value) : Value → Run (Option Value)
  | undefined m => throw (.undefined m)
  | text s safe =>
    return do
      let i ← position? s.length (← key.whole?)
      let c ← s.toList[i]?
      return .text (String.singleton c) safe
  | other (.bytes b) =>
    return do
      let i ← position? b.length (← key.whole?)
      return .int (← b[i]?).toNat
  | tuple items => return do items[← position? items.length (← key.whole?)]?
  | range start stop step =>
    return do
      let i ← position? (rangeSize start stop step) (← key.whole?)
      return .int (start + i * step)
  | object a => do
    match ← Run.look a with
    | .list items => return do items[← position? items.length (← key.whole?)]?
    | .dict entries => if ← key.isKey then entry? same key entries else return none
    | .blocks _ =>
      match key with
      | text name _ => objectAttribute? k a name
      | _ => return none
    | _ => return none
  | _ => return none

/-- What stands for a part that there is not. -/
def noPart (v key : Value) : Run Value := do
  let kind := Text.quoted (← v.kind)
  match key with
  | text name _ => return .undefined (kind ++ " has no attribute " ++ Text.quoted name)
  | key => return .undefined (kind ++ " has no element " ++ (← key.spelled))

/-- `v.name`. -/
def member (k : Evaluator) (v : Value) (name : String) : Run Value := do
  match ← attribute? k name v with
  | some found => return found
  | none =>
    match ← item? k (.plain name) v with
    | some found => return found
    | none => noPart v (.plain name)

/-- `v[key]`. -/
def part (k : Evaluator) (v key : Value) : Run Value := do
  match ← item? k key v with
  | some found => return found
  | none =>
    match key with
    | text name _ =>
      match ← attribute? k name v with
      | some found => return found
      | none => noPart v key
    | key => noPart v key

/-- The bounds of a part of a sequence: from a start to before a stop, in steps, both within it. -/
def sliceBounds (size : Nat) (start stop : Option Int) (step : Int) : Int × Int :=
  let clamp (low high : Int) (i : Int) : Int :=
    let j := if i < 0 then i + size else i
    max low (min high j)
  if step > 0 then ((start.map (clamp 0 size)).getD 0, (stop.map (clamp 0 size)).getD size)
  else
    ((start.map (clamp (-1) (size - 1))).getD (size - 1), (stop.map (clamp (-1) (size - 1))).getD (-1))

/-- A bound of a part: a whole number or nothing. -/
def bound : Value → Run (Option Int)
  | null => return none
  | v =>
    match v.whole? with
    | some i => return some i
    | none => throw .wrongKind

/-- `v[start:stop:step]`. -/
def slice (v start stop step : Value) : Run Value := do
  let bounds (size : Nat) : Run (Int × Int × Int) := do
    let step := (← step.bound).getD 1
    if step = 0 then throw (.wrongValue "slice step cannot be zero")
    let (first, last) := sliceBounds size (← start.bound) (← stop.bound) step
    return (first, last, step)
  let pick {α : Type} (items : List α) : Run (List α) := do
    let (first, last, step) ← bounds items.length
    let array := items.toArray
    return (List.range (rangeSize first last step)).filterMap fun (n : Nat) =>
      array[(first + (n : Int) * step).toNat]?
  match v with
  | undefined m => throw (.undefined m)
  | text s safe => return .text (String.ofList (← pick s.toList)) safe
  | other (.bytes b) => return .other (.bytes (← pick b))
  | tuple items => return .tuple (← pick items)
  | range lowest limit stride =>
    let (first, last, step) ← bounds (rangeSize lowest limit stride)
    return .range (lowest + first * stride) (lowest + last * stride) (stride * step)
  | object a =>
    match ← Run.look a with
    | .list items => Run.list (← pick items)
    | _ => throw .wrongKind
  | _ => throw .wrongKind

end Value

namespace Path

/-- The parts of the path that a value describes: a text has dots between its parts, and parts that are
all digits are numbers. -/
def ofValue (v : Value) (fallback : Option Value) : Run Path := do
  match v with
  | .null => return { parts := [], fallback }
  | .text s safe =>
    let parts ← (Text.splitWord ['.'] s.length s.toList).mapM fun (cs : List Char) => do
      if !cs.isEmpty && cs.all Text.isDigitSign then
        match Decimal.readInt? (String.ofList cs) with
        | some i => return Value.int i
        | none =>
          throw (.wrongValue ("invalid literal for int() with base 10: " ++
            Text.quoted (String.ofList cs)))
      else return Value.text (String.ofList cs) safe
    return { parts, fallback }
  | v => return { parts := [v], fallback }

/-- What a path leads to, from a value on. -/
def follow (k : Evaluator) (p : Path) (v : Value) : Run Value :=
  p.parts.foldlM (fun (v : Value) key => do
    let found ← v.part k key
    match found, p.fallback with
    | .undefined _, some d => return d
    | found, _ => return found) v

end Path

end Stencil.Language
