import Stencil.Json.Writer
import Stencil.Files.Path
import Stencil.Decimal.Fixed
import Stencil.Language.Tests

/-!
# Filters

What stands after a bar. A filter makes a value of the value before the bar and of its arguments. Those
that go through a value item by item give an iterator, which does its work when its items are asked
for.
-/

namespace Stencil.Language

/-- A filter. -/
inductive Filter where
  | abs | batch | capitalize | default | escape | first | float | indent | int | items | join | last
  | length | list | lower | map | max | min | reject | rejectattr | replace | reverse | round | safe
  | select | selectattr | sort | string | sum | title | trim | truncate | unique | upper
  | toJson | basename | dirname
  deriving Repr, DecidableEq

namespace Filter

/-- The names of the filters. -/
def names : List (String × Filter) :=
  [("abs", abs), ("batch", batch), ("capitalize", capitalize), ("count", length), ("d", default),
   ("default", default), ("e", escape), ("escape", escape), ("first", first), ("float", float),
   ("indent", indent), ("int", int), ("items", items), ("join", join), ("last", last),
   ("length", length), ("list", list), ("lower", lower), ("map", map), ("max", max), ("min", min),
   ("reject", reject), ("rejectattr", rejectattr), ("replace", replace), ("reverse", reverse),
   ("round", round), ("safe", safe), ("select", select), ("selectattr", selectattr), ("sort", sort),
   ("string", string), ("sum", sum), ("title", title), ("trim", trim), ("truncate", truncate),
   ("unique", unique), ("upper", upper), ("to_json", toJson), ("basename", basename),
   ("dirname", dirname)]

/-- The filter of a name. -/
def ofName? (name : String) : Option Filter := names.lookup name

/-- Whether there is a filter of a name. -/
def isKnown (name : String) : Bool := (ofName? name).isSome

/-- The parameters of a filter after the value. -/
def parameters : Filter → List Parameter
  | batch => [needed "linecount", optional "fill_with" .null]
  | default => [optional "default_value" (.plain ""), optional "boolean" (.bool false)]
  | float => [optional "default" (.float 0)]
  | indent => [optional "width" (.int 4), optional "first" (.bool false), optional "blank" (.bool false)]
  | int => [optional "default" (.int 0), optional "base" (.int 10)]
  | join => [optional "d" (.plain ""), optional "attribute" .null]
  | max | min => [optional "case_sensitive" (.bool false), optional "attribute" .null]
  | replace => [needed "old", needed "new", optional "count" .null]
  | round => [optional "precision" (.int 0), optional "method" (.plain "common")]
  | sort =>
    [optional "reverse" (.bool false), optional "case_sensitive" (.bool false),
     optional "attribute" .null]
  | sum => [optional "attribute" .null, optional "start" (.int 0)]
  | trim => [optional "chars" .null]
  | truncate =>
    [optional "length" (.int 255), optional "killwords" (.bool false), optional "end" (.plain "..."),
     optional "leeway" .null]
  | unique => [optional "case_sensitive" (.bool false), optional "attribute" .null]
  | _ => []

end Filter

namespace Value

/-- A text in small letters; any other value stays. -/
def ignoreCase : Value → Value
  | text s safe => .text (Text.toLower s) safe
  | v => v

/-- A double as a value is read as one; `none` where it cannot be. -/
def float? : Value → Run (Option Float)
  | undefined m => throw (.undefined m)
  | text s _ => return Decimal.readFloat? s
  | v =>
    match v.number? with
    | some n => some <$> (doubleOf n : Except Fault Float)
    | none => return none

/-- The whole number that a double is cut down to. -/
def wholeOfFloat? (x : Float) : Option Int := Decimal.truncate? x

/-- A whole number as a value is read as one. A text that is no whole number may still be a number that
can be cut down to one. -/
def intOr (v d : Value) (base : Int) : Run Value := do
  let direct ←
    match v with
    | undefined m => throw (.undefined m)
    | text s _ =>
      if base = 0 then
        let t := Text.trim s
        let (_, cs) := Decimal.splitSign t.toList
        match cs with
        | '0' :: 'x' :: _ | '0' :: 'X' :: _ => pure (Decimal.readIntBase? 16 (some 'x') s)
        | '0' :: 'o' :: _ | '0' :: 'O' :: _ => pure (Decimal.readIntBase? 8 (some 'o') s)
        | '0' :: 'b' :: _ | '0' :: 'B' :: _ => pure (Decimal.readIntBase? 2 (some 'b') s)
        | '0' :: _ => pure (if cs.all (fun c => c = '0' ∨ c = '_') then Decimal.readInt? s else none)
        | _ => pure (Decimal.readInt? s)
      else if base < 2 ∨ base > 36 then pure none
      else
        let letter := match base with | 16 => some 'x' | 8 => some 'o' | 2 => some 'b' | _ => none
        pure (Decimal.readIntBase? base.toNat letter s)
    | float x =>
      if x.isNaN then pure none
      else
        match wholeOfFloat? x with
        | some i => pure (some i)
        | none => throw .overflow
    | v => pure v.whole?
  match direct with
  | some i => return .int i
  | none =>
    match ← v.float? with
    | none => return d
    | some x =>
      match wholeOfFloat? x with
      | some i => return .int i
      | none => return d

/-- Characters after which a word of a title starts. -/
def startsWord (c : Char) : Bool := c == '-' || Text.isBlank c || "(\x7b[<".toList.contains c

/-- A text as a title: words are divided by white space, dashes and opening brackets. -/
def titleText (s : String) : String :=
  let pieces := cut s.toList
  String.ofList (pieces.flatMap fun piece =>
    match piece with
    | [] => []
    | c :: rest => Text.upperOf c ++ (Text.toLower (String.ofList rest)).toList)
where
  /-- The words of a text and what stands between them. -/
  cut (cs : List Char) : List (List Char) :=
    cs.splitBy fun a b => startsWord a == startsWord b

/-- Lines moved to the right. -/
def indented (s indention : String) (first blank : Bool) : String :=
  let s := s ++ "\n"
  let lines := (Text.lines false s.toList).map String.ofList
  let body :=
    if blank then ("\n" ++ indention).intercalate lines
    else
      match lines with
      | [] => ""
      | line :: rest =>
        if rest.isEmpty then line
        else line ++ "\n" ++ "\n".intercalate (rest.map fun l => if l.isEmpty then l else indention ++ l)
  if first then indention ++ body else body

/-- A value as data that can be written as JSON, as far as it can. -/
def datum? : (fuel : Nat) → (above : List Address) → Value → Run (Option Datum)
  | 0, _, _ => throw .tooDeep
  | _, _, null => return some .null
  | _, _, bool b => return some (.bool b)
  | _, _, int i => return some (.int i)
  | _, _, float x => return some (.float x)
  | _, _, text s _ => return some (.text s)
  | _, _, other s => return some (.scalar s)
  | fuel + 1, above, tuple items => do
    return (← items.mapM (datum? fuel above)).mapM id |>.map .list
  | fuel + 1, above, object a => do
    if above.contains a then throw (.wrongValue "Circular reference detected")
    let inner := datum? fuel (a :: above)
    match ← Run.look a with
    | .list items => return (← items.mapM inner).mapM id |>.map .list
    | .dict entries =>
      let found ← entries.mapM fun (key, v) => do
        let value ← inner v
        let key : Option Scalar ←
          match ← inner key with
          | some (.scalar s) => pure (some s)
          | _ => pure none
        return key.bind fun key => value.map fun value => (key, value)
      return found.mapM id |>.map .map
    | .set members =>
      let found ← members.mapM fun v => do
        match ← inner v with
        | some (.scalar s) => return some s
        | _ => return none
      return found.mapM id |>.map .set
    | _ => return none
  | _, _, _ => return none

/-- A value as JSON. -/
def json (v : Value) : Run Value := do
  match ← datum? levels [] v with
  | none => throw .wrongKind
  | some d =>
    match Json.write d with
    | .ok s => return plain s
    | .error _ => throw .wrongKind

/-- The last part of a path, or what is before it. -/
def pathPart (isLast : Bool) : Value → Run Value
  | text s safe => do
    let cs := s.toList
    let tail := (cs.reverse.takeWhile (· != '/')).reverse
    if isLast then return .text (String.ofList tail) safe
    else
      let head := cs.take (cs.length - tail.length)
      let head := if head.all (· == '/') then head else Text.dropRight (· == '/') head
      return .text (String.ofList head) safe
  | _ => throw .wrongKind

/-- The largest or the smallest item by its key; of several the first. -/
def extreme (better : Value → Value → Run Bool) : (best : Value × Value) → List (Value × Value) →
    Run Value
  | best, [] => return best.2
  | best, v :: rest => do
    if ← better v.1 best.1 then extreme better v rest else extreme better best rest

/-- A number rounded to a number of places, a half to the even neighbour. -/
def rounded (v places : Value) : Run Value := do
  match v, places with
  | float x, null =>
    match Decimal.round? x with
    | some i => return .int i
    | none => if x.isNaN then throw (.wrongValue "cannot convert float NaN to integer") else throw .overflow
  | float x, places => return .float (Decimal.roundTo x (← places.needWhole))
  | v, places =>
    match v.whole?, places with
    | some i, null => return .int i
    | some i, places =>
      let places ← places.needWhole
      if places ≥ 0 then return .int i
      else
        let unit : Nat := Nat.pow 10 (-places).toNat
        let n := Decimal.roundDiv i.natAbs unit * unit
        return .int (if i < 0 then -(n : Int) else n)
    | none, _ => throw .wrongKind

/-- A number rounded up or down to a number of places. -/
def roundedTowards (up : Bool) (v places : Value) : Run Value := do
  let unit ← operate .pow (.int 10) places
  let scaled ← operate .mul v unit
  let whole : Int ←
    match scaled with
    | float x =>
      match if up then Decimal.ceil? x else Decimal.floor? x with
      | some i => pure i
      | none =>
        if x.isNaN then throw (.wrongValue "cannot convert float NaN to integer") else throw .overflow
    | v => v.needWhole
  operate .div (.int whole) unit

/-- What a value is paired with to be sorted: the attributes of it that several paths lead to. -/
def sortKey (k : Evaluator) (isCaseSensitive : Bool) (paths : List Path) (v : Value) : Run Value := do
  let found ← paths.mapM fun p => do
    let found ← p.follow k v
    return if isCaseSensitive then found else found.ignoreCase
  return .tuple found

/-- The paths to sort by: those that commas divide in a text. -/
def sortPaths (key : Value) : Run (List Path) := do
  match key with
  | text s safe =>
    (Text.splitWord [','] s.length s.toList).mapM fun cs =>
      Path.ofValue (.text (String.ofList cs) safe) none
  | v => return [← Path.ofValue v none]

/-- Applies a filter to a value. -/
def filtered (k : Evaluator) (f : Filter) (v : Value) (placed : List Value)
    (named : List (String × Value)) : Run Value := do
  let softly (change : String → String) : Run Value := do
    let (s, safe) ← v.soft
    return .text (change s) safe
  match f with
  | .map => Run.iterator (.delayed v (.map placed named))
  | .select => Run.iterator (.delayed v (.choose true false placed named))
  | .reject => Run.iterator (.delayed v (.choose false false placed named))
  | .selectattr => Run.iterator (.delayed v (.choose true true placed named))
  | .rejectattr => Run.iterator (.delayed v (.choose false true placed named))
  | f =>
    match f, ← bind f.parameters placed named with
    | .abs, [] =>
      match v.number? with
      | some (.whole i) => return .int i.natAbs
      | some (.double x) => return .float x.abs
      | none => throw .wrongKind
    | .batch, [size, filler] => Run.iterator (.delayed v (.batch size filler))
    | .capitalize, [] => softly Text.capitalize
    | .default, [d, boolean] =>
      match v with
      | undefined _ => return d
      | v => if (← boolean.truthy) && !(← v.truthy) then return d else return v
    | .escape, [] => return .text (← v.escapedText) true
    | .first, [] =>
      match ← k.next (← v.iterator) with
      | some item => return item
      | none => return .undefined "No first item, sequence was empty."
    | .float, [d] => return ((← v.float?).map .float).getD d
    | .indent, [width, first, blank] =>
      let indention ←
        match width with
        | text t _ => pure t
        | width => do pure (String.ofList (List.replicate (← width.needWhole).toNat ' '))
      match v with
      | undefined m => throw (.undefined m)
      | text s safe => return .text (indented s indention (← first.truthy) (← blank.truthy)) safe
      | _ => throw .wrongKind
    | .int, [d, base] => intOr v d (← base.needWhole)
    | .items, [] => Run.iterator (.delayed v .entries)
    | .join, [d, key] =>
      let items ← v.items k
      let items ←
        match key with
        | .null => pure items
        | key => do
          let path ← Path.ofValue key none
          items.mapM (path.follow k)
      let separator ← d.shown
      return plain (separator.intercalate (← items.mapM shown))
    | .last, [] =>
      let empty := undefined "No last item, sequence was empty."
      match v with
      | undefined _ => return empty
      | text s safe =>
        return match s.toList.getLast? with
          | some c => .text (String.singleton c) safe
          | none => empty
      | tuple items => return (items.getLast?).getD empty
      | range start stop step =>
        let n := rangeSize start stop step
        return if n = 0 then empty else .int (start + ((n : Int) - 1) * step)
      | view which a => return ((← viewItems which a).getLast?).getD empty
      | object a =>
        match ← Run.look a with
        | .list items => return (items.getLast?).getD empty
        | .dict entries => return ((entries.getLast?).map (·.1)).getD empty
        | _ => throw .wrongKind
      | _ => throw .wrongKind
    | .length, [] =>
      match v with
      | object a =>
        match ← Run.look a with
        | .loop l => return .int (← l.size k a)
        | _ =>
          match ← v.length? with
          | some n => return .int n
          | none => throw .wrongKind
      | v =>
        match ← v.length? with
        | some n => return .int n
        | none => throw .wrongKind
    | .list, [] => Run.list (← v.items k)
    | .lower, [] => softly Text.toLower
    | .upper, [] => softly Text.toUpper
    | .max, [isCaseSensitive, key] | .min, [isCaseSensitive, key] =>
      match ← v.items k with
      | [] => return .undefined "No aggregated item, sequence was empty."
      | first :: rest =>
        let path ← Path.ofValue key none
        let sensitive ← isCaseSensitive.truthy
        let keyed (item : Value) : Run (Value × Value) := do
          let found ← path.follow k item
          return (if sensitive then found else found.ignoreCase, item)
        let best ← keyed first
        let others ← rest.mapM keyed
        extreme (ordered (if f = .max then .gt else .lt)) best others
    | .replace, [old, new, count] =>
      let s ← v.shown
      let old ← old.shown
      let new ← new.shown
      let count ←
        match count with
        | .null => pure (-1)
        | count => count.needWhole
      let result := if count < 0 then Text.replaceAll old.toList new.toList s.toList
        else Text.replaceFirst old.toList new.toList count.toNat s.toList
      return plain (String.ofList result)
    | .reverse, [] =>
      match v with
      | text s safe => return .text (String.ofList s.toList.reverse) safe
      | undefined _ => Run.iterator (.items [])
      | tuple items => Run.iterator (.items items.reverse)
      | range start stop step =>
        let n := rangeSize start stop step
        Run.iterator (.numbers (start + ((n : Int) - 1) * step) (-step) n)
      | view which a => Run.iterator (.items (← viewItems which a).reverse)
      | object a =>
        match ← Run.look a with
        | .list items => Run.iterator (.backwards a items.length)
        | .dict entries => Run.iterator (.items (entries.map (·.1)).reverse)
        | _ =>
          match ← v.iterator? with
          | some a => Run.list (← drain k a plenty []).reverse
          | none => throw (.filterArgument "argument must be iterable")
      | v =>
        match ← v.iterator? with
        | some a => Run.list (← drain k a plenty []).reverse
        | none => throw (.filterArgument "argument must be iterable")
    | .round, [places, towards] =>
      match towards with
      | text "common" _ => rounded v places
      | text "ceil" _ => roundedTowards true v places
      | text "floor" _ => roundedTowards false v places
      | way =>
        way.needKey
        throw (.filterArgument "method must be common, ceil or floor")
    | .safe, [] => return .text (← v.shown) true
    | .sort, [reverse, isCaseSensitive, key] =>
      let paths ← sortPaths key
      let sensitive ← isCaseSensitive.truthy
      let items ← v.items k
      let pairs ← items.mapM fun item => do return (← sortKey k sensitive paths item, item)
      Run.list (← sorted pairs ((← reverse.needWhole) != 0))
    | .string, [] =>
      let (s, safe) ← v.soft
      return .text s safe
    | .sum, [key, start] =>
      let items ← v.items k
      let items ←
        match key with
        | .null => pure items
        | key => do
          let path ← Path.ofValue key none
          items.mapM (path.follow k)
      match start with
      | text .. => throw .wrongKind
      | start => items.foldlM (operate .add) start
    | .title, [] => return plain (titleText (← v.shown))
    | .trim, [chars] =>
      let (s, safe) ← v.soft
      return .text (String.ofList (stripped s.toList (← chars.needTextOrNull) true true)) safe
    | .truncate, [length, killwords, ending, leeway] =>
      let ending ← ending.needText
      let length ← length.needWhole
      let leeway ←
        match leeway with
        | .null => pure 5
        | leeway => leeway.needWhole
      if length < ending.length ∨ leeway < 0 then throw .violated
      match v with
      | text s safe =>
        if s.length ≤ length + leeway then return v
        else
          let kept := s.toList.take (length.toNat - ending.length)
          let cut := if ← killwords.truthy then kept
            else ((Text.splitWordRight [' '] 1 kept).head?).getD kept
          return joinTexts (String.ofList cut) safe ending safe
      | v =>
        match ← v.length? with
        | none => throw .wrongKind
        | some n => if n ≤ length + leeway then return v else throw .noSuchPart
    | .unique, [isCaseSensitive, key] =>
      Run.iterator (.delayed v (.unique (← isCaseSensitive.truthy) (← Path.ofValue key none)))
    | .toJson, [] => v.json
    | .basename, [] => if ← v.truthy then v.pathPart true else return plain ""
    | .dirname, [] => if ← v.truthy then v.pathPart false else return plain ""
    | _, _ => throw .wrongKind

/-- Applies a filter by its name, as another filter does. -/
def filteredByName (k : Evaluator) (name v : Value) (placed : List Value)
    (named : List (String × Value)) : Run Value := do
  match name with
  | text n _ =>
    match Filter.ofName? n with
    | some f => filtered k f v placed named
    | none => throw (.refused ("No filter named " ++ Text.quoted n ++ "."))
  | name => throw (.refused ("No filter named " ++ (← unknownName name)))
where
  /-- How a name that is no text is told. -/
  unknownName (name : Value) : Run String := do
    name.needKey
    let written ← name.spelled
    match name with
    | undefined m => return written ++ ". (" ++ m ++ "; did you forget to quote the callable name?)"
    | _ => return written ++ "."

/-- Applies a test by its name, as a filter does. -/
def satisfiesByName (k : Evaluator) (name v : Value) (placed : List Value)
    (named : List (String × Value)) : Run Bool := do
  match name with
  | text n _ =>
    match Test.ofName? n with
    | some t => satisfies k Filter.isKnown t v placed named
    | none => throw (.refused ("No test named " ++ Text.quoted n ++ "."))
  | name => throw (.refused ("No test named " ++ (← filteredByName.unknownName name)))

end Value

end Stencil.Language
