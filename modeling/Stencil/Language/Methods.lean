import Stencil.Language.Access
import Stencil.Text.Case
import Stencil.Text.Cut

/-!
# Methods

What the methods of texts, lists, mappings and of the other objects of templates do.
-/

namespace Stencil.Language

/-- A parameter of a function: its name, and its default if it has one. -/
abbrev Parameter := String × Option Value

/-- A parameter that has to be given. -/
def needed (name : String) : Parameter := (name, none)

/-- A parameter with a default. -/
def optional (name : String) (value : Value) : Parameter := (name, some value)

/-- The values of parameters: those given by place, then those given by name, then the defaults. -/
def bind : List Parameter → List Value → List (String × Value) → Run (List Value)
  | [], [], [] => return []
  | [], _, _ => throw .wrongKind
  | (name, _) :: parameters, v :: placed, named => do
    if (named.lookup name).isSome then throw .wrongKind
    return v :: (← bind parameters placed named)
  | (name, default?) :: parameters, [], named => do
    match named.lookup name, default? with
    | some v, _ => return v :: (← bind parameters [] (named.filter fun e => e.1 != name))
    | none, some v => return v :: (← bind parameters [] named)
    | none, none => throw .wrongKind

/-- The values of parameters that can be given by place only. -/
def bindPlaced (parameters : List Parameter) (placed : List Value) (named : List (String × Value)) :
    Run (List Value) :=
  if named.isEmpty then bind parameters placed [] else throw .wrongKind

namespace Value

/-- A whole number. -/
def needWhole (v : Value) : Run Int :=
  match v.whole? with
  | some i => return i
  | none => throw .wrongKind

/-- A text. -/
def needText : Value → Run String
  | text s _ => return s
  | _ => throw .wrongKind

/-- A text or nothing. -/
def needTextOrNull : Value → Run (Option String)
  | null => return none
  | v => some <$> v.needText

/-- The part of a text that two bounds mark off, and where it starts. -/
def window (s : List Char) (start stop : Value) : Run (Option (Nat × List Char)) := do
  let size := s.length
  let clamp (i : Int) : Int := max 0 (if i < 0 then i + size else i)
  let first := clamp ((← start.bound).getD 0)
  let last := min (size : Int) (clamp ((← stop.bound).getD size))
  if first > last then return none
  else return some (first.toNat, (s.drop first.toNat).take (last - first).toNat)

/-- A text that is cut down at both ends, or at one of them. -/
def stripped (s : List Char) (chars : Option String) (left right : Bool) : List Char :=
  let p : Char → Bool :=
    match chars with
    | none => Text.isBlank
    | some set => fun c => set.toList.contains c
  let s := if left then s.dropWhile p else s
  if right then Text.dropRight p s else s

/-- Blanks on both sides that fill a text up to a width. -/
def padded (s : List Char) (left right : Nat) (filler : Char) : List Char :=
  List.replicate left filler ++ s ++ List.replicate right filler

/-- Whether a text has letters with a case and all of them pass a test. -/
def allCased (p : Char → Bool) (s : List Char) : Bool :=
  s.any p && s.all fun c => p c || (Text.lowerOf c == [c] && Text.upperOf c == [c])

/-- Whether a character is a capital letter. -/
def isUpperChar (c : Char) : Bool := Text.lowerOf c != [c]

/-- Whether a character is a small letter. -/
def isLowerChar (c : Char) : Bool := Text.upperOf c != [c] && Text.lowerOf c == [c]

/-- Whether one of the texts that a value gives passes a test. -/
def anyText (p : List Char → Bool) : Value → Run Bool
  | text s _ => return p s.toList
  | tuple items => items.anyM fun v => do return p (← v.needText).toList
  | _ => throw .wrongKind

/-- A method of a text. Texts cut out of a safe one are safe, and what is put into it is escaped. -/
def textMethod (k : Evaluator) (s : String) (safe : Bool) (name : String) (placed : List Value)
    (named : List (String × Value)) : Run Value := do
  let cs := s.toList
  let given (parameters : List Parameter) := bindPlaced parameters placed named
  let result (cs : List Char) : Value := .text (String.ofList cs) safe
  let inner (v : Value) : Run (List Char) := do
    match v with
    | .text t true => return t.toList
    | v => do
      let t ← v.needText
      return (if safe then escaped t else t).toList
  let none_ : Run Unit := do let _ ← given []
  let parts (found : List (List Char)) : Run Value := Run.list (found.map result)
  match name with
  | "upper" => none_; return .text (Text.toUpper s) safe
  | "lower" => none_; return .text (Text.toLower s) safe
  | "casefold" => none_; return .text (Text.toLower s) safe
  | "title" => none_; return .text (Text.toTitle s) safe
  | "capitalize" => none_; return .text (Text.capitalize s) safe
  | "swapcase" =>
    none_
    return result (cs.flatMap fun c => if isUpperChar c then Text.lowerOf c else Text.upperOf c)
  | "strip" | "lstrip" | "rstrip" =>
    match ← given [optional "chars" .null] with
    | [chars] => return result (stripped cs (← chars.needTextOrNull) (name != "rstrip") (name != "lstrip"))
    | _ => throw .wrongKind
  | "split" | "rsplit" =>
    match ← bind [optional "sep" .null, optional "maxsplit" (.int (-1))] placed named with
    | [sep, limit] =>
      let limit ← limit.needWhole
      let limit := if limit < 0 then cs.length else limit.toNat
      match ← sep.needTextOrNull with
      | none => parts (if name = "split" then Text.words (cs.length + 1) limit cs
          else Text.wordsRight limit cs)
      | some "" => throw (.wrongValue "empty separator")
      | some sep => parts (if name = "split" then Text.splitWord sep.toList limit cs
          else Text.splitWordRight sep.toList limit cs)
    | _ => throw .wrongKind
  | "splitlines" =>
    match ← bind [optional "keepends" (.bool false)] placed named with
    | [keep] => parts (Text.lines (← keep.truthy) cs)
    | _ => throw .wrongKind
  | "partition" | "rpartition" =>
    match ← given [needed "sep"] with
    | [sep] =>
      let word := (← sep.needText).toList
      if word.isEmpty then throw (.wrongValue "empty separator")
      let at? := if name = "partition" then Text.indexOf? word cs else Text.lastIndexOf? word cs
      let found :=
        match at? with
        | some i => [cs.take i, word, cs.drop (i + word.length)]
        | none => if name = "partition" then [cs, [], []] else [[], [], cs]
      return .tuple (found.map result)
    | _ => throw .wrongKind
  | "replace" =>
    match ← given [needed "old", needed "new", optional "count" (.int (-1))] with
    | [old, new, count] =>
      let old ← inner old
      let new ← inner new
      let count ← count.needWhole
      return result (if count < 0 then Text.replaceAll old new cs
        else Text.replaceFirst old new count.toNat cs)
    | _ => throw .wrongKind
  | "startswith" | "endswith" =>
    match ← given [needed "affix", optional "start" .null, optional "end" .null] with
    | [affix, start, stop] =>
      match ← window cs start stop with
      | none => return .bool false
      | some (_, part) =>
        return .bool (← affix.anyText fun t =>
          if name = "startswith" then t.isPrefixOf part else t.isSuffixOf part)
    | _ => throw .wrongKind
  | "removeprefix" =>
    match ← given [needed "affix"] with
    | [affix] => return result ((Text.dropPrefix? (← affix.needText).toList cs).getD cs)
    | _ => throw .wrongKind
  | "removesuffix" =>
    match ← given [needed "affix"] with
    | [affix] =>
      let t := (← affix.needText).toList
      return result (if t.isSuffixOf cs then cs.take (cs.length - t.length) else cs)
    | _ => throw .wrongKind
  | "find" | "index" | "rfind" | "rindex" =>
    match ← given [needed "word", optional "start" .null, optional "end" .null] with
    | [word, start, stop] =>
      let word := (← word.needText).toList
      let found ← do
        match ← window cs start stop with
        | none => pure none
        | some (first, part) =>
          let at? := if name.startsWith "r" then Text.lastIndexOf? word part
            else Text.indexOf? word part
          pure (at?.map (· + first))
      match found with
      | some i => return .int i
      | none =>
        if name.endsWith "find" then return .int (-1)
        else throw (.wrongValue "substring not found")
    | _ => throw .wrongKind
  | "count" =>
    match ← given [needed "word", optional "start" .null, optional "end" .null] with
    | [word, start, stop] =>
      let word := (← word.needText).toList
      match ← window cs start stop with
      | none => return .int 0
      | some (_, part) => return .int (Text.countWord word part)
    | _ => throw .wrongKind
  | "join" =>
    match ← given [needed "items"] with
    | [items] =>
      let texts ← (← items.items k).mapM inner
      return result (List.intercalate cs texts)
    | _ => throw .wrongKind
  | "isdigit" => none_; return .bool (!cs.isEmpty && cs.all Text.isDigitSign)
  | "isdecimal" => none_; return .bool (!cs.isEmpty && cs.all Text.isDecimal)
  | "isspace" => none_; return .bool (!cs.isEmpty && cs.all Text.isBlank)
  | "isascii" => none_; return .bool (cs.all fun c => c.toNat < 128)
  | "isalpha" =>
    none_
    return .bool (!cs.isEmpty && cs.all fun c => Text.isNameStart c && c != '_')
  | "isalnum" => none_; return .bool (!cs.isEmpty && cs.all fun c => Text.isWord c && c != '_')
  | "isupper" => none_; return .bool (allCased isUpperChar cs)
  | "islower" => none_; return .bool (allCased isLowerChar cs)
  | "istitle" =>
    none_
    return .bool (Text.toTitle s == s && cs.any fun c => isUpperChar c || isLowerChar c)
  | "center" | "ljust" | "rjust" =>
    match ← given [needed "width", optional "fillchar" (.plain " ")] with
    | [width, filler] =>
      match (← inner filler) with
      | [filler] =>
        let missing := ((← width.needWhole) - cs.length).toNat
        let width := cs.length + missing
        let left := missing / 2 + (if missing % 2 = 1 ∧ width % 2 = 1 then 1 else 0)
        return result (match name with
          | "center" => padded cs left (missing - left) filler
          | "ljust" => padded cs 0 missing filler
          | _ => padded cs missing 0 filler)
      | _ => throw .wrongKind
    | _ => throw .wrongKind
  | "zfill" =>
    match ← given [needed "width"] with
    | [width] =>
      let missing := ((← width.needWhole) - cs.length).toNat
      match cs with
      | c :: rest =>
        if c = '+' ∨ c = '-' then return result (c :: padded rest missing 0 '0')
        else return result (padded cs missing 0 '0')
      | [] => return result (padded cs missing 0 '0')
    | _ => throw .wrongKind
  | _ => throw .wrongKind

/-- The position of the first item that equals a value. -/
def positionOf? (v : Value) : List Value → Run (Option Nat)
  | [] => return none
  | w :: rest => do
    if identical v w then return some 0
    else if ← same w v then return some 0
    else return (← positionOf? v rest).map (· + 1)

/-- How many items equal a value. -/
def countOf (v : Value) : List Value → Run Nat
  | [] => return 0
  | w :: rest => do
    let isSame ← if identical v w then pure true else same w v
    return (← countOf v rest) + (if isSame then 1 else 0)

/-- The first position from `start` to before `stop` of an item that equals a value. -/
def indexIn (items : List Value) (v start stop : Value) (complaint : String) : Run Value := do
  let size := items.length
  let clamp (i : Int) : Nat := (max 0 (if i < 0 then i + size else i)).toNat
  let first := clamp ((← start.bound).getD 0)
  let last := min size (clamp ((← stop.bound).getD size))
  match ← positionOf? v ((items.take last).drop first) with
  | some i => return .int (first + i : Nat)
  | none => throw (.wrongValue complaint)

/-- A method of a sequence that does not change it. -/
def sequenceMethod (items : List Value) (complaint : Value → Run String) (name : String)
    (placed : List Value) (named : List (String × Value)) : Run Value := do
  match name with
  | "count" =>
    match ← bindPlaced [needed "value"] placed named with
    | [v] => return .int (← countOf v items)
    | _ => throw .wrongKind
  | _ =>
    match ← bindPlaced [needed "value", optional "start" .null, optional "stop" .null] placed named with
    | [v, start, stop] => indexIn items v start stop (← complaint v)
    | _ => throw .wrongKind

/-- Sorted runs of values with their keys, merged into one: of two with equal keys the left one first. -/
def mergeKeyed (before : Value → Value → Run Bool) : (fuel : Nat) → List (Value × Value) →
    List (Value × Value) → List (Value × Value) → Run (List (Value × Value))
  | 0, done, left, right => return done.reverse ++ left ++ right
  | _, done, [], right => return done.reverse ++ right
  | _, done, left, [] => return done.reverse ++ left
  | fuel + 1, done, l :: left, r :: right => do
    if ← before r.1 l.1 then mergeKeyed before fuel (r :: done) (l :: left) right
    else mergeKeyed before fuel (l :: done) left (r :: right)

/-- Values sorted by their keys; those with equal keys keep their order. -/
def sortKeyed (before : Value → Value → Run Bool) : (fuel : Nat) → List (Value × Value) →
    Run (List (Value × Value))
  | 0, pairs => return pairs
  | fuel + 1, pairs => do
    if pairs.length ≤ 1 then return pairs
    else
      let half := pairs.length / 2
      let left ← sortKeyed before fuel (pairs.take half)
      let right ← sortKeyed before fuel (pairs.drop half)
      mergeKeyed before (pairs.length + 1) [] left right

/-- Values sorted by keys, or the other way round with equal ones in order all the same. -/
def sorted (pairs : List (Value × Value)) (reversed : Bool) : Run (List Value) := do
  let pairs := if reversed then pairs.reverse else pairs
  let found ← sortKeyed (ordered .lt) (pairs.length + 1) pairs
  let found := found.map (·.2)
  return if reversed then found.reverse else found

/-- A method of a list. -/
def listMethod (k : Evaluator) (a : Address) (items : List Value) (name : String) (placed : List Value)
    (named : List (String × Value)) : Run Value := do
  let given (parameters : List Parameter) := bindPlaced parameters placed named
  let become (items : List Value) : Run Value := do
    Run.put a (.list items)
    return .null
  match name with
  | "append" =>
    match ← given [needed "item"] with
    | [v] => become (items ++ [v])
    | _ => throw .wrongKind
  | "extend" =>
    match ← given [needed "items"] with
    | [v] => become (items ++ (← v.items k))
    | _ => throw .wrongKind
  | "insert" =>
    match ← given [needed "index", needed "item"] with
    | [i, v] =>
      let i ← i.needWhole
      let i := (max 0 (if i < 0 then i + items.length else i)).toNat
      become (items.take i ++ v :: items.drop i)
    | _ => throw .wrongKind
  | "pop" =>
    match ← given [optional "index" (.int (-1))] with
    | [i] =>
      match position? items.length (← i.needWhole) with
      | none => throw .noSuchIndex
      | some i =>
        Run.put a (.list (items.eraseIdx i))
        return (items[i]?).getD .null
    | _ => throw .wrongKind
  | "remove" =>
    match ← given [needed "value"] with
    | [v] =>
      match ← positionOf? v items with
      | none => throw (.wrongValue "list.remove(x): x not in list")
      | some i => become (items.eraseIdx i)
    | _ => throw .wrongKind
  | "clear" =>
    let _ ← given []
    become []
  | "copy" =>
    let _ ← given []
    Run.list items
  | "reverse" =>
    let _ ← given []
    become items.reverse
  | "sort" =>
    if !placed.isEmpty then throw .wrongKind
    match ← bind [optional "key" .null, optional "reverse" (.bool false)] placed named with
    | [.null, reverse] =>
      become (← sorted (items.map fun v => (v, v)) ((← reverse.needWhole) != 0))
    | _ => throw .wrongKind
  | _ => sequenceMethod items (fun v => return (← v.spelled) ++ " is not in list") name placed named

/-- The entries that a value and names give to a mapping. -/
def entriesFrom (k : Evaluator) (source : Option Value) (named : List (String × Value)) :
    Run (List (Value × Value)) := do
  let named := named.map fun (n, v) => (plain n, v)
  let pairs (v : Value) : Run (List (Value × Value)) := do
    let items ← v.items k
    items.zipIdx.mapM fun (item, i) => do
      match ← (← item.iterator?).mapM fun a => drain k a plenty [] with
      | none => throw .wrongKind
      | some [key, value] => return (key, value)
      | some parts =>
        throw (.wrongValue ("dictionary update sequence element #" ++ toString i ++ " has length " ++
          toString parts.length ++ "; 2 is required"))
  let given ←
    match source with
    | none => pure []
    | some (.undefined m) => throw (.undefined m)
    | some (.object a) => do
      match ← Run.look a with
      | .dict entries => pure entries
      | _ => pairs (.object a)
    | some v => pairs v
  putEntries (← putEntries [] given) named

/-- A method of a mapping. -/
def dictMethod (k : Evaluator) (a : Address) (entries : List (Value × Value)) (name : String)
    (placed : List Value) (named : List (String × Value)) : Run Value := do
  let given (parameters : List Parameter) := bindPlaced parameters placed named
  let none_ : Run Unit := do let _ ← given []
  match name with
  | "get" =>
    match ← given [needed "key", optional "default" .null] with
    | [key, d] => return (← lookUp? entries key).getD d
    | _ => throw .wrongKind
  | "keys" => none_; return .view .keys a
  | "values" => none_; return .view .values a
  | "items" => none_; return .view .entries a
  | "clear" =>
    none_
    Run.put a (.dict [])
    return .null
  | "copy" => none_; Run.make (.dict entries)
  | "pop" =>
    if !named.isEmpty then throw .wrongKind
    let (key, d) ←
      match placed with
      | [key] => pure (key, none)
      | [key, d] => pure (key, some d)
      | _ => throw .wrongKind
    match ← lookUp? entries key, d with
    | some v, _ =>
      Run.put a (.dict (← removeEntry key entries))
      return v
    | none, some d => return d
    | none, none => throw .noSuchKey
  | "popitem" =>
    none_
    match entries.getLast? with
    | none => throw .noSuchKey
    | some (key, v) =>
      Run.put a (.dict entries.dropLast)
      return .tuple [key, v]
  | "setdefault" =>
    match ← given [needed "key", optional "default" .null] with
    | [key, d] =>
      match ← lookUp? entries key with
      | some v => return v
      | none =>
        Run.put a (.dict (entries ++ [(key, d)]))
        return d
    | _ => throw .wrongKind
  | "update" =>
    match placed with
    | [] | [_] =>
      let more ← entriesFrom k placed.head? named
      Run.put a (.dict (← putEntries entries more))
      return .null
    | _ => throw .wrongKind
  | _ => throw .wrongKind

/-- A method of a loop. -/
def loopMethod (a : Address) (l : Loop) (name : String) (placed : List Value)
    (named : List (String × Value)) : Run Value := do
  if !named.isEmpty then throw .wrongKind
  match name with
  | "cycle" =>
    if placed.isEmpty then throw .wrongKind
    else return (placed[(l.taken - 1) % placed.length]?).getD .null
  | _ =>
    let isSame ←
      match l.lastChanged with
      | some last => sameItems same last placed
      | none => pure false
    if isSame then return .bool false
    else
      Run.put a (.loop { l with lastChanged := some placed })
      return .bool true

/-- Calls a method. -/
def callMethod (k : Evaluator) (receiver : Value) (name : String) (placed : List Value)
    (named : List (String × Value)) : Run Value := do
  match receiver with
  | text s safe => textMethod k s safe name placed named
  | tuple items =>
    sequenceMethod items (fun _ => return "tuple.index(x): x not in tuple") name placed named
  | range start stop step =>
    let numbers := (List.range (rangeSize start stop step)).map fun (n : Nat) =>
      Value.int (start + (n : Int) * step)
    sequenceMethod numbers (fun v => return (← v.spelled) ++ " is not in range") name placed named
  | object a =>
    match ← Run.look a with
    | .list items => listMethod k a items name placed named
    | .dict entries => dictMethod k a entries name placed named
    | .loop l => loopMethod a l name placed named
    | .cycler items position =>
      let _ ← bindPlaced [] placed named
      match name with
      | "next" =>
        Run.put a (.cycler items ((position + 1) % items.length))
        return (items[position]?).getD .null
      | _ =>
        Run.put a (.cycler items 0)
        return .null
    | _ => throw .wrongKind
  | _ => throw .wrongKind

/-- Calls a function that every template has. -/
def callFunction (k : Evaluator) (f : Function) (placed : List Value) (named : List (String × Value)) :
    Run Value := do
  match f with
  | .range =>
    if !named.isEmpty then throw .wrongKind
    match ← placed.mapM needWhole with
    | [stop] => return .range 0 stop 1
    | [start, stop] => return .range start stop 1
    | [start, stop, step] =>
      if step = 0 then throw (.wrongValue "range() arg 3 must not be zero")
      else return .range start stop step
    | _ => throw .wrongKind
  | .dict | .space =>
    match placed with
    | [] | [_] =>
      let entries ← entriesFrom k placed.head? named
      Run.make (if f = .dict then .dict entries else .space entries)
    | _ => throw .wrongKind
  | .joiner =>
    match ← bind [optional "sep" (.plain ", ")] placed named with
    | [separator] => Run.make (.joiner separator false)
    | _ => throw .wrongKind
  | .cycler =>
    if !named.isEmpty then throw .wrongKind
    else if placed.isEmpty then throw .disturbed
    else Run.make (.cycler placed 0)

end Value

end Stencil.Language
