import Stencil.Yaml.Node
import Stencil.Yaml.Scalar

/-!
# Reading YAML

The value that a text writes. A mapping may take over the entries of other mappings, which come before
its own and give way to them; of a key that occurs twice the last value counts, in the place of the
first. Of several faults the one nearest to the top counts, and of those the first.
-/

namespace Stencil.Yaml

/-- What all the usual tags start with. -/
def usualStem : String := "tag:yaml.org,2002:"

/-- The kinds of scalars by the names of their tags. -/
def scalarTags : List (String × ScalarKind) := [
  ("null", .null), ("bool", .bool), ("int", .int), ("float", .float), ("binary", .binary),
  ("timestamp", .moment), ("str", .text), ("merge", .merge), ("value", .value)]

/-- The name of a usual tag. -/
def usualName? (uri : String) : Option String :=
  if usualStem.toList.isPrefixOf uri.toList then
    some (String.ofList (uri.toList.drop usualStem.length))
  else none

namespace Node

/-- The kind of scalar that a node is meant to be. -/
def kind? : Node → Option ScalarKind
  | scalar .implicit text => some (kindOf text)
  | scalar .natural _ => some .text
  | scalar (.named uri) _ | sequence (.named uri) _ | mapping (.named uri) _ =>
    (usualName? uri).bind fun name => scalarTags.lookup name
  | _ => none

/-- The name of the collection that a node is meant to be. -/
def collection? : Node → Option String
  | sequence .natural _ | sequence .implicit _ => some "seq"
  | mapping .natural _ | mapping .implicit _ => some "map"
  | scalar (.named uri) _ | sequence (.named uri) _ | mapping (.named uri) _ => usualName? uri
  | scalar .. => none

mutual

/-- The text of a scalar; a mapping may have one under the key for its value. -/
def text? : Node → Option String
  | scalar _ text => some text
  | sequence .. => none
  | mapping _ entries => textOf? entries

/-- The text under the key for the value of a mapping. -/
def textOf? : List (Node × Node) → Option String
  | [] => none
  | (k, v) :: rest => if k.kind? = some .value then text? v else textOf? rest

end

mutual

/-- The entries of a mapping, those that it takes over first. -/
def spread : Node → Except Fault (List (Node × Node))
  | mapping _ entries => do
    let (taken, own) ← spreadEntries entries
    return taken ++ own
  | _ => .error .malformed

/-- The entries that a mapping takes over, and its own. -/
def spreadEntries : List (Node × Node) → Except Fault (List (Node × Node) × List (Node × Node))
  | [] => .ok ([], [])
  | (k, v) :: rest => do
    if k.kind? = some .merge then
      let here ← spreadMerged v
      let (taken, own) ← spreadEntries rest
      return (here ++ taken, own)
    else
      let (taken, own) ← spreadEntries rest
      return (taken, (k, v) :: own)

/-- The entries of a mapping that is taken over, or of a sequence of them, the first ones last. -/
def spreadMerged : Node → Except Fault (List (Node × Node))
  | mapping _ entries => do
    let (taken, own) ← spreadEntries entries
    return taken ++ own
  | sequence _ items => spreadItems items
  | scalar .. => .error .malformed

/-- The entries of mappings, those of the last one first. -/
def spreadItems : List Node → Except Fault (List (Node × Node))
  | [] => .ok []
  | node :: rest => do
    let here ← spread node
    return (← spreadItems rest) ++ here

end

end Node

/-- What is built of a node, or a fault with its depth. -/
abbrev Built (α : Type) := Except (Nat × Fault) α

/-- Two things built. Of two faults the one nearer to the top counts, else the first. -/
def both {α β : Type} (a : Built α) (b : Built β) : Built (α × β) :=
  match a, b with
  | .ok x, .ok y => .ok (x, y)
  | .error e, .ok _ => .error e
  | .ok _, .error f => .error f
  | .error e, .error f => .error (if f.1 < e.1 then f else e)

/-- Things built one after the other. -/
def allBuilt {α : Type} : List (Built α) → Built (List α)
  | [] => .ok []
  | b :: rest => (fun (x, xs) => x :: xs) <$> both b (allBuilt rest)

/-- A value as the key of a mapping; collections cannot be keys. -/
def asKey (depth : Nat) : Datum → Built Scalar
  | .scalar s => .ok s
  | _ => .error (depth, .malformed)

/-- What the entries of a mapping come to, built of their nodes. -/
def buildEntries (build : Node → Built Datum) (depth : Nat) (entries : List (Node × Node)) :
    Built (List (Scalar × Datum)) :=
  allBuilt <| entries.map fun (k, v) =>
    -- the key for a value is an ordinary text among the keys
    let key := if k.kind? = some .value then .ok (.text (k.text?.getD "=")) else build k
    both (key >>= asKey depth) (build v)

/-- The only entry of a mapping in a list of pairs, as a list of its key and its value. -/
def buildPair (build : Node → Built Datum) (depth : Nat) : Node → Built Datum
  | .mapping _ [(k, v)] => (fun (key, value) => .list [key, value]) <$> both (build k) (build v)
  | _ => .error (depth, .malformed)

/-- The value of a node at a depth. What a collection holds lies one deeper. -/
def build : (fuel depth : Nat) → Node → Built Datum
  | 0, depth, _ => .error (depth, .malformed)
  | fuel + 1, depth, node =>
    let inner := build fuel (depth + 1)
    match node.kind?, node.collection?, node with
    | some kind, _, node =>
      match node.text? with
      | some s => ((readScalar kind s).map Datum.scalar).mapError fun f => (depth, f)
      | none => .error (depth, .malformed)
    | none, some "seq", .sequence _ items => Datum.list <$> allBuilt (items.map inner)
    | none, some "omap", .sequence _ items | none, some "pairs", .sequence _ items =>
      Datum.list <$> allBuilt (items.map (buildPair inner (depth + 1)))
    | none, some "map", .mapping .. => do
      let entries ← node.spread.mapError fun f => (depth + 1, f)
      return .map (Datum.ofEntries (← buildEntries inner (depth + 1) entries))
    | none, some "set", .mapping .. => do
      let entries ← node.spread.mapError fun f => (depth + 1, f)
      let members ← buildEntries inner (depth + 1) entries
      return .set ((Datum.ofEntries members).map (·.1))
    | _, _, _ => .error (depth, .malformed)

mutual

/-- The number of nodes on the longest way down from a node. -/
def Node.height : Node → Nat
  | .scalar .. => 1
  | .sequence _ items => heightOfItems items + 1
  | .mapping _ entries => heightOfEntries entries + 1

/-- The height of the highest node of a list. -/
def heightOfItems : List Node → Nat
  | [] => 0
  | n :: rest => max n.height (heightOfItems rest)

/-- The height of the highest key or value. -/
def heightOfEntries : List (Node × Node) → Nat
  | [] => 0
  | (k, v) :: rest => max (max k.height v.height) (heightOfEntries rest)

end

/-- The value that a text writes; an empty text writes nothing. -/
def read (text : String) : Except Fault Datum := do
  match ← Node.read text with
  | none => return .null
  | some node => (build (node.height + 1) 0 node).mapError (·.2)

end Stencil.Yaml
