import Stencil.Language.Arithmetic
import Stencil.Text.Find

/-!
# Going through values

An iterator gives the items of a value one after another, each when it is asked for. Some iterators
have to evaluate a part of the template for their next item, so the functions here are given the
evaluator that they stand in.
-/

namespace Stencil.Language

/-- What evaluating parts of a template rests on. -/
structure Evaluator where
  /-- The value of an expression. -/
  expr : Place → Expr → Run Value
  /-- Prints statements. -/
  body : Place → List Statement → Run Unit
  /-- What a call gives, for its arguments by place and by name. -/
  call : (depth : Nat) → Value → List Value → List (String × Value) → Run Value
  /-- The next item of an iterator. -/
  next : Address → Run (Option Value)

/-- More steps than a rendering takes. -/
def plenty : Nat := 1000000000000

namespace Value

/-- Where the items of a value come from, if it can be gone through. -/
def source? : Value → Run (Option Source)
  | text s safe => return some (.items (s.toList.map fun c => .text (String.singleton c) safe))
  | other (.bytes b) => return some (.items (b.map fun x => .int x.toNat))
  | tuple items => return some (.items items)
  | undefined _ => return some (.items [])
  | range start stop step => return some (.numbers start step (rangeSize start stop step))
  | object a => do
    match ← Run.look a with
    | .list _ => return some (.list a 0)
    | .dict entries => return some (.entries .keys a 0 entries.length)
    | .set members => return some (.items members)
    | .loop _ => return some (.loop a)
    | _ => return none
  | view which a => return some (.entries which a 0 (← entriesAt a).length)
  | _ => return none

/-- An iterator over a value, if it can be gone through. -/
def iterator? (v : Value) : Run (Option Address) := do
  let own ←
    match v with
    | object a => do
      match ← Run.look a with
      | .iterator _ => pure (some a)
      | _ => pure none
    | _ => pure none
  match own with
  | some a => return some a
  | none =>
    match ← source? v with
    | some s => some <$> Run.makeAt (.iterator s)
    | none => return none

/-- An iterator over a value. -/
def iterator (v : Value) : Run Address := do
  match ← iterator? v with
  | some a => return a
  | none => throw .wrongKind

/-- The rest of an iterator's items before `taken`, which has them the last one first. -/
def drain (k : Evaluator) (a : Address) : (fuel : Nat) → (taken : List Value) → Run (List Value)
  | 0, taken => return taken.reverse
  | fuel + 1, taken => do
    match ← k.next a with
    | none => return taken.reverse
    | some v => drain k a fuel (v :: taken)

/-- All items of a value. -/
def items (k : Evaluator) (v : Value) : Run (List Value) := do
  match v with
  | tuple items => return items
  | v => drain k (← iterator v) plenty []

/-- Whether an item of an iterator equals a value; the items up to it are used up. -/
def occursFrom (k : Evaluator) (v : Value) (a : Address) : (fuel : Nat) → Run Bool
  | 0 => return false
  | fuel + 1 => do
    match ← k.next a with
    | none => return false
    | some w =>
      if identical v w then return true
      else if ← same w v then return true
      else occursFrom k v a fuel

/-- Whether a value is a part of another. -/
def isIn (k : Evaluator) (v whole : Value) : Run Bool := do
  match whole with
  | text s _ =>
    match v with
    | text t _ => return Text.occursIn t.toList s.toList
    | _ => throw .wrongKind
  | range start stop step =>
    match v.whole? with
    | some i => return (List.range (rangeSize start stop step)).any fun n => start + n * step == i
    | none => occursFrom k v (← iterator whole) plenty
  | object a =>
    match ← Run.look a with
    | .dict entries => return (← lookUp? entries v).isSome
    | .set members =>
      v.needKey
      among same v members
    | _ => occursFrom k v (← iterator whole) plenty
  | view .keys a => return (← lookUp? (← entriesAt a) v).isSome
  | whole => occursFrom k v (← iterator whole) plenty

end Value

namespace Loop

/-- Looks at the item of a loop that comes next, without taking it. -/
def peek (k : Evaluator) (a : Address) (l : Loop) : Run (Option Value) := do
  match l.upcoming with
  | some v => return some v
  | none =>
    let v ← k.next l.iterator
    Run.put a (.loop { l with upcoming := v })
    return v

/-- Takes the next item of a loop. -/
def take (k : Evaluator) (a : Address) (l : Loop) : Run (Option Value) := do
  let v ←
    match l.upcoming with
    | some v => pure (some v)
    | none => k.next l.iterator
  match v with
  | none => return none
  | some v =>
    Run.put a (.loop { l with upcoming := none, taken := l.taken + 1, previous := l.current,
                              current := some v })
    return some v

/-- How many items a loop has. Those that cannot be counted are all taken from their source now. -/
def size (k : Evaluator) (a : Address) (l : Loop) : Run Nat := do
  match l.length with
  | some n => return n
  | none =>
    match ← l.sequence.length? with
    | some n =>
      Run.put a (.loop { l with length := some n })
      return n
    | none =>
      let rest ← Value.drain k l.iterator plenty []
      let n := rest.length + l.taken + (if l.upcoming.isSome then 1 else 0)
      let iterator ← Run.makeAt (.iterator (.items rest))
      Run.put a (.loop { l with length := some n, iterator })
      return n

end Loop

end Stencil.Language
