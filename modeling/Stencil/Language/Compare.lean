import Stencil.Language.Display

/-!
# Comparing values

Numbers are equal when their values are, whatever their form, and lists and mappings when their parts
are. Only values of like kinds have an order: numbers, texts, lists and tuples, the latter by their
first parts that differ.
-/

namespace Stencil.Language

namespace Value

/-- Whether two values are one and the same, so that they are equal without a look at them. -/
def identical : Value → Value → Bool
  | null, null => true
  | bool a, bool b => a == b
  | int a, int b => a == b
  | float x, float y => x.toBits == y.toBits
  | text s a, text t b => s == t && a == b
  | object a, object b => a == b
  | function f, function g => f == g
  | undefined s, undefined t => s == t
  | tuple [], tuple [] => true
  | _, _ => false

/-- Whether two lists of values are equal part by part. -/
def sameItems (same : Value → Value → Run Bool) : List Value → List Value → Run Bool
  | [], [] => return true
  | a :: as, b :: bs => do
    if identical a b then sameItems same as bs
    else if ← same a b then sameItems same as bs
    else return false
  | _, _ => return false

/-- Whether a value is among others. -/
def among (same : Value → Value → Run Bool) (v : Value) : List Value → Run Bool
  | [] => return false
  | w :: rest => do
    if identical v w then return true
    else if ← same w v then return true
    else among same v rest

/-- The value of a key among entries. -/
def entry? (same : Value → Value → Run Bool) (key : Value) :
    List (Value × Value) → Run (Option Value)
  | [] => return none
  | (k, v) :: rest => do
    if identical k key then return some v
    else if ← same k key then return some v
    else entry? same key rest

/-- Whether all entries of one mapping are entries of another. -/
def entriesWithin (same : Value → Value → Run Bool) (other : List (Value × Value)) :
    List (Value × Value) → Run Bool
  | [] => return true
  | (k, v) :: rest => do
    match ← entry? same k other with
    | none => return false
    | some w =>
      if identical v w then entriesWithin same other rest
      else if ← same v w then entriesWithin same other rest
      else return false

/-- Whether all of some values are among others. -/
def allAmong (same : Value → Value → Run Bool) (others : List Value) : List Value → Run Bool
  | [] => return true
  | v :: rest => do if ← among same v others then allAmong same others rest else return false

/-- What a view shows, as values. -/
def viewItems (which : View) (a : Address) : Run (List Value) := do
  let entries ← entriesAt a
  return match which with
    | .keys => entries.map (·.1)
    | .values => entries.map (·.2)
    | .entries => entries.map fun (k, v) => .tuple [k, v]

/-- Whether two values are equal, looked at as deep as the fuel goes. -/
def sameWithin : (fuel : Nat) → Value → Value → Run Bool
  | 0, _, _ => throw .tooDeep
  | fuel + 1, v, w => do
    let same := sameWithin fuel
    match v, w with
    | null, null => return true
    | text s _, text t _ => return s == t
    | other s, other t => return s.same t
    | tuple as, tuple bs => sameItems same as bs
    | undefined _, undefined _ => return true
    | range a b c, range d e f =>
      let n := rangeSize a b c
      return n == rangeSize d e f && (n == 0 || (a == d && (n == 1 || c == f)))
    | object a, object b =>
      if a == b then return true
      match ← Run.look a, ← Run.look b with
      | .list as, .list bs => sameItems same as bs
      | .dict as, .dict bs =>
        if as.length != bs.length then return false else entriesWithin same bs as
      | .set as, .set bs => if as.length != bs.length then return false else allAmong same bs as
      | _, _ => return false
    | view .values a, view .values b => return a == b
    | view which a, view which' b =>
      let as ← viewItems which a
      let bs ← viewItems which' b
      if as.length != bs.length then return false else allAmong same bs as
    | function f, function g => return f == g
    | method v n, method w m => if n == m then same v w else return false
    | v, w =>
      match v.number?, w.number? with
      | some m, some n => return m.same n
      | _, _ => return false

/-- Whether two values are equal. -/
def same (v w : Value) : Run Bool := sameWithin levels v w

/-- Whether a number comes before another. -/
def numberBefore : Scalar.Number → Scalar.Number → Bool
  | .whole i, .whole j => i < j
  | .whole i, .double y => Decimal.intLt i y
  | .double x, .whole j => Decimal.ltInt x j
  | .double x, .double y => x < y

/-- The orders that two values can stand in. -/
inductive Order where
  | lt
  | le
  | gt
  | ge
  deriving DecidableEq

/-- Whether two numbers stand in an order. -/
def Order.ofNumbers (o : Order) (m n : Scalar.Number) : Bool :=
  match o with
  | .lt => numberBefore m n
  | .le => numberBefore m n || m.same n
  | .gt => numberBefore n m
  | .ge => numberBefore n m || m.same n

/-- Whether two things stand in an order, when one way to compare them is at hand. -/
def Order.ofCompare (o : Order) (c : Ordering) : Bool :=
  match o with
  | .lt => c == .lt
  | .le => c != .gt
  | .gt => c == .gt
  | .ge => c != .lt

/-- Whether two lists of values stand in an order: by the first parts that differ, else by length. -/
def orderedItems (ordered : Value → Value → Run Bool) (o : Order) : List Value → List Value → Run Bool
  | a :: as, b :: bs => do
    if identical a b then orderedItems ordered o as bs
    else if ← same a b then orderedItems ordered o as bs
    else ordered a b
  | as, bs => return o.ofCompare (compare as.length bs.length)

/-- The days of a day and the moments of a moment in an order. -/
def compareDays (a b : Day) : Ordering :=
  (compare a.year b.year).then ((compare a.month b.month).then (compare a.day b.day))

/-- Whether two values stand in an order, looked at as deep as the fuel goes. -/
def orderedWithin (o : Order) : (fuel : Nat) → Value → Value → Run Bool
  | 0, _, _ => throw .tooDeep
  | fuel + 1, v, w => do
    let items := orderedItems (orderedWithin o fuel) o
    match v, w with
    | undefined m, _ => throw (.undefined m)
    | _, undefined m => throw (.undefined m)
    | text s _, text t _ => return o.ofCompare (compare s t)
    | tuple as, tuple bs => items as bs
    | other (.date a), other (.date b) => return o.ofCompare (compareDays a b)
    | object a, object b =>
      match ← Run.look a, ← Run.look b with
      | .list as, .list bs => items as bs
      | .set as, .set bs =>
        match o with
        | .lt => if as.length < bs.length then allAmong same bs as else return false
        | .le => allAmong same bs as
        | .gt => if bs.length < as.length then allAmong same as bs else return false
        | .ge => allAmong same as bs
      | _, _ => throw .wrongKind
    | v, w =>
      match v.number?, w.number? with
      | some m, some n => return o.ofNumbers m n
      | _, _ => throw .wrongKind

/-- Whether two values stand in an order. -/
def ordered (o : Order) (v w : Value) : Run Bool := orderedWithin o levels v w

/-- Whether a value can be a key: one that cannot change. -/
def isKey : Value → Run Bool
  | tuple items => isKeyAll items
  | object a => do
    match ← Run.look a with
    | .list _ | .dict _ | .set _ => return false
    | _ => return true
  | view .values _ => return true
  | view _ _ => return false
  | _ => return true
where
  /-- Whether all values can be keys. -/
  isKeyAll : List Value → Run Bool
    | [] => return true
    | v :: rest => do if ← isKey v then isKeyAll rest else return false

/-- Stops unless a value can be a key. -/
def needKey (v : Value) : Run Unit := do if !(← v.isKey) then throw .wrongKind

/-- The value of a key in a mapping. -/
def lookUp? (entries : List (Value × Value)) (key : Value) : Run (Option Value) := do
  key.needKey
  entry? same key entries

/-- Puts an entry: a key keeps its place. -/
def putEntry (key value : Value) : List (Value × Value) → Run (List (Value × Value))
  | [] => return [(key, value)]
  | (k, v) :: rest => do
    if identical k key then return (k, value) :: rest
    else if ← same k key then return (k, value) :: rest
    else return (k, v) :: (← putEntry key value rest)

/-- Puts entries one after another. -/
def putEntries (entries : List (Value × Value)) : List (Value × Value) → Run (List (Value × Value))
  | [] => return entries
  | (k, v) :: rest => do
    k.needKey
    putEntries (← putEntry k v entries) rest

/-- Removes the entry of a key. -/
def removeEntry (key : Value) : List (Value × Value) → Run (List (Value × Value))
  | [] => return []
  | (k, v) :: rest => do
    if identical k key then return rest
    else if ← same k key then return rest
    else return (k, v) :: (← removeEntry key rest)

/-- How many parts a value has, if it is made of parts that can be counted. -/
def length? : Value → Run (Option Nat)
  | text s _ => return some s.length
  | other (.bytes b) => return some b.length
  | tuple items => return some items.length
  | undefined _ => return some 0
  | range start stop step => return some (rangeSize start stop step)
  | object a => do
    match ← Run.look a with
    | .list items => return some items.length
    | .dict entries => return some entries.length
    | .set members => return some members.length
    | _ => return none
  | view _ a => return some (← entriesAt a).length
  | _ => return none

end Value

end Stencil.Language
