import Stencil.Language.Methods

/-!
# Tests of values

What stands after `is`. A test is known by several names; those that compare are also known by signs.
-/

namespace Stencil.Language

/-- A test. -/
inductive Test where
  | odd | even | divisibleby
  | defined | undefined
  | knownFilter | knownTest
  | null | boolean | isFalse | isTrue | integer | float | lower | upper | string | mapping | number
  | sequence | iterable | callable | sameas | escaped | isIn
  | compare (c : Comparison)
  deriving Repr, DecidableEq

namespace Test

/-- The names of the tests. -/
def names : List (String × Test) :=
  [("odd", odd), ("even", even), ("divisibleby", divisibleby), ("defined", defined),
   ("undefined", undefined), ("filter", knownFilter), ("test", knownTest), ("none", null),
   ("boolean", boolean), ("false", isFalse), ("true", isTrue), ("integer", integer), ("float", float),
   ("lower", lower), ("upper", upper), ("string", string), ("mapping", mapping), ("number", number),
   ("sequence", sequence), ("iterable", iterable), ("callable", callable), ("sameas", sameas),
   ("escaped", escaped), ("in", isIn),
   ("==", compare .eq), ("eq", compare .eq), ("equalto", compare .eq),
   ("!=", compare .ne), ("ne", compare .ne),
   (">", compare .gt), ("gt", compare .gt), ("greaterthan", compare .gt),
   (">=", compare .ge), ("ge", compare .ge),
   ("<", compare .lt), ("lt", compare .lt), ("lessthan", compare .lt),
   ("<=", compare .le), ("le", compare .le)]

/-- The test of a name. -/
def ofName? (name : String) : Option Test := names.lookup name

end Test

namespace Value

/-- Whether two values stand in a relation. -/
def compare (k : Evaluator) (c : Comparison) (v w : Value) : Run Bool := do
  match c with
  | .eq => same v w
  | .ne => return !(← same v w)
  | .lt => ordered .lt v w
  | .le => ordered .le v w
  | .gt => ordered .gt v w
  | .ge => ordered .ge v w
  | .isIn => v.isIn k w
  | .notIn => return !(← v.isIn k w)

/-- Whether a value can be called. -/
def isCallable : Value → Run Bool
  | undefined _ => return true
  | function _ => return true
  | method .. => return true
  | object a => do
    match ← Run.look a with
    | .joiner .. | .loop _ | .callable _ | .block .. => return true
    | _ => return false
  | _ => return false

/-- Whether a value is a sequence: it has a length and items. -/
def isSequence : Value → Run Bool
  | text .. => return true
  | tuple _ => return true
  | undefined _ => return true
  | range .. => return true
  | other (.bytes _) => return true
  | object a => do
    match ← Run.look a with
    | .list _ | .dict _ => return true
    | _ => return false
  | _ => return false

/-- Whether a value can be gone through. -/
def isIterable (v : Value) : Run Bool := do
  match v with
  | object a =>
    match ← Run.look a with
    | .iterator _ => return true
    | _ => return (← v.source?).isSome
  | v => return (← v.source?).isSome

/-- Whether a number leaves a remainder when it is divided by another. -/
def hasRemainder (v w remainder : Value) : Run Bool := do same (← operate .mod v w) remainder

/-- Applies a test to a value. -/
def satisfies (k : Evaluator) (isFilter : String → Bool) (t : Test) (v : Value) (placed : List Value)
    (named : List (String × Value)) : Run Bool := do
  let alone (b : Run Bool) : Run Bool := do
    let _ ← bind [] placed named
    b
  match t with
  | .odd => alone (hasRemainder v (.int 2) (.int 1))
  | .even => alone (hasRemainder v (.int 2) (.int 0))
  | .divisibleby =>
    match ← bind [needed "num"] placed named with
    | [n] => hasRemainder v n (.int 0)
    | _ => throw .wrongKind
  | .defined => alone (return match v with | undefined _ => false | _ => true)
  | .undefined => alone (return match v with | undefined _ => true | _ => false)
  | .knownFilter => alone (return match v with | text s _ => isFilter s | _ => false)
  | .knownTest => alone (return match v with | text s _ => (Test.ofName? s).isSome | _ => false)
  | .null => alone (return match v with | .null => true | _ => false)
  | .boolean => alone (return match v with | .bool _ => true | _ => false)
  | .isFalse => alone (return match v with | .bool b => !b | _ => false)
  | .isTrue => alone (return match v with | .bool b => b | _ => false)
  | .integer => alone (return match v with | .int _ => true | _ => false)
  | .float => alone (return match v with | .float _ => true | _ => false)
  | .lower => alone do return allCased isLowerChar (← v.shown).toList
  | .upper => alone do return allCased isUpperChar (← v.shown).toList
  | .string => alone (return match v with | text .. => true | _ => false)
  | .mapping => alone do
    match v with
    | object a =>
      match ← Run.look a with
      | .dict _ => return true
      | _ => return false
    | _ => return false
  | .number => alone (return v.number?.isSome)
  | .sequence => alone v.isSequence
  | .iterable => alone v.isIterable
  | .callable => alone v.isCallable
  | .escaped => alone (return match v with | text _ safe => safe | _ => false)
  | .sameas =>
    match ← bind [needed "other"] placed named with
    | [w] => return identical v w
    | _ => throw .wrongKind
  | .isIn =>
    match ← bind [needed "seq"] placed named with
    | [w] => v.isIn k w
    | _ => throw .wrongKind
  | .compare c =>
    match ← bindPlaced [needed "other"] placed named with
    | [w] => compare k c v w
    | _ => throw .wrongKind

end Value

end Stencil.Language
