import Stencil.Datum
import Stencil.Language.Syntax

/-!
# Values of templates

While a template is rendered it works on values. Those that can change while others hold on to them
(lists, mappings, iterators, loops, macros and the scopes of names) are objects: a value names an
object by its address, and the objects themselves are kept in one place, the heap.

A rendering is a computation that reads and changes the heap and the text printed so far, and that may
stop with a fault.
-/

namespace Stencil.Language

/-- What a rendering stops with. -/
inductive Fault where
  /-- A value that is not defined was used. -/
  | undefined (message : String)
  /-- The template asks for something that cannot be done. -/
  | refused (message : String)
  /-- A filter was given arguments that it cannot take. -/
  | filterArgument (message : String)
  /-- There was no template to choose from. -/
  | noTemplates
  /-- An operation was applied to a value of a kind that it does not know. -/
  | wrongKind
  /-- A value is of the right kind but cannot be used. -/
  | wrongValue (message : String)
  | noSuchKey
  | noSuchIndex
  | noSuchPart
  | divisionByZero
  | overflow
  | tooDeep
  /-- A condition of a filter on its arguments does not hold. -/
  | violated
  /-- A mapping changed while it was gone through, or there is nothing to go through. -/
  | disturbed
  deriving Repr, DecidableEq

/-- The message of a fault, where it has one. -/
def Fault.message? : Fault → Option String
  | undefined m | refused m | filterArgument m | wrongValue m => some m
  | noTemplates => some "Tried to select from an empty list of templates."
  | _ => none

/-- What of a mapping is gone through. -/
inductive View where
  | keys
  | values
  | entries
  deriving Repr, DecidableEq

/-- Where an object stands. -/
abbrev Address := Nat

/-- The functions that every template can call. -/
inductive Function where
  | range
  | dict
  | space
  | joiner
  | cycler
  deriving Repr, DecidableEq

/-- A value. -/
inductive Value where
  | null
  | bool (b : Bool)
  | int (i : Int)
  | float (x : Float)
  /-- A text; a safe one is not escaped again. -/
  | text (s : String) (safe : Bool)
  | other (s : Scalar)
  | tuple (items : List Value)
  /-- What stands for a name or a part that there is not, with what to say when it is used. -/
  | undefined (complaint : String)
  | range (start stop step : Int)
  | object (address : Address)
  | view (which : View) (address : Address)
  | function (f : Function)
  | method (receiver : Value) (name : String)
  deriving Inhabited

namespace Value

/-- A text that is not marked safe. -/
@[match_pattern] def plain (s : String) : Value := .text s false

/-- The value of a constant. -/
def ofConstant : Constant → Value
  | .none => .null
  | .bool b => .bool b
  | .int i => .int i
  | .float x => .float x
  | .text s => .plain s

/-- The number that a value is; truth values count as one and zero. -/
def number? : Value → Option Scalar.Number
  | bool b => some (.whole (if b then 1 else 0))
  | int i => some (.whole i)
  | float x => some (.double x)
  | _ => none

/-- The whole number that a value is. -/
def whole? : Value → Option Int
  | bool b => some (if b then 1 else 0)
  | int i => some i
  | _ => none

/-- The value of a name that is not defined. -/
def undefinedName (name : String) : Value := .undefined (Text.quoted name ++ " is undefined")

end Value

/-- Where a piece of a template is evaluated. -/
structure Place where
  /-- The innermost scope. -/
  scope : Address
  /-- The names that all scopes share. -/
  context : Address
  /-- Whether what is assigned here can be seen in blocks. -/
  isTop : Bool
  /-- How many calls of macros and loops are under way. -/
  depth : Nat
  /-- The text that a filter without a value applies to. -/
  captured : Value := .text "" false
  deriving Inhabited

/-- A macro, or the body of a call, with the place it was written in. -/
structure Macro where
  name : Option String
  definition : MacroSyntax Statement
  takesCaller : Bool
  takesNamed : Bool
  takesPlaced : Bool
  place : Place

/-- The parts of a recursive loop that a call of it needs. -/
structure Recursion where
  target : Target
  test : Option Expr
  body : List Statement
  orElse : List Statement
  place : Place

/-- The state of a loop. -/
structure Loop where
  /-- What is gone through. -/
  sequence : Value
  /-- The iterator that the items come from. -/
  iterator : Address
  /-- How many items were taken. -/
  taken : Nat := 0
  length : Option Nat := none
  outer : Nat
  previous : Option Value := none
  current : Option Value := none
  /-- An item that was looked at before its turn. -/
  upcoming : Option Value := none
  lastChanged : Option (List Value) := none
  recursion : Option Recursion := none

/-- An attribute of an item as a filter reads it: the parts of its path, and what stands for a part
that there is not. -/
structure Path where
  parts : List Value
  fallback : Option Value := none

/-- What a filter does to each item. -/
inductive Step where
  | path (p : Path)
  | filter (name : Value) (placed : List Value) (named : List (String × Value))

/-- How a filter chooses items: by an attribute of them or themselves, by a test or their truth. -/
structure Choice where
  keep : Bool
  path : Option Path
  test : Option (Value × List Value × List (String × Value))

/-- How a filter goes through a value, once the first item is asked for. -/
inductive Delayed where
  | map (placed : List Value) (named : List (String × Value))
  | choose (keep withAttribute : Bool) (placed : List Value) (named : List (String × Value))
  | entries
  | batch (size filler : Value)
  | unique (isCaseSensitive : Bool) (path : Path)

/-- Where an iterator takes its items from. -/
inductive Source where
  | items (rest : List Value)
  /-- The items of a list, from a position on. -/
  | list (address : Address) (position : Nat)
  /-- The items of a list before a position, the last one first. -/
  | backwards (address : Address) (position : Nat)
  | numbers (next step : Int) (count : Nat)
  /-- The entries of a mapping from a position on; it had `size` entries at the start. -/
  | entries (which : View) (address : Address) (position size : Nat)
  | mapped (source : Address) (step : Step)
  | chosen (source : Address) (choice : Choice)
  | tested (source : Address) (target : Target) (test : Expr) (place : Place)
  | batches (source : Address) (size filler : Value) (pending : List Value)
  | unique (source : Address) (seen : List Value) (isCaseSensitive : Bool) (path : Path)
  /-- The items of a loop that is under way. -/
  | loop (address : Address)
  | delayed (value : Value) (make : Delayed)

/-- What can change while others hold on to it. -/
inductive Object where
  | list (items : List Value)
  | dict (entries : List (Value × Value))
  | set (members : List Value)
  /-- A namespace, whose attributes can be assigned to. -/
  | space (entries : List (Value × Value))
  /-- Gives nothing the first time and its separator from then on. -/
  | joiner (separator : Value) (isUsed : Bool)
  /-- Gives its items in turn. -/
  | cycler (items : List Value) (position : Nat)
  | iterator (source : Source)
  | loop (l : Loop)
  | callable (m : Macro)
  /-- Names and their values; a name without a value hides what it means outside. -/
  | scope (bound : List (String × Option Value)) (outer : Option Address)
  /-- The names that all scopes share: those assigned at the top, those given, and the blocks. -/
  | context (assigned given : List (String × Value)) (blocks : List (String × List Statement))
  /-- The blocks of a template, by their names. -/
  | blocks (context : Address)
  | block (name : String) (context : Address)

/-- The state of a rendering: the heap, and what is printed. -/
structure Machine where
  heap : Array Object := #[]
  /-- The text printed so far. -/
  printed : String := ""
  /-- Whether something was printed that is no text. -/
  isSpoiled : Bool := false
  /-- Whether printed values are escaped. -/
  isEscaping : Bool := false

/-- A computation of a rendering. -/
abbrev Run := StateT Machine (Except Fault)

namespace Run

/-- Puts a new object into the heap. -/
def make (o : Object) : Run Value := do
  let m ← get
  set { m with heap := m.heap.push o }
  return .object m.heap.size

/-- The address of a new object. -/
def makeAt (o : Object) : Run Address := do
  let m ← get
  set { m with heap := m.heap.push o }
  return m.heap.size

/-- The object at an address. -/
def look (a : Address) : Run Object := return ((← get).heap[a]?).getD (.list [])

/-- Puts another object at an address. -/
def put (a : Address) (o : Object) : Run Unit :=
  modify fun m => { m with heap := m.heap.setIfInBounds a o }

/-- A list. -/
def list (items : List Value) : Run Value := make (.list items)

/-- An iterator. -/
def iterator (s : Source) : Run Value := make (.iterator s)

end Run

/-- The object that a value names. -/
def Value.object? : Value → Run (Option Object)
  | .object a => some <$> Run.look a
  | _ => return none

end Stencil.Language
