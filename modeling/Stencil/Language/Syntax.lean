import Stencil.Language.Token

/-!
# Syntax of the template language

Expressions and statements as they are written. A name stands for itself; what it means is found when
it is used.
-/

namespace Stencil.Language

/-- A value that is written in the source. -/
inductive Constant where
  | none
  | bool (b : Bool)
  | int (i : Int)
  | float (x : Float)
  | text (s : String)
  deriving Repr

/-- Operations on one value. -/
inductive Unary where
  | neg
  | pos
  deriving Repr, DecidableEq

/-- Operations on two values. -/
inductive Binary where
  | add | sub | mul | div | floorDiv | mod | pow
  deriving Repr, DecidableEq

/-- Comparisons. -/
inductive Comparison where
  | eq | ne | lt | le | gt | ge | isIn | notIn
  deriving Repr, DecidableEq

/-- The arguments of a call: by place, by name, and all items of a sequence and a mapping. -/
structure Arguments (ε : Type) where
  placed : List ε := []
  named : List (String × ε) := []
  spread : Option ε := none
  spreadNamed : Option ε := none

/-- An expression. -/
inductive Expr where
  | const (value : Constant)
  | var (name : String)
  | tuple (items : List Expr)
  | list (items : List Expr)
  | dict (entries : List (Expr × Expr))
  | member (target : Expr) (name : String)
  | item (target : Expr) (key : Expr)
  /-- A part of a sequence; it stands only as the key of an item. -/
  | slice (start stop step : Option Expr)
  | call (target : Expr) (arguments : Arguments Expr)
  /-- A filter; without a value it applies to the text around it. -/
  | filter (line : Nat) (value : Option Expr) (name : String) (arguments : Arguments Expr)
  | test (line : Nat) (value : Expr) (name : String) (arguments : Arguments Expr)
  | unary (op : Unary) (operand : Expr)
  | binary (op : Binary) (left right : Expr)
  | concat (items : List Expr)
  | compare (first : Expr) (rest : List (Comparison × Expr))
  | both (left right : Expr)
  | either (left right : Expr)
  | negate (operand : Expr)
  | choose (line : Nat) (test yes : Expr) (no : Option Expr)

namespace Expr

/-- What an expression is called when it cannot be assigned to. -/
def kind : Expr → String
  | const _ => "const"
  | var _ => "name"
  | tuple _ => "tuple"
  | list _ => "list"
  | dict _ => "dict"
  | member .. => "getattr"
  | item .. => "getitem"
  | slice .. => "slice"
  | call .. => "call"
  | filter .. => "filter"
  | test .. => "test"
  | unary .neg _ => "neg"
  | unary .pos _ => "pos"
  | binary .add .. => "add"
  | binary .sub .. => "sub"
  | binary .mul .. => "mul"
  | binary .div .. => "div"
  | binary .floorDiv .. => "floordiv"
  | binary .mod .. => "mod"
  | binary .pow .. => "pow"
  | concat _ => "concat"
  | compare .. => "compare"
  | both .. => "and"
  | either .. => "or"
  | negate _ => "not"
  | choose .. => "condexpr"

end Expr

/-- What a value is assigned to. -/
inductive Target where
  | name (line : Nat) (name : String)
  /-- An attribute of a namespace. -/
  | member (space : String) (name : String)
  | tuple (items : List Target)

/-- A part of what a template prints. -/
inductive Printed where
  | data (text : String)
  | value (e : Expr)

/-- The parameters and the body of a macro; the last parameters may have defaults. -/
structure MacroSyntax (σ : Type) where
  parameters : List String
  defaults : List Expr
  body : List σ

/-- A statement of a parsed template. -/
inductive Statement where
  | output (items : List Printed)
  | assign (target : Target) (value : Expr)
  | assignBlock (target : Target) (filter : Option Expr) (body : List Statement)
  | loop (target : Target) (iter : Expr) (test : Option Expr)
      (isRecursive : Bool) (body orElse : List Statement)
  | branch (test : Expr) (body : List Statement) (alternatives : List Statement)
      (orElse : List Statement)
  | within (targets : List Target) (values : List Expr) (body : List Statement)
  | autoescape (value : Expr) (body : List Statement)
  | block (line : Nat) (name : String) (isScoped isRequired : Bool) (body : List Statement)
  | extend (line : Nat) (template : Expr)
  | include (template : Expr) (ignoreMissing : Bool)
  | importAs (template : Expr) (target : String)
  | importFrom (template : Expr) (names : List String)
  | filtered (filter : Expr) (body : List Statement)
  | macro_ (line : Nat) (name : String) (definition : MacroSyntax Statement)
  | callBlock (line : Nat) (call : Expr) (definition : MacroSyntax Statement)

/-- Why a source is rejected: a message and the line it is about. -/
structure SyntaxFault where
  line : Nat
  message : String
  /-- Whether the source follows the grammar and is rejected for what it says. -/
  isAssertion : Bool := false
  deriving Repr, DecidableEq

end Stencil.Language
