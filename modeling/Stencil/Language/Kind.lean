import Stencil.Language.Value

/-!
# Kinds of values

What a value is called in messages, and whether it counts as true.
-/

namespace Stencil.Language

namespace Value

/-- The name of the kind of a value without parts. -/
def otherKind : Scalar → String
  | .bytes _ => "bytes object"
  | .date _ => "datetime.date object"
  | .moment _ => "datetime.datetime object"
  | _ => "object"

/-- The name of the kind of an iterator. -/
def sourceKind : Source → String
  | .items _ => "tuple_iterator object"
  | .list .. => "list_iterator object"
  | .backwards .. => "list_reverseiterator object"
  | .numbers .. => "range_iterator object"
  | .entries .keys .. => "dict_keyiterator object"
  | .entries .values .. => "dict_valueiterator object"
  | .entries .entries .. => "dict_itemiterator object"
  | _ => "generator object"

/-- The name of the kind of an object. -/
def objectKind : Object → String
  | .list _ => "list object"
  | .dict _ => "dict object"
  | .set _ => "set object"
  | .space _ => "jinja2.utils.Namespace object"
  | .joiner .. => "jinja2.utils.Joiner object"
  | .cycler .. => "jinja2.utils.Cycler object"
  | .iterator s => sourceKind s
  | .loop _ => "jinja2.runtime.LoopContext object"
  | .callable _ => "jinja2.runtime.Macro object"
  | .scope .. | .context .. => "jinja2.runtime.Context object"
  | .blocks _ => "jinja2.runtime.TemplateReference object"
  | .block .. => "jinja2.runtime.BlockReference object"

/-- The name of the kind of a value, as messages about its parts give it. -/
def kind : Value → Run String
  | null => return "None"
  | bool _ => return "bool object"
  | int _ => return "int object"
  | float _ => return "float object"
  | text _ false => return "str object"
  | text _ true => return "markupsafe.Markup object"
  | other s => return otherKind s
  | tuple _ => return "tuple object"
  | undefined _ => return "jinja2.runtime.Undefined object"
  | range .. => return "range object"
  | object a => return objectKind (← Run.look a)
  | view .keys _ => return "dict_keys object"
  | view .values _ => return "dict_values object"
  | view .entries _ => return "dict_items object"
  | function _ => return "type object"
  | method (object a) _ => do
    match ← Run.look a with
    | .list _ | .dict _ | .set _ => return "builtin_function_or_method object"
    | _ => return "method object"
  | method _ _ => return "builtin_function_or_method object"

/-- How many numbers a range has. -/
def rangeSize (start stop step : Int) : Nat :=
  if step > 0 then ((stop - start + step - 1) / step).toNat
  else if step < 0 then ((start - stop - step - 1) / (-step)).toNat
  else 0

/-- The entries of a mapping. -/
def entriesAt (a : Address) : Run (List (Value × Value)) := do
  match ← Run.look a with
  | .dict entries | .space entries => return entries
  | _ => return []

/-- Whether a value counts as true. -/
def truthy : Value → Run Bool
  | null => return false
  | bool b => return b
  | int i => return i != 0
  | float x => return x != 0
  | text s _ => return s != ""
  | other (.bytes b) => return !b.isEmpty
  | other _ => return true
  | tuple items => return !items.isEmpty
  | undefined _ => return false
  | range start stop step => return rangeSize start stop step != 0
  | object a => do
    match ← Run.look a with
    | .list items => return !items.isEmpty
    | .dict entries => return !entries.isEmpty
    | .set members => return !members.isEmpty
    | _ => return true
  | view _ a => return !(← entriesAt a).isEmpty
  | function _ => return true
  | method .. => return true

end Value

end Stencil.Language
