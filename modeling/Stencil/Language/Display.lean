import Stencil.Language.Kind

/-!
# Values as text

A value that is printed stands for itself if it is a text. Any other value is spelled: texts in it have
quotes, and an object that holds itself is cut short where it comes again.
-/

namespace Stencil.Language

namespace Value

/-- How the functions are spelled. -/
def functionText : Function → String
  | .range => "<class 'range'>"
  | .dict => "<class 'dict'>"
  | .space => "<class 'jinja2.utils.Namespace'>"
  | .joiner => "<class 'jinja2.utils.Joiner'>"
  | .cycler => "<class 'jinja2.utils.Cycler'>"

/-- A list of texts in brackets. -/
def bracketed (opening : String) (items : List String) (closing : String) : String :=
  opening ++ ", ".intercalate items ++ closing

/-- A value as it is spelled; `above` are the objects that it is a part of. -/
def spelledWithin : (fuel : Nat) → (above : List Address) → Value → Run String
  | 0, _, _ => throw .tooDeep
  | _, _, null => return "None"
  | _, _, bool b => return if b then "True" else "False"
  | _, _, int i => return toString i
  | _, _, float x => return Decimal.text x
  | _, _, text s false => return Text.quoted s
  | _, _, text s true => return "Markup(" ++ Text.quoted s ++ ")"
  | _, _, other s => return s.spelled
  | fuel + 1, above, tuple [item] => return "(" ++ (← spelledWithin fuel above item) ++ ",)"
  | fuel + 1, above, tuple items => return bracketed "(" (← items.mapM (spelledWithin fuel above)) ")"
  | _, _, undefined _ => return "Undefined"
  | _, _, range start stop step =>
    return bracketed "range(" ([toString start, toString stop] ++
      (if step = 1 then [] else [toString step])) ")"
  | fuel + 1, above, object a => do
    let inner := spelledWithin fuel (a :: above)
    let pairs (entries : List (Value × Value)) : Run String := do
      let written ← entries.mapM fun (k, v) => do
        let key ← inner k
        return key ++ ": " ++ (← inner v)
      return bracketed "\x7b" written "\x7d"
    match ← Run.look a with
    | .list items =>
      if above.contains a then return "[...]"
      else return bracketed "[" (← items.mapM inner) "]"
    | .dict entries => if above.contains a then return "\x7b...\x7d" else pairs entries
    | .set [] => return "set()"
    | .set members => return bracketed "\x7b" (← members.mapM inner) "\x7d"
    | .space entries =>
      if above.contains a then throw .tooDeep else return "<Namespace " ++ (← pairs entries) ++ ">"
    | .loop l =>
      let size := match l.length with | some n => toString n | none => "?"
      return "<LoopContext " ++ toString l.taken ++ "/" ++ size ++ ">"
    | .callable m =>
      return "<Macro " ++ (match m.name with | some n => Text.quoted n | none => "anonymous") ++ ">"
    | .blocks _ => return "<TemplateReference None>"
    | o => return "<" ++ objectKind o ++ ">"
  | fuel + 1, above, view which a => do
    let inner := spelledWithin fuel above
    let entries ← entriesAt a
    match which with
    | .keys => return bracketed "dict_keys([" (← entries.mapM fun e => inner e.1) "])"
    | .values => return bracketed "dict_values([" (← entries.mapM fun e => inner e.2) "])"
    | .entries =>
      return bracketed "dict_items([" (← entries.mapM fun e => inner (.tuple [e.1, e.2])) "])"
  | _, _, function f => return functionText f
  | _, _, method _ name => return "<built-in method " ++ name ++ ">"

/-- More levels than any value has that does not hold itself. -/
def levels : Nat := 100000

/-- A value as it is spelled among others. -/
def spelled (v : Value) : Run String := spelledWithin levels [] v

/-- A value as a text of its own. -/
def shown : Value → Run String
  | text s _ => return s
  | undefined _ => return ""
  | other s => return s.plain
  | v => v.spelled

/-- A text with the characters that mean something in a page written as references. -/
def escaped (s : String) : String :=
  String.ofList (s.toList.flatMap fun c =>
    match c with
    | '&' => "&amp;".toList
    | '<' => "&lt;".toList
    | '>' => "&gt;".toList
    | '"' => "&#34;".toList
    | '\'' => "&#39;".toList
    | c => [c])

/-- A value as a text that can stand in a page. -/
def escapedText : Value → Run String
  | text s true => return s
  | v => return escaped (← v.shown)

/-- A value as a text, the mark of a safe one kept. -/
def soft : Value → Run (String × Bool)
  | text s safe => return (s, safe)
  | v => return (← v.shown, false)

end Value

end Stencil.Language
