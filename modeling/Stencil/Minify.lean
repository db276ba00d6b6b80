import Stencil.Note
import Stencil.Placeholder
import Stencil.Shrink

/-!
# Shrinking around directives

A template is shrunk as a script with tokens in place of its directives, and the directives are put
back afterwards. The shrinker may be any function of texts, and it may fail.
-/

namespace Stencil

/-- A template shrunk with its directives kept, and what is noted of directives that were lost. -/
def minify (shrinker : Shrinker) (text : String) : Except ShrinkFault (String × List Note) := do
  let cs := text.toList
  let m := Placeholder.mapping cs
  let shrunk := (← shrinker (String.ofList (Placeholder.mask cs))).toList
  return (String.ofList (Placeholder.restore m shrunk),
    (Placeholder.dropped m shrunk).map Note.directiveDropped)

end Stencil
