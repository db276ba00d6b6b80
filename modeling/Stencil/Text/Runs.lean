/-!
# Character classes as runs

A class of characters is given by the lengths of its runs over all code points: so many outside the
class, then so many inside, and so on in turn. Everything after the last run is outside.
-/

namespace Stencil.Text

/-- Whether a code point lies in one of the inner runs. -/
def inRuns : List Nat → Nat → Bool
  | outside :: inside :: rest, n =>
    if n < outside then false
    else if n < outside + inside then true
    else inRuns rest (n - (outside + inside))
  | _, _ => false

end Stencil.Text
