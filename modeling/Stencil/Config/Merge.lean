import Stencil.Datum

/-!
# Merging options

Options set over other options: a mapping over a mapping is merged entry by entry, anything else takes
the place of what was there. Keys keep their places, and new ones come after them.
-/

namespace Stencil.Config

mutual

/-- Entries with others set over them. -/
def merge (base : List (Scalar × Datum)) : List (Scalar × Datum) → List (Scalar × Datum)
  | [] => base
  | (k, v) :: rest => merge (Datum.put k (mergeValue (Datum.find? k base) v) base) rest

/-- A value set over the one that is there, if one is. -/
def mergeValue : Option Datum → Datum → Datum
  | some (.map base), .map later => .map (merge base later)
  | _, v => v

end

end Stencil.Config
