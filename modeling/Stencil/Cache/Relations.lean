/-!
# Include relations

Which templates include which, as edges from the included template, the child, to the one that
includes it, the parent. The dependents of a template are all that include it, directly or through
others. They are visited one by one: from the parents waiting, the last one is taken, and its own
parents, in ascending order, wait after the others. Each is visited once, and what has been visited
needs no edges any more, so the walk ends.
-/

namespace Stencil

/-- A template and one that includes it. -/
structure Edge where
  child : String
  parent : String
  deriving Repr, DecidableEq

/-- Edges, each once. -/
structure Relations where
  edges : List Edge := []
  deriving Repr

/-- Texts in ascending order. -/
def ascending (names : List String) : List String := names.mergeSort fun a b => decide (a ≤ b)

/-- The parents of a template by some edges. -/
def parentsIn (edges : List Edge) (child : String) : List String :=
  (edges.filter (·.child == child)).map (·.parent)

/-- Some edges without those from a template to its parents. -/
def withoutChild (edges : List Edge) (child : String) : List Edge := edges.filter (·.child != child)

theorem length_parentsIn (edges : List Edge) (child : String) :
    (parentsIn edges child).length + (withoutChild edges child).length = edges.length := by
  induction edges with
  | nil => rfl
  | cons e edges ih =>
    simp only [parentsIn, withoutChild, List.length_map] at *
    by_cases h : e.child = child <;> simp [h] <;> omega

namespace Relations

/-- The relations with one more edge. -/
def insert (r : Relations) (child parent : String) : Relations :=
  if r.edges.contains ⟨child, parent⟩ then r else ⟨r.edges ++ [⟨child, parent⟩]⟩

/-- The templates that directly include a template. -/
def parents (r : Relations) (child : String) : List String := parentsIn r.edges child

/-- The relations without the edges from a template to its parents. -/
def eraseChild (r : Relations) (child : String) : Relations :=
  ⟨withoutChild r.edges child⟩

/-- The templates that have parents, each once. -/
def children (r : Relations) : List String := (r.edges.map (·.child)).eraseDups

/-- Every edge, in ascending order of the child and then of the parent. -/
def sorted (r : Relations) : List (String × String) :=
  (r.edges.map fun e => (e.child, e.parent)).mergeSort fun a b =>
    decide (a.1 < b.1) || (a.1 == b.1 && decide (a.2 ≤ b.2))

/-- Visits the templates that wait, the first one next, and all that include them. -/
def visit (edges : List Edge) (seen : List String) (waiting : List String) : List String :=
  match waiting with
  | [] => []
  | id :: rest =>
    if seen.contains id then visit edges seen rest
    else
      id :: visit (withoutChild edges id) (id :: seen)
        ((ascending (parentsIn edges id)).reverse ++ rest)
termination_by edges.length + waiting.length
decreasing_by
  · simp only [List.length_cons]
    omega
  · have := length_parentsIn edges id
    simp only [List.length_append, List.length_reverse, ascending, List.length_mergeSort,
      List.length_cons]
    omega

/-- The dependents of a template in the order in which they are visited. -/
def dependents (r : Relations) (id : String) : List String :=
  visit r.edges [id] (ascending (r.parents id)).reverse

end Relations

end Stencil
