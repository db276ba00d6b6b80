import Stencil.Datum
import Stencil.Note

/-!
# Stores

A store keeps a value for each of some identifiers, in the order in which they were first put. All its
operations are total: reading or removing what is not there is no fault.
-/

namespace Stencil

/-- Whether a value counts as something when it is removed. -/
class Held (α : Type) where
  isHeld : α → Bool

instance : Held String := ⟨fun _ => true⟩

instance : Held Datum := ⟨fun d => match d with | .null => false | _ => true⟩

/-- Values by identifier. -/
structure Store (α : Type) where
  entries : List (String × α) := []
  deriving Repr

namespace Store

variable {α : Type}

/-- The entries after an identifier is given a value: in its place if it is there, else at the end. -/
def putIn (id : String) (value : α) : List (String × α) → List (String × α)
  | [] => [(id, value)]
  | (k, v) :: rest => if k = id then (k, value) :: rest else (k, v) :: putIn id value rest

/-- The value of an identifier. -/
def get? (s : Store α) (id : String) : Option α := s.entries.lookup id

/-- The store with a value put. -/
def put (s : Store α) (id : String) (value : α) : Store α := ⟨putIn id value s.entries⟩

/-- The store without an identifier. -/
def erase (s : Store α) (id : String) : Store α := ⟨s.entries.filter fun (k, _) => k != id⟩

/-- The store without some identifiers. -/
def eraseAll (s : Store α) (ids : List String) : Store α := ids.foldl erase s

/-- The identifiers in order. -/
def ids (s : Store α) : List String := s.entries.map (·.1)

/-- Whether an identifier has a value. -/
def contains (s : Store α) (id : String) : Bool := (s.get? id).isSome

/-- How many identifiers have values. -/
def size (s : Store α) : Nat := s.entries.length

/-- What is noted when an identifier is removed from the store of the given name. -/
def removalNotes [Held α] (s : Store α) (name id : String) : List Note :=
  match s.get? id with
  | some v => if Held.isHeld v then [.removed id name] else []
  | none => []

end Store

end Stencil
