import Stencil.Cache.Relations
import Stencil.Cache.Store

/-!
# The cache

Texts of templates, compiled templates and the include relations between them. Invalidating a template
drops its text, its compiled form, and the compiled forms of all its dependents.

Every template has a version, which changes whenever it is invalidated: a count of its own, and an
epoch that all share. Whoever loads a text takes the version first and keeps the text only if the
version is still the same, so no text outlives an invalidation that came while it was loaded.
-/

namespace Stencil

/-- The version of a template: the shared epoch and its own count. -/
structure Version where
  epoch : Nat
  count : Nat
  deriving Repr, DecidableEq

/-- Versions of some templates, each as it was when it was taken. -/
abbrev Snapshot := List (String × Version)

/-- Texts of type `σ`, compiled templates of type `α`, their relations and their versions. -/
structure Cache (σ α : Type) where
  sources : Store σ := {}
  compiled : Store α := {}
  relations : Relations := {}
  epoch : Nat := 0
  counts : List (String × Nat) := []
  deriving Repr

namespace Cache

variable {σ α : Type}

/-- How often a template was invalidated in this epoch. -/
def count (c : Cache σ α) (id : String) : Nat := (c.counts.lookup id).getD 0

/-- The version of a template. -/
def version (c : Cache σ α) (id : String) : Version := ⟨c.epoch, c.count id⟩

/-- Whether no version has changed since a snapshot. -/
def isCurrent (c : Cache σ α) (taken : Snapshot) : Bool :=
  taken.all fun (id, v) => c.version id == v

/-- The cache with a text put. -/
def putSource (c : Cache σ α) (id : String) (text : σ) : Cache σ α :=
  { c with sources := c.sources.put id text }

/-- The cache with a compiled template put. -/
def putCompiled (c : Cache σ α) (id : String) (value : α) : Cache σ α :=
  { c with compiled := c.compiled.put id value }

/-- The cache with one more relation. -/
def relate (c : Cache σ α) (child parent : String) : Cache σ α :=
  { c with relations := c.relations.insert child parent }

/-- The cache after the compiled dependents of a template are dropped. -/
def dropDependents (c : Cache σ α) (id : String) : Cache σ α :=
  { c with compiled := c.compiled.eraseAll (c.relations.dependents id) }

/-- The cache after a template is invalidated. -/
def invalidate (c : Cache σ α) (id : String) : Cache σ α :=
  { sources := c.sources.erase id
    compiled := (c.compiled.erase id).eraseAll (c.relations.dependents id)
    relations := c.relations.eraseChild id
    epoch := c.epoch
    counts := Store.putIn id (c.count id + 1) c.counts }

/-- The cache after some templates are invalidated in turn. -/
def invalidateEach (c : Cache σ α) (ids : List String) : Cache σ α := ids.foldl invalidate c

/-- The cache after a new epoch begins and every template with a text is invalidated. -/
def invalidateAll (c : Cache σ α) : Cache σ α :=
  invalidateEach { c with epoch := c.epoch + 1 } c.sources.ids

/-- The cache after a new epoch begins with nothing in it. -/
def clear (c : Cache σ α) : Cache σ α := { epoch := c.epoch + 1 }

/-- How much is in the cache: texts, compiled templates, and templates with parents. -/
structure Stats where
  sources : Nat
  compiled : Nat
  relations : Nat
  deriving Repr, DecidableEq

/-- How much is in the cache. -/
def stats (c : Cache σ α) : Stats :=
  ⟨c.sources.size, c.compiled.size, c.relations.children.length⟩

section Notes

variable [Held σ] [Held α]

/-- What is noted when the compiled dependents of a template are dropped. -/
def dependentNotes (c : Cache σ α) (id : String) : List Note :=
  let dropped := c.relations.dependents id
  dropped.flatMap (c.compiled.removalNotes "compiled") ++
    if dropped.isEmpty then [] else [.dependentsDropped id dropped]

/-- What is noted when a template is invalidated. -/
def invalidateNotes (c : Cache σ α) (id : String) : List Note :=
  c.sources.removalNotes "content" id ++ c.compiled.removalNotes "compiled" id ++ c.dependentNotes id

/-- What is noted when some templates are invalidated in turn. -/
def invalidateEachNotes (c : Cache σ α) : List String → List Note
  | [] => []
  | id :: ids => c.invalidateNotes id ++ invalidateEachNotes (c.invalidate id) ids

/-- What is noted when every template is invalidated. -/
def invalidateAllNotes (c : Cache σ α) : List Note :=
  c.invalidateEachNotes c.sources.ids ++ [.allDropped c.sources.ids.length]

end Notes

end Cache

end Stencil
