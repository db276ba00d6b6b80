import Stencil.Proofs.Cache.Cascade
import Stencil.Proofs.Cache.Invalidation

/-!
# Versions never come back

The count of a template begins again at zero when the cache is emptied, and when all templates are invalidated
only those with a text are counted on. Still no version is met twice, because the epoch grows in both cases:
an operation either leaves the version of a template as it is, or it raises it (`Cache.version_perform`,
`Cache.version_lt_perform`). So a version that is the same as before was not raised in between, and a snapshot
is current exactly as long as none of its templates was reset since its version was taken
(`Cache.versions_never_return`).
-/

namespace Stencil

variable {σ α : Type}

/-- What can be done to a cache. -/
inductive Operation (σ α : Type) where
  | putSource (id : String) (text : σ)
  | eraseSource (id : String)
  | clearSources
  | putCompiled (id : String) (value : α)
  | eraseCompiled (id : String)
  | clearCompiled
  | relate (child parent : String)
  /-- The edges from a template to its parents are forgotten. -/
  | unrelate (child : String)
  | clearRelations
  | dropDependents (id : String)
  | invalidate (id : String)
  | invalidateAll
  | clear

/-- The operations that a version is for: the template is invalidated, alone or with all others, or the cache
is emptied. -/
def Operation.Resets (id : String) : Operation σ α → Prop
  | invalidate id' => id' = id
  | invalidateAll | clear => True
  | _ => False

instance (id : String) : DecidablePred (Operation.Resets (σ := σ) (α := α) id)
  | .invalidate id' => inferInstanceAs (Decidable (id' = id))
  | .invalidateAll | .clear => isTrue trivial
  | .putSource .. | .eraseSource _ | .clearSources | .putCompiled .. | .eraseCompiled _ | .clearCompiled
  | .relate .. | .unrelate _ | .clearRelations | .dropDependents _ => isFalse not_false

namespace Cache

/-- The cache after an operation. -/
def perform (c : Cache σ α) : Operation σ α → Cache σ α
  | .putSource id text => c.putSource id text
  | .eraseSource id => { c with sources := c.sources.erase id }
  | .clearSources => { c with sources := {} }
  | .putCompiled id value => c.putCompiled id value
  | .eraseCompiled id => { c with compiled := c.compiled.erase id }
  | .clearCompiled => { c with compiled := {} }
  | .relate child parent => c.relate child parent
  | .unrelate child => { c with relations := c.relations.eraseChild child }
  | .clearRelations => { c with relations := {} }
  | .dropDependents id => c.dropDependents id
  | .invalidate id => c.invalidate id
  | .invalidateAll => c.invalidateAll
  | .clear => c.clear

/-- The cache after some operations in turn. -/
def performAll (c : Cache σ α) (ops : List (Operation σ α)) : Cache σ α := ops.foldl perform c

variable (c : Cache σ α) {op : Operation σ α} {id : String}

/-! ### One operation -/

/-- An operation that resets nothing leaves the version as it is. -/
theorem version_perform (h : ¬ op.Resets id) : (c.perform op).version id = c.version id := by
  cases op with
  | invalidate id' => exact version_invalidate_of_ne c (Ne.symm h)
  | invalidateAll => exact absurd trivial h
  | clear => exact absurd trivial h
  | _ => rfl

/-- An operation that resets a template raises its version. -/
theorem version_lt_perform (h : op.Resets id) : c.version id < (c.perform op).version id := by
  cases op with
  | invalidate id' =>
    obtain rfl : id' = id := h
    exact version_lt_invalidate c id'
  | invalidateAll => exact version_lt_invalidateAll c id
  | clear => exact version_lt_clear c id
  | _ => exact h.elim

theorem version_le_perform (op : Operation σ α) (id : String) :
    c.version id ≤ (c.perform op).version id := by
  by_cases h : op.Resets id
  · exact (version_lt_perform c h).le
  · exact (version_perform c h).ge

/-! ### Some operations in turn -/

theorem version_le_performAll (ops : List (Operation σ α)) (id : String) :
    c.version id ≤ (c.performAll ops).version id := by
  induction ops generalizing c with
  | nil => exact le_rfl
  | cons op ops ih => exact (version_le_perform c op id).trans (ih (c.perform op))

/-- A version is the same after some operations exactly if none of them resets its template. -/
theorem version_performAll_eq_iff (ops : List (Operation σ α)) (id : String) :
    (c.performAll ops).version id = c.version id ↔ ∀ op ∈ ops, ¬ op.Resets id := by
  induction ops generalizing c with
  | nil => simp [performAll]
  | cons op ops ih =>
    have hstep : c.performAll (op :: ops) = (c.perform op).performAll ops := rfl
    rw [hstep, List.forall_mem_cons]
    by_cases h : op.Resets id
    · -- the version is above the old one already, and never falls
      have hlt := (version_lt_perform c h).trans_le (version_le_performAll (c.perform op) ops id)
      exact ⟨fun heq => absurd heq hlt.ne', fun hnone => absurd h hnone.1⟩
    · rw [← version_perform c h, ih]
      exact ⟨fun hnone => ⟨h, hnone⟩, fun hnone => hnone.2⟩

theorem performAll_take_drop (ops : List (Operation σ α)) (moment : ℕ) :
    (c.performAll (ops.take moment)).performAll (ops.drop moment) = c.performAll ops := by
  rw [performAll, performAll, performAll, ← List.foldl_append, List.take_append_drop]

/-- The versions of some templates, each as it was after so many of some operations. -/
def snapshotAt (ops : List (Operation σ α)) (taken : List (String × ℕ)) : Snapshot :=
  taken.map fun (id, moment) => (id, (c.performAll (ops.take moment)).version id)

/-- Versions never come back. Whatever is done to a cache, a version is the same afterwards exactly if its
template was not invalidated, alone or with all others, and the cache was not emptied. A snapshot is current
exactly if none of this happened to any of its templates since the version of that template was taken. And the
versions of templates that are dropped as dependents of another one stay. -/
theorem versions_never_return (ops : List (Operation σ α)) :
    (∀ id, (c.performAll ops).version id = c.version id ↔ ∀ op ∈ ops, ¬ op.Resets id) ∧
    (∀ taken, (c.performAll ops).isCurrent (c.snapshotAt ops taken) = true ↔
      ∀ p ∈ taken, ∀ op ∈ ops.drop p.2, ¬ op.Resets p.1) ∧
    ∀ id x, x ∈ c.relations.dependents id →
      (c.invalidate id).version x = c.version x ∧ (c.dropDependents id).version x = c.version x := by
  refine ⟨version_performAll_eq_iff c ops, fun taken => ?_, fun id x hx => ?_⟩
  · rw [isCurrent_iff, snapshotAt]
    constructor
    · rintro h ⟨id, moment⟩ hmem
      have hsame := h id _ (List.mem_map_of_mem hmem)
      rw [← performAll_take_drop c ops moment, version_performAll_eq_iff] at hsame
      exact hsame
    · intro h id v hv
      obtain ⟨⟨id, moment⟩, hmem, heq⟩ := List.mem_map.1 hv
      cases heq
      rw [← performAll_take_drop c ops moment, version_performAll_eq_iff]
      exact h _ hmem
  · have hne : x ≠ id := (Relations.mem_dependents.1 hx).1
    exact ⟨version_invalidate_of_ne c hne, rfl⟩

end Cache

namespace Ring

/-- The last template of the circle is dropped when the first one is invalidated, but its version stays, and a
snapshot with it is current even though the first one was invalidated before the second one was met; once the
cache is emptied it is not. -/
theorem versions_never_return_ring :
    "c" ∈ cache.relations.dependents "a" ∧
      (cache.invalidate "a").version "c" = cache.version "c" ∧
      (cache.performAll [.invalidate "a", .putSource "a" "new"]).isCurrent
        (cache.snapshotAt [.invalidate "a", .putSource "a" "new"] [("c", 0), ("a", 1)]) = true ∧
      (cache.performAll [.invalidate "a", .clear]).version "b" ≠ cache.version "b" := by
  have hdependent : "c" ∈ cache.relations.dependents "a" := by
    rw [dependents_a]
    decide
  obtain ⟨-, hcurrent, hstays⟩ :=
    Cache.versions_never_return cache [.invalidate "a", .putSource "a" "new"]
  obtain ⟨hsame, -, -⟩ := Cache.versions_never_return cache [.invalidate "a", .clear]
  refine ⟨hdependent, (hstays "a" "c" hdependent).1, (hcurrent [("c", 0), ("a", 1)]).2 (by decide), ?_⟩
  rw [Ne, hsame]
  decide

end Ring

end Stencil
