import Stencil.Proofs.Cache.Cascade
import Stencil.Proofs.Cache.Invalidation

/-!
# Invalidations in any order

What is left of a cache when some templates are invalidated in turn depends on which templates these are, and
for the versions on how often each is named (`Cache.Invalidated`), but not on the order: neither the order in
which they are named, nor that in which the cache came to hold them when all of them are invalidated
(`Cache.invalidated_in_any_order`).
-/

namespace Stencil

namespace Cache

variable {σ α : Type} {c c₁ c₂ : Cache σ α} {ids order : List String}

/-- Two caches that nobody can tell apart: they hold the same and their versions are the same. -/
structure Alike (c₁ c₂ : Cache σ α) : Prop where
  sources : c₁.sources = c₂.sources
  compiled : c₁.compiled = c₂.compiled
  relations : c₁.relations = c₂.relations
  version : ∀ x, c₁.version x = c₂.version x

/-- What is left of a cache after some templates were invalidated is known exactly. -/
theorem Invalidated.alike (h₁ : c.Invalidated ids c₁) (h₂ : c.Invalidated ids c₂) : c₁.Alike c₂ where
  sources := Store.ext (h₁.sources.trans h₂.sources.symm)
  compiled := Store.ext (h₁.compiled.trans h₂.compiled.symm)
  relations := Relations.ext (h₁.relations.trans h₂.relations.symm)
  version x := (h₁.version x).trans (h₂.version x).symm

/-- The order of the templates does not matter. -/
theorem Invalidated.perm (h : c.Invalidated order c₁) (hperm : order.Perm ids) : c.Invalidated ids c₁ := by
  have hmem : ∀ x, x ∈ order ↔ x ∈ ids := fun x => hperm.mem_iff
  have haffected : ∀ x, c.relations.Affected order x ↔ c.relations.Affected ids x := by
    simp only [Relations.Affected, hmem, implies_true]
  refine ⟨?_, ?_, ?_, fun x => ?_⟩
  · simpa only [hmem] using h.sources
  · simpa only [haffected] using h.compiled
  · simpa only [hmem] using h.relations
  · rw [h.version, hperm.count_eq]

theorem filter_not_mem_ids (s stored : Store σ) (h : stored.entries.Perm s.entries) :
    stored.entries.filter (fun e => e.1 ∉ s.ids) = [] := by
  refine List.filter_eq_nil_iff.2 fun e he => ?_
  have hid : e.1 ∈ s.ids := List.mem_map_of_mem (h.mem_iff.1 he)
  simpa using hid

/-- When all templates are invalidated those with a text are, in a new epoch, in whatever order the cache came
to hold them. -/
theorem invalidated_invalidateAll (c : Cache σ α) {stored : Store σ}
    (h : stored.entries.Perm c.sources.entries) :
    ({ c with epoch := c.epoch + 1 } : Cache σ α).Invalidated c.sources.ids
      ({ c with sources := stored } : Cache σ α).invalidateAll := by
  have hids : stored.ids.Perm c.sources.ids := h.map _
  have hall :=
    (invalidated_invalidateEach { c with sources := stored, epoch := c.epoch + 1 } stored.ids).perm hids
  refine ⟨?_, hall.compiled, hall.relations, hall.version⟩
  -- no text is left from either store
  refine hall.sources.trans ?_
  rw [filter_not_mem_ids c.sources stored h]
  exact (filter_not_mem_ids c.sources c.sources (.refl _)).symm

/-- Some templates that are invalidated in turn leave the same in every order: what is left is what was there
without their texts, without the edges to their parents, and without the compiled forms of all that are among
them or include one of them by the relations as they were; each version is as many invalidations further on.
All templates are invalidated by this, for those with a text in whatever order the cache came to hold them, in
the next epoch. -/
theorem invalidated_in_any_order (c : Cache σ α) (ids : List String) :
    (∀ order, order.Perm ids →
      (c.invalidateEach order).Alike (c.invalidateEach ids) ∧
        c.Invalidated ids (c.invalidateEach order)) ∧
    ∀ stored : Store σ, stored.entries.Perm c.sources.entries →
      let next : Cache σ α := { c with epoch := c.epoch + 1 }
      let all : Cache σ α := ({ c with sources := stored } : Cache σ α).invalidateAll
      all.Alike (next.invalidateEach c.sources.ids) ∧ next.Invalidated c.sources.ids all := by
  constructor
  · intro order hperm
    have horder := (c.invalidated_invalidateEach order).perm hperm
    exact ⟨horder.alike (c.invalidated_invalidateEach ids), horder⟩
  · intro stored hperm next all
    have hall := c.invalidated_invalidateAll hperm
    exact ⟨hall.alike (next.invalidated_invalidateEach c.sources.ids), hall⟩

end Cache

namespace Ring

/-- Two templates of a circle, one of them named twice, and all three, held in another order. -/
theorem invalidated_in_any_order_ring :
    (["b", "a", "b"].Perm ["a", "b", "b"] ∧
      (cache.invalidateEach ["b", "a", "b"]).Alike (cache.invalidateEach ["a", "b", "b"])) ∧
    let turned : Store String := ⟨[("c", "c text"), ("a", "a text"), ("b", "b text")]⟩
    turned.entries.Perm cache.sources.entries ∧
      ({ cache with sources := turned } : Cache String String).invalidateAll.Alike
        (({ cache with epoch := cache.epoch + 1 } : Cache String String).invalidateEach ["a", "b", "c"]) := by
  have hnamed : ["b", "a", "b"].Perm ["a", "b", "b"] := by decide
  have hheld : [("c", "c text"), ("a", "a text"), ("b", "b text")].Perm cache.sources.entries := by decide
  obtain ⟨horder, hall⟩ := Cache.invalidated_in_any_order cache ["a", "b", "b"]
  exact ⟨⟨hnamed, (horder _ hnamed).1⟩, hheld, (hall ⟨_⟩ hheld).1⟩

end Ring

end Stencil
