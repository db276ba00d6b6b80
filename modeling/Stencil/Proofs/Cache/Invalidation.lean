import Mathlib.Data.Prod.Lex
import Stencil.Cache
import Stencil.Proofs.Cache.Dependents
import Stencil.Proofs.Cache.Store

/-!
# What an invalidation leaves

Versions are ordered by their epochs and then by their counts. An invalidation that reaches a template
raises its version, and no operation of the cache ever lowers one, so a version that is the same twice
was the same all the time between: this is what keeps a text from outliving an invalidation.

An invalidated template has neither a text nor a compiled form, nor do its dependents have a compiled
form; the edges that lead from it are gone, and everything else stays.

When templates are invalidated one after the other, the edges that are gone are those along which a later
invalidation would have gone. No dependent is missed for that. A path of inclusions either keeps clear of
the template, and then it is still there, or it leads on from it, and then what it leads to was dropped
together with the template (`Relations.affected_cons`). So what is left is known exactly
(`Cache.invalidated_invalidateEach`).
-/

namespace Stencil

open Relation

namespace Version

/-- A version as a pair in which the epoch counts before the count. -/
def key (v : Version) : ℕ ×ₗ ℕ := toLex (v.epoch, v.count)

theorem key_injective : Function.Injective key := by
  rintro ⟨e, c⟩ ⟨e', c'⟩ h
  have hpair : (e, c) = (e', c') := toLex_inj.1 h
  rw [Prod.mk.injEq] at hpair
  rw [hpair.1, hpair.2]

instance : PartialOrder Version := PartialOrder.lift key key_injective

theorem lt_iff {v w : Version} :
    v < w ↔ v.epoch < w.epoch ∨ v.epoch = w.epoch ∧ v.count < w.count :=
  Prod.Lex.toLex_lt_toLex

end Version

/-! ### What some templates affect -/

namespace Relations

variable {r : Relations} {id x : String} {ids : List String}

/-- A template is one of some, or it includes one of them, directly or through others. -/
def Affected (r : Relations) (ids : List String) (x : String) : Prop :=
  ∃ id ∈ ids, x = id ∨ TransGen r.Has id x

theorem eq_or_path_iff : x = id ∨ TransGen r.Has id x ↔ x = id ∨ x ∈ r.dependents id := by
  rw [mem_dependents]
  tauto

instance : Decidable (r.Affected ids x) :=
  decidable_of_iff (∃ id ∈ ids, x = id ∨ x ∈ r.dependents id) <| by
    simp only [Affected, eq_or_path_iff]

/-- A path of inclusions keeps clear of the edges from a template to its parents, or it leads on from that
template. -/
theorem path_eraseChild {d : String} (h : TransGen r.Has d x) (id : String) :
    TransGen (r.eraseChild id).Has d x ∨ TransGen r.Has id x := by
  induction h with
  | @single y hedge =>
    by_cases hd : d = id
    · subst hd
      exact Or.inr (.single hedge)
    · exact Or.inl (.single (has_eraseChild.2 ⟨hedge, hd⟩))
  | @tail y z _ hedge ih =>
    by_cases hy : y = id
    · subst hy
      exact Or.inr (.single hedge)
    · exact ih.imp (·.tail (has_eraseChild.2 ⟨hedge, hy⟩)) (·.tail hedge)

theorem Has.of_eraseChild {child parent : String} (h : (r.eraseChild id).Has child parent) :
    r.Has child parent :=
  (has_eraseChild.1 h).1

/-- What the first of some templates affects, and what the others affect when its edges are gone, is all that
they affect together. -/
theorem affected_cons :
    r.Affected (id :: ids) x ↔
      (x = id ∨ x ∈ r.dependents id) ∨ (r.eraseChild id).Affected ids x := by
  rw [← eq_or_path_iff]
  constructor
  · rintro ⟨d, hd, hx⟩
    rcases List.mem_cons.1 hd with rfl | hd
    · exact Or.inl hx
    · rcases hx with rfl | hpath
      · exact Or.inr ⟨x, hd, Or.inl rfl⟩
      · rcases path_eraseChild hpath id with hclear | hleads
        · exact Or.inr ⟨d, hd, Or.inr hclear⟩
        · exact Or.inl (Or.inr hleads)
  · rintro (hx | ⟨d, hd, hx⟩)
    · exact ⟨id, List.mem_cons_self, hx⟩
    · exact ⟨d, List.mem_cons_of_mem _ hd, hx.imp_right fun hpath =>
        TransGen.mono (fun _ _ => Has.of_eraseChild) _ _ hpath⟩

end Relations

namespace Cache

variable {σ α : Type} (c : Cache σ α)

theorem version_eq (k : String) : c.version k = ⟨c.epoch, c.count k⟩ := rfl

/-! ### One template -/

@[simp] theorem sources_invalidate (id k : String) :
    (c.invalidate id).sources.get? k = if k = id then none else c.sources.get? k :=
  Store.get?_erase c.sources id k

@[simp] theorem compiled_invalidate (id k : String) :
    (c.invalidate id).compiled.get? k =
      if k ∈ c.relations.dependents id ∨ k = id then none else c.compiled.get? k := by
  rw [invalidate, Store.get?_eraseAll, Store.get?_erase]
  by_cases h : k ∈ c.relations.dependents id <;> by_cases he : k = id <;> simp [h, he]

@[simp] theorem has_invalidate (id child parent : String) :
    (c.invalidate id).relations.Has child parent ↔ c.relations.Has child parent ∧ child ≠ id :=
  Relations.has_eraseChild

@[simp] theorem epoch_invalidate (id : String) : (c.invalidate id).epoch = c.epoch := rfl

@[simp] theorem count_invalidate (id k : String) :
    (c.invalidate id).count k = if k = id then c.count id + 1 else c.count k := by
  simp only [count, invalidate, Store.lookup_putIn]
  by_cases h : k = id <;> simp [h]

theorem entries_compiled_invalidate (id : String) :
    (c.invalidate id).compiled.entries =
      c.compiled.entries.filter fun e => ¬ (e.1 = id ∨ e.1 ∈ c.relations.dependents id) := by
  rw [invalidate, Store.entries_eraseAll, Store.entries_erase, List.filter_filter]
  refine List.filter_congr fun e _ => ?_
  rw [← Bool.decide_and]
  exact decide_eq_decide.2 (by tauto)

/-- A compiled form that an invalidation leaves belongs to a template that nothing leads to from the
invalidated one. -/
theorem compiled_of_invalidate {id k : String} {a : α}
    (h : (c.invalidate id).compiled.get? k = some a) :
    c.compiled.get? k = some a ∧ k ≠ id ∧ ¬ TransGen c.relations.Has id k := by
  rw [compiled_invalidate] at h
  split at h
  · exact absurd h (by simp)
  · next hk =>
    rw [not_or, Relations.mem_dependents, not_and] at hk
    exact ⟨h, hk.2, hk.1 hk.2⟩

theorem version_lt_invalidate (id : String) : c.version id < (c.invalidate id).version id := by
  simp [Version.lt_iff, version_eq]

theorem version_invalidate_of_ne {id k : String} (h : k ≠ id) :
    (c.invalidate id).version k = c.version k := by
  simp [version_eq, h]

/-! ### Some templates in turn -/

/-- What a cache is after some templates were invalidated. Gone are their texts and the edges to their parents,
and the compiled forms of all that they affect; each version is as many invalidations further on. -/
structure Invalidated (c : Cache σ α) (ids : List String) (c' : Cache σ α) : Prop where
  sources : c'.sources.entries = c.sources.entries.filter fun e => e.1 ∉ ids
  compiled : c'.compiled.entries = c.compiled.entries.filter fun e => ¬ c.relations.Affected ids e.1
  relations : c'.relations.edges = c.relations.edges.filter fun e => e.child ∉ ids
  version : ∀ x, c'.version x = ⟨c.epoch, c.count x + ids.count x⟩

/-- What is left when some templates are invalidated in turn. -/
theorem invalidated_invalidateEach (ids : List String) :
    c.Invalidated ids (c.invalidateEach ids) := by
  induction ids generalizing c with
  | nil => exact ⟨by simp [invalidateEach], by simp [invalidateEach, Relations.Affected],
      by simp [invalidateEach], fun x => by simp [invalidateEach, version_eq]⟩
  | cons id ids ih =>
    have hstep : c.invalidateEach (id :: ids) = (c.invalidate id).invalidateEach ids := rfl
    have hrest := ih (c.invalidate id)
    have hrelations : (c.invalidate id).relations = c.relations.eraseChild id := rfl
    rw [hstep]
    refine ⟨?_, ?_, ?_, fun x => ?_⟩
    · rw [hrest.sources, invalidate, Store.entries_erase, List.filter_filter]
      refine List.filter_congr fun e _ => ?_
      by_cases he : e.1 = id <;> simp [he]
    · rw [hrest.compiled, entries_compiled_invalidate, List.filter_filter]
      refine List.filter_congr fun e _ => ?_
      rw [← Bool.decide_and, hrelations]
      refine decide_eq_decide.2 ?_
      rw [Relations.affected_cons]
      tauto
    · rw [hrest.relations, hrelations, Relations.eraseChild, withoutChild, List.filter_filter]
      refine List.filter_congr fun e _ => ?_
      by_cases he : e.child = id <;> simp [he]
    · rw [hrest.version, epoch_invalidate, count_invalidate, List.count_cons]
      by_cases hx : x = id
      · subst hx
        simp [Nat.add_assoc, Nat.add_comm 1]
      · simp [hx, Ne.symm hx]

theorem sources_invalidateEach (ids : List String) (k : String) :
    (c.invalidateEach ids).sources.get? k = if k ∈ ids then none else c.sources.get? k := by
  rw [Store.get?, (invalidated_invalidateEach c ids).sources, Store.lookup_filter (· ∉ ids), ite_not]
  rfl

/-- Only compiled forms of other templates are left. -/
theorem compiled_of_invalidateEach {ids : List String} {k : String} {a : α}
    (h : (c.invalidateEach ids).compiled.get? k = some a) :
    c.compiled.get? k = some a ∧ k ∉ ids := by
  rw [Store.get?, (invalidated_invalidateEach c ids).compiled,
    Store.lookup_filter (¬ c.relations.Affected ids ·)] at h
  split at h
  · next haffected => exact ⟨h, fun hk => haffected ⟨k, hk, Or.inl rfl⟩⟩
  · cases h

/-- The relations that are left were there before, and lead from other templates. -/
theorem has_of_invalidateEach {ids : List String} {child parent : String}
    (h : (c.invalidateEach ids).relations.Has child parent) :
    c.relations.Has child parent ∧ child ∉ ids := by
  rw [Relations.Has, (invalidated_invalidateEach c ids).relations] at h
  exact ⟨List.mem_of_mem_filter h, by simpa using (List.mem_filter.1 h).2⟩

/-! ### All templates -/

/-- No text is left when all templates are invalidated. -/
theorem sources_invalidateAll (k : String) : c.invalidateAll.sources.get? k = none := by
  rw [invalidateAll, sources_invalidateEach]
  split
  · rfl
  · next h =>
    rw [Store.mem_ids_iff, not_exists] at h
    exact Option.eq_none_iff_forall_not_mem.2 h

/-- A compiled form is left only if its template had no text. -/
theorem compiled_of_invalidateAll {k : String} {a : α}
    (h : c.invalidateAll.compiled.get? k = some a) :
    c.compiled.get? k = some a ∧ c.sources.get? k = none := by
  obtain ⟨hk, hmem⟩ := compiled_of_invalidateEach _ h
  rw [Store.mem_ids_iff, not_exists] at hmem
  exact ⟨hk, Option.eq_none_iff_forall_not_mem.2 hmem⟩

/-- A relation is left only if it leads from a template that had no text. -/
theorem has_of_invalidateAll {child parent : String} (h : c.invalidateAll.relations.Has child parent) :
    c.relations.Has child parent ∧ c.sources.get? child = none := by
  obtain ⟨hhas, hmem⟩ := has_of_invalidateEach { c with epoch := c.epoch + 1 } h
  rw [Store.mem_ids_iff, not_exists] at hmem
  exact ⟨hhas, Option.eq_none_iff_forall_not_mem.2 hmem⟩

theorem version_lt_invalidateAll (k : String) : c.version k < c.invalidateAll.version k := by
  rw [invalidateAll, (invalidated_invalidateEach _ _).version]
  exact Version.lt_iff.2 (Or.inl (Nat.lt_succ_self c.epoch))

theorem version_lt_clear (k : String) : c.version k < c.clear.version k :=
  Version.lt_iff.2 (Or.inl (Nat.lt_succ_self c.epoch))

/-! ### What is current -/

/-- A snapshot is current if every version in it is still the version of its template. -/
theorem isCurrent_iff {taken : Snapshot} :
    c.isCurrent taken = true ↔ ∀ id v, (id, v) ∈ taken → c.version id = v := by
  simp only [isCurrent, List.all_eq_true, beq_iff_eq]
  exact ⟨fun h id v hm => h (id, v) hm, fun h p hm => h p.1 p.2 hm⟩

end Cache

end Stencil
