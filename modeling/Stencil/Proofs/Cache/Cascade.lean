import Stencil.Cache
import Stencil.Proofs.Cache.Dependents
import Stencil.Proofs.Cache.Store

/-!
# Dropping the dependents of a template, turn by turn

The compiled dependents of a template are dropped while they are being looked for. A walk keeps a list of
what it has visited and a list of what waits, and every turn takes the last template that waits. One that was
seen before is passed over; any other is visited, its compiled form is dropped, and its own parents wait. The
edges stay as they are, so a template can wait many times, and on a circle the walk comes back to where it
began.

`Relations.visit` never comes back because it takes out the edges of what it has visited. Edges of a template
that was seen are never looked at again, so both walks are the same (`Walk.ends_visit`), and the walk ends.
What it visits is each of the other templates that include its own, directly or through others, once, and
each one as a parent of its own or of one visited before (`Cache.dropDependents_exact`).
-/

namespace Stencil

open Relation

variable {σ α : Type}

/-- How far a walk over the dependents of a template is. -/
structure Walk (α : Type) where
  visited : List String := []
  /-- The templates that wait, the next one last. -/
  waiting : List String
  compiled : Store α

namespace Walk

/-- One turn of the walk over the dependents of a template, if any waits. -/
def turn (r : Relations) (id : String) (w : Walk α) : Option (Walk α) :=
  w.waiting.getLast?.map fun next =>
    if next = id ∨ next ∈ w.visited then { w with waiting := w.waiting.dropLast }
    else
      { visited := w.visited ++ [next]
        waiting := w.waiting.dropLast ++ ascending (r.parents next)
        compiled := w.compiled.erase next }

/-- Turn after turn a walk ends as another one: nothing waits any more. -/
inductive Ends (r : Relations) (id : String) : Walk α → Walk α → Prop
  | stops {w : Walk α} : w.turn r id = none → Ends r id w w
  | goes {w w' ended : Walk α} : w.turn r id = some w' → Ends r id w' ended → Ends r id w ended

variable {r : Relations} {id next : String} {visited waiting : List String} {compiled : Store α}

theorem turn_seen (h : next = id ∨ next ∈ visited) :
    turn r id ⟨visited, waiting ++ [next], compiled⟩ = some ⟨visited, waiting, compiled⟩ := by
  simp [turn, h]

theorem turn_new (h : ¬ (next = id ∨ next ∈ visited)) :
    turn r id ⟨visited, waiting ++ [next], compiled⟩ =
      some ⟨visited ++ [next], waiting ++ ascending (r.parents next), compiled.erase next⟩ := by
  simp [turn, h]

/-- A walk ends in one way only. -/
theorem Ends.unique {w v v' : Walk α} (h : Ends r id w v) (h' : Ends r id w v') : v = v' := by
  induction h with
  | stops hnone =>
    cases h' with
    | stops => rfl
    | goes hturn => exact nomatch hnone.symm.trans hturn
  | goes hturn _ ih =>
    cases h' with
    | stops hnone => exact nomatch hnone.symm.trans hturn
    | goes hturn' hrest =>
      obtain rfl := Option.some.inj (hturn.symm.trans hturn')
      exact ih hrest

end Walk

/-! ### The walk and the visits -/

theorem parentsIn_withoutChild {edges : List Edge} {id child : String} (h : child ≠ id) :
    parentsIn (withoutChild edges id) child = parentsIn edges child := by
  rw [parentsIn, parentsIn, withoutChild, List.filter_filter]
  congr 1
  refine List.filter_congr fun e _ => ?_
  by_cases he : e.child = child <;> simp [he, h]

/-- The walk visits what is visited when edges are taken out, as long as all edges of the templates that were
not seen are there. -/
theorem Walk.ends_visit (r : Relations) (id : String) (edges : List Edge) (seen waiting : List String) :
    ∀ (visited : List String) (compiled : Store α), (∀ x, x ∈ seen ↔ x = id ∨ x ∈ visited) →
      (∀ x, x ∉ seen → parentsIn edges x = r.parents x) →
      Ends r id ⟨visited, waiting.reverse, compiled⟩
        ⟨visited ++ Relations.visit edges seen waiting, [],
          compiled.eraseAll (Relations.visit edges seen waiting)⟩ := by
  induction edges, seen, waiting using Relations.visit.induct with
  | case1 edges seen =>
    intro visited compiled _ _
    rw [Relations.visit, List.append_nil]
    exact .stops rfl
  | case2 edges seen next rest hcontains ih =>
    intro visited compiled hseen hedges
    have hnext : next ∈ seen := by simpa using hcontains
    rw [Relations.visit, if_pos hcontains, List.reverse_cons]
    exact .goes (turn_seen ((hseen next).1 hnext)) (ih visited compiled hseen hedges)
  | case3 edges seen next rest hcontains ih =>
    intro visited compiled hseen hedges
    have hnext : next ∉ seen := by simpa using hcontains
    rw [Relations.visit, if_neg hcontains, List.reverse_cons, hedges next hnext]
    refine .goes (turn_new (mt (hseen next).2 hnext)) ?_
    have hseen' : ∀ x, x ∈ next :: seen ↔ x = id ∨ x ∈ visited ++ [next] := by
      intro x
      rw [List.mem_cons, hseen, List.mem_append, List.mem_singleton]
      tauto
    have hedges' : ∀ x, x ∉ next :: seen → parentsIn (withoutChild edges next) x = r.parents x := by
      intro x hx
      rw [List.mem_cons, not_or] at hx
      rw [parentsIn_withoutChild hx.1, hedges x hx.2]
    -- the parents wait behind the others: in reverse, they come first
    have hends := ih (visited ++ [next]) (compiled.erase next) hseen' hedges'
    rw [hedges next hnext, List.reverse_append, List.reverse_reverse, List.append_assoc,
      List.singleton_append] at hends
    exact hends

namespace Relations

variable {edges : List Edge} {seen waiting : List String} {x : String}

theorem not_mem_seen_of_mem_visit (h : x ∈ visit edges seen waiting) : x ∉ seen := by
  obtain ⟨w, -, hw, hpath⟩ := mem_visit.1 h
  rcases hpath.cases_tail with rfl | ⟨y, -, hstep⟩
  · exact hw
  · exact hstep.2

/-- No template is visited twice. -/
theorem nodup_visit (edges : List Edge) (seen waiting : List String) :
    (visit edges seen waiting).Nodup := by
  induction edges, seen, waiting using visit.induct with
  | case1 edges seen => simp [visit]
  | case2 edges seen id rest hseen ih =>
    rw [visit, if_pos hseen]
    exact ih
  | case3 edges seen id rest hseen ih =>
    rw [visit, if_neg hseen]
    exact List.nodup_cons.2 ⟨fun hmem => not_mem_seen_of_mem_visit hmem List.mem_cons_self, ih⟩

/-- A template that is visited was waiting, or it is a parent of one that was visited before. -/
theorem visit_eq_append {before after : List String}
    (h : visit edges seen waiting = before ++ x :: after) :
    x ∈ waiting ∨ ∃ d ∈ before, ⟨d, x⟩ ∈ edges := by
  induction edges, seen, waiting using visit.induct generalizing before with
  | case1 edges seen => simp [visit] at h
  | case2 edges seen id rest hseen ih =>
    rw [visit, if_pos hseen] at h
    exact (ih h).imp_left (List.mem_cons_of_mem _)
  | case3 edges seen id rest hseen ih =>
    rw [visit, if_neg hseen] at h
    rcases before with _ | ⟨first, before⟩
    · rw [List.nil_append, List.cons.injEq] at h
      rw [h.1]
      exact Or.inl List.mem_cons_self
    · rw [List.cons_append, List.cons.injEq] at h
      obtain ⟨rfl, h⟩ := h
      rcases ih h with hwaiting | ⟨d, hd, hedge⟩
      · rcases List.mem_append.1 hwaiting with hparent | hrest
        · exact Or.inr ⟨id, List.mem_cons_self, by simpa using hparent⟩
        · exact Or.inl (List.mem_cons_of_mem _ hrest)
      · exact Or.inr ⟨d, List.mem_cons_of_mem _ hd, (mem_withoutChild.1 hedge).1⟩

/-- Each dependent is a parent of the template or of a dependent before it. -/
theorem dependents_eq_append {r : Relations} {id : String} {before after : List String}
    (h : r.dependents id = before ++ x :: after) : ∃ d, (d = id ∨ d ∈ before) ∧ r.Has d x := by
  rcases visit_eq_append h with hwaiting | ⟨d, hd, hedge⟩
  · exact ⟨id, Or.inl rfl, by simpa [Relations.parents, Has] using hwaiting⟩
  · exact ⟨d, Or.inr hd, hedge⟩

end Relations

/-- The walk from the parents of a template ends, whatever the relations, as the one that has visited its
dependents and dropped their compiled forms. -/
theorem Walk.ends_dependents (r : Relations) (id : String) (compiled : Store α) :
    Ends r id { waiting := ascending (r.parents id), compiled }
      ⟨r.dependents id, [], compiled.eraseAll (r.dependents id)⟩ := by
  have hends := ends_visit r id r.edges [id] (ascending (r.parents id)).reverse [] compiled
    (by simp) (fun _ _ => rfl)
  rwa [List.reverse_reverse, List.nil_append] at hends

/-- Dropping the dependents of a template ends, with circles or without. Dropped are, each once, the other
templates that include it, directly or through others, and each as a parent of the template itself or of one
that was dropped before. Exactly their compiled forms are gone; all others, that of the template itself among
them, stay as they are. -/
theorem Cache.dropDependents_exact (c : Cache σ α) (id : String) :
    (∀ ended, Walk.Ends c.relations id
        { waiting := ascending (c.relations.parents id), compiled := c.compiled } ended ↔
      ended = ⟨c.relations.dependents id, [], (c.dropDependents id).compiled⟩) ∧
    (c.relations.dependents id).Nodup ∧
    (∀ x, x ∈ c.relations.dependents id ↔ x ≠ id ∧ TransGen c.relations.Has id x) ∧
    (∀ before x after, c.relations.dependents id = before ++ x :: after →
      ∃ d, (d = id ∨ d ∈ before) ∧ c.relations.Has d x) ∧
    (c.dropDependents id).compiled.entries =
      c.compiled.entries.filter (fun e => e.1 ∉ c.relations.dependents id) ∧
    (c.dropDependents id).compiled.get? id = c.compiled.get? id := by
  have hends := Walk.ends_dependents c.relations id c.compiled
  refine ⟨fun ended => ⟨fun h => h.unique hends, ?_⟩, Relations.nodup_visit _ _ _,
    fun x => Relations.mem_dependents, fun _ _ _ => Relations.dependents_eq_append,
    Store.entries_eraseAll _ _, ?_⟩
  · rintro rfl
    exact hends
  · have hself : id ∉ c.relations.dependents id := fun h => (Relations.mem_dependents.1 h).1 rfl
    rw [dropDependents, Store.get?_eraseAll, if_neg hself]

/-! ### A circle with a short cut -/

namespace Ring

/-- Three templates on a circle: each is included by the next one, and the last one by the first. The last one
includes the first one too. -/
def cache : Cache String String :=
  { sources := ⟨[("a", "a text"), ("b", "b text"), ("c", "c text")]⟩
    compiled := ⟨[("a", "A"), ("b", "B"), ("c", "C")]⟩
    relations := ⟨[⟨"a", "b"⟩, ⟨"b", "c"⟩, ⟨"c", "a"⟩, ⟨"a", "c"⟩]⟩ }

theorem dependents_a : cache.relations.dependents "a" = ["c", "b"] := by
  simp [cache, Relations.dependents, Relations.visit, Relations.parents, parentsIn, withoutChild, ascending,
    List.mergeSort]

/-- From the first template the last one is visited first, and the second one still as a parent of the first;
the first one is not dropped itself. -/
theorem dropDependents_exact_ring :
    cache.relations.dependents "a" = ["c", "b"] ∧
      (∃ d, (d = "a" ∨ d ∈ ["c"]) ∧ cache.relations.Has d "b") ∧
      (cache.dropDependents "a").compiled.get? "a" = some "A" := by
  obtain ⟨-, -, -, hparents, -, hself⟩ := Cache.dropDependents_exact cache "a"
  exact ⟨dependents_a, hparents ["c"] "b" [] dependents_a, hself⟩

end Ring

end Stencil
