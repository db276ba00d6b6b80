import Mathlib.Logic.Relation
import Stencil.Cache.Relations

/-!
# The walk over the dependents of a template

The walk visits, from the templates that wait, all that can be reached by going from a template to one
that includes it, and it goes round the templates that were seen before. Once a template is seen its
edges are taken out of the graph. Nothing is lost by that: a path that comes back to a template can be
cut short there, so a template is reached at all exactly if it is reached by a path that never comes
back.

The main result is `mem_dependents`: the dependents of a template are the other templates on a path of
inclusions from it.
-/

namespace Stencil

open Relation

attribute [ext] Relations

/-- One template is included by another. -/
def Relations.Has (r : Relations) (child parent : String) : Prop := ⟨child, parent⟩ ∈ r.edges

/-- A step along some edges to a template that was not seen. -/
def StepAround (edges : List Edge) (seen : List String) (child parent : String) : Prop :=
  ⟨child, parent⟩ ∈ edges ∧ parent ∉ seen

@[simp] theorem mem_ascending {x : String} {names : List String} : x ∈ ascending names ↔ x ∈ names :=
  List.mem_mergeSort

@[simp] theorem mem_parentsIn {edges : List Edge} {child parent : String} :
    parent ∈ parentsIn edges child ↔ ⟨child, parent⟩ ∈ edges := by
  simp only [parentsIn, List.mem_map, List.mem_filter, beq_iff_eq]
  constructor
  · rintro ⟨⟨c, p⟩, ⟨he, rfl⟩, rfl⟩
    exact he
  · intro h
    exact ⟨⟨child, parent⟩, ⟨h, rfl⟩, rfl⟩

@[simp] theorem mem_withoutChild {edges : List Edge} {child : String} {e : Edge} :
    e ∈ withoutChild edges child ↔ e ∈ edges ∧ e.child ≠ child := by
  simp [withoutChild]

/-- A path that does not enter what was seen can be cut short at its last visit to `id`: it ends there,
or it goes on from a parent of `id`, or from its own start, and never comes back. -/
theorem StepAround.cut {edges : List Edge} {seen : List String} {w x : String} (id : String)
    (hw : w ∉ seen) (h : ReflTransGen (StepAround edges seen) w x) :
    x = id ∨ ∃ w', (w' = w ∨ ⟨id, w'⟩ ∈ edges) ∧ w' ∉ id :: seen ∧
      ReflTransGen (StepAround (withoutChild edges id) (id :: seen)) w' x := by
  induction h with
  | refl =>
    by_cases hwid : w = id
    · exact Or.inl hwid
    · exact Or.inr ⟨w, Or.inl rfl, by simp [hwid, hw], .refl⟩
  | @tail y z _ hstep ih =>
    obtain ⟨hedge, hz⟩ := hstep
    by_cases hzid : z = id
    · exact Or.inl hzid
    · have hz' : z ∉ id :: seen := by simp [hzid, hz]
      by_cases hyid : y = id
      · subst hyid
        exact Or.inr ⟨z, Or.inr hedge, hz', .refl⟩
      · rcases ih with rfl | ⟨w', hw', hns, hpath⟩
        · exact absurd rfl hyid
        · have hstep' : StepAround (withoutChild edges id) (id :: seen) y z :=
            ⟨mem_withoutChild.2 ⟨hedge, hyid⟩, hz'⟩
          exact Or.inr ⟨w', hw', hns, hpath.tail hstep'⟩

/-- A path that goes round more also goes round less. -/
theorem StepAround.widen {edges : List Edge} {seen : List String} {id w x : String}
    (h : ReflTransGen (StepAround (withoutChild edges id) (id :: seen)) w x) :
    ReflTransGen (StepAround edges seen) w x := by
  refine ReflTransGen.mono (fun a b hab => ?_) _ _ h
  exact ⟨(mem_withoutChild.1 hab.1).1, fun hb => hab.2 (List.mem_cons_of_mem _ hb)⟩

/-- What the walk visits: all that is reached from what waits by a path around what was seen. -/
theorem Relations.mem_visit {edges : List Edge} {seen waiting : List String} {x : String} :
    x ∈ visit edges seen waiting ↔
      ∃ w ∈ waiting, w ∉ seen ∧ ReflTransGen (StepAround edges seen) w x := by
  induction edges, seen, waiting using visit.induct with
  | case1 edges seen => simp [visit]
  | case2 edges seen id rest hseen ih =>
    have hmem : id ∈ seen := by simpa using hseen
    rw [visit, if_pos hseen, ih]
    constructor
    · rintro ⟨w, hw, h⟩
      exact ⟨w, List.mem_cons_of_mem _ hw, h⟩
    · rintro ⟨w, hw, hns, h⟩
      rcases List.mem_cons.1 hw with rfl | hw
      · exact absurd hmem hns
      · exact ⟨w, hw, hns, h⟩
  | case3 edges seen id rest hseen ih =>
    have hmem : id ∉ seen := by simpa using hseen
    rw [visit, if_neg hseen, List.mem_cons, ih]
    constructor
    · rintro (rfl | ⟨w, hw, hns, hpath⟩)
      · exact ⟨x, List.mem_cons_self, hmem, .refl⟩
      · have hpath' := StepAround.widen hpath
        have hns' : w ∉ seen := fun hs => hns (List.mem_cons_of_mem _ hs)
        rcases List.mem_append.1 hw with hw | hw
        · have hedge : ⟨id, w⟩ ∈ edges := by simpa using hw
          exact ⟨id, List.mem_cons_self, hmem, hpath'.head ⟨hedge, hns'⟩⟩
        · exact ⟨w, List.mem_cons_of_mem _ hw, hns', hpath'⟩
    · rintro ⟨w, hw, hns, hpath⟩
      rcases StepAround.cut id hns hpath with hx | ⟨w', hw', hns', hpath'⟩
      · exact Or.inl hx
      · refine Or.inr ⟨w', ?_, hns', hpath'⟩
        have hne : w' ≠ id := fun he => hns' (by simp [he])
        rcases hw' with rfl | hedge
        · rcases List.mem_cons.1 hw with rfl | hw
          · exact absurd rfl hne
          · exact List.mem_append_right _ hw
        · exact List.mem_append_left _ (by simpa using hedge)

/-- A path of inclusions from a template ends there, or it goes on from one of its parents and never
comes back. -/
theorem Relations.leaves_last {r : Relations} {id x : String} (h : TransGen r.Has id x) :
    x = id ∨ ∃ w, r.Has id w ∧ w ≠ id ∧ ReflTransGen (StepAround r.edges [id]) w x := by
  induction h with
  | @single y hedge =>
    by_cases hy : y = id
    · exact Or.inl hy
    · exact Or.inr ⟨y, hedge, hy, .refl⟩
  | @tail y z _ hedge ih =>
    by_cases hz : z = id
    · exact Or.inl hz
    · rcases ih with rfl | ⟨w, hw, hne, hpath⟩
      · exact Or.inr ⟨z, hedge, hz, .refl⟩
      · exact Or.inr ⟨w, hw, hne, hpath.tail ⟨hedge, by simpa using hz⟩⟩

/-- The dependents of a template are the other templates that include it, directly or through others. -/
theorem Relations.mem_dependents {r : Relations} {id x : String} :
    x ∈ r.dependents id ↔ x ≠ id ∧ TransGen r.Has id x := by
  rw [dependents, mem_visit]
  simp only [List.mem_reverse, mem_ascending, Relations.parents, mem_parentsIn, List.mem_singleton]
  constructor
  · rintro ⟨w, hw, hne, hpath⟩
    refine ⟨?_, ?_⟩
    · rcases hpath.cases_tail with rfl | ⟨y, -, hstep⟩
      · exact hne
      · simpa using hstep.2
    · exact TransGen.head' hw (ReflTransGen.mono (fun _ _ hab => hab.1) _ _ hpath)
  · rintro ⟨hne, hpath⟩
    rcases leaves_last hpath with hx | h
    · exact absurd hx hne
    · exact h

@[simp] theorem Relations.has_insert {r : Relations} {c p child parent : String} :
    (r.insert c p).Has child parent ↔ r.Has child parent ∨ (child = c ∧ parent = p) := by
  simp only [insert, Has]
  split
  · next h =>
    have hmem : ⟨c, p⟩ ∈ r.edges := by simpa using h
    constructor
    · exact Or.inl
    · rintro (h | ⟨rfl, rfl⟩)
      · exact h
      · exact hmem
  · simp

/-- An edge that is there is not put again. -/
theorem Relations.insert_eq_self {r : Relations} {child parent : String} (h : r.Has child parent) :
    r.insert child parent = r := by
  have hc : r.edges.contains ⟨child, parent⟩ = true :=
    List.contains_iff_mem.2 h
  rw [insert, if_pos hc]

@[simp] theorem Relations.has_eraseChild {r : Relations} {c child parent : String} :
    (r.eraseChild c).Has child parent ↔ r.Has child parent ∧ child ≠ c :=
  mem_withoutChild

/-- A template with a name is another one or leads to it by a path of inclusions. -/
structure Relations.Leads (r : Relations) (c x : String) : Prop where
  named : c ≠ ""
  path : ReflTransGen r.Has c x

namespace Relations.Leads

variable {r : Relations} {c p x : String}

theorem eq_or_path (h : r.Leads c x) : x = c ∨ TransGen r.Has c x :=
  reflTransGen_iff_eq_or_transGen.1 h.path

/-- What is set into a template that leads on leads on too. -/
theorem of_edge (h : r.Leads p x) (hc : c ≠ "") (hedge : p = "" ∨ r.Has c p) : r.Leads c x := by
  rcases hedge with rfl | hhas
  · exact absurd rfl h.named
  · exact ⟨hc, h.path.head hhas⟩

end Relations.Leads

end Stencil
