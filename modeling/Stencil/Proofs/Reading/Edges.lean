import Stencil.Proofs.Reading.Circles
import Stencil.Proofs.Reading.Resumption

/-!
# The relations that a reading leaves

The tree of a template is made of its includes, of the includes of those, and so on (`World.InTree`). A reading
relates every include that it comes to, whether the text of the template is there or has to be waited for, so the
relations that it adds are those of the tree.

* No other is added: the templates that a reading stands in lie in the tree, and so does each that it goes into
  (`readTemplate_adds`, `resume_adds`).
* None is missing where all is assembled to a text, for then every include of the tree has been entered
  (`Gives.related`).
-/

namespace Stencil

open Relation

namespace World

/-- In the tree of includes of a template, `X`, the template `p` includes the template `c`. -/
def InTree (W : World) (X c p : String) : Prop := ReflTransGen W.Includes X p ∧ W.Includes p c

variable {W W' : World} {X c p : String}

theorem Includes.of_le (hname : ∀ n x, W.name n x → W'.name n x) (htext : ∀ d x, W.text d x → W'.text d x)
    (h : W.Includes p c) : W'.Includes p c := by
  obtain ⟨text, name, ht, hmem, hn⟩ := h
  exact ⟨text, name, htext _ _ ht, hmem, hname _ _ hn⟩

/-- Only templates include anything. -/
theorem Includes.isTemplate (h : W.Includes p c) : Identifier.isTemplate p = true := by
  obtain ⟨text, name, -, hmem, -⟩ := h
  rw [segmentsOf] at hmem
  split at hmem
  · next htemplate => exact htemplate
  · cases List.mem_singleton.1 hmem

theorem Includes.ne_empty (h : W.Includes p c) : p ≠ "" := by
  rintro rfl
  have hblank : Identifier.isTemplate "" = false := by decide
  have htemplate := h.isTemplate
  rw [hblank] at htemplate
  exact nomatch htemplate

theorem InTree.of_le (hname : ∀ n x, W.name n x → W'.name n x) (htext : ∀ d x, W.text d x → W'.text d x)
    (h : W.InTree X c p) : W'.InTree X c p :=
  ⟨ReflTransGen.mono (fun _ _ => Includes.of_le hname htext) _ _ h.1, h.2.of_le hname htext⟩

end World

/-- In what is assembled to a text every include of the tree has been related. -/
theorem Gives.related {W : World} (hsingle : W.Single) {X c p flat : String}
    (h : Gives W [] X (.ok flat)) (hc : W.InTree X c p) : W.edge c p := by
  obtain ⟨chain, inner, henters⟩ := h.entered hsingle hc.1
  exact (henters.child hsingle hc.2).1

namespace Reading

/-- The relations of a trail are those of another one, and new ones of some kind. -/
def Adds (R : String → String → Prop) (t t' : Trail) : Prop :=
  ∀ c p, t'.relations.Has c p → t.relations.Has c p ∨ R c p

section Adds

variable {R : String → String → Prop} {t t' t'' : Trail}

theorem Adds.refl (t : Trail) : Adds R t t := fun _ _ => Or.inl

theorem Adds.trans (h : Adds R t t') (h' : Adds R t' t'') : Adds R t t'' := by
  intro c p hc
  rcases h' c p hc with hc | hR
  · exact h c p hc
  · exact Or.inr hR

theorem adds_enter (d : Desk) {id : String} {parent : Option String}
    (hparent : ∀ p, parent = some p → p ≠ "" → R id p) : Adds R t (t.enter d id parent) := by
  intro c p hc
  rw [Trail.enter, relations_take, has_relate] at hc
  rcases hc with hc | ⟨hp, hne, rfl⟩
  · exact Or.inl hc
  · exact Or.inr (hparent p hp hne)

end Adds

/-- Frames that lead from a template go along its includes. -/
theorem FramesFit.reached {W : World} {base : List String} {root inner : String} {frames : List Frame}
    (h : FramesFit W base root inner frames) : ReflTransGen W.Includes root inner := by
  induction frames generalizing inner with
  | nil =>
    rw [FramesFit] at h
    exact h ▸ .refl
  | cons f rest ih =>
    obtain ⟨text, before, name, htext, hparts, -, hname⟩ := h.1.at_include
    refine (ih h.2).tail ⟨text, name, htext, ?_, hname⟩
    rw [hparts]
    exact List.mem_append_right _ List.mem_cons_self

variable (d : Desk) {W : World} {X : String} {R : String → String → Prop}
  (hname : ∀ n, W.name n (d.normalize (String.ofList n)))
  (htext : ∀ id text, d.sources.get? id = some text → W.text id (.ok text))
  (hR : ∀ c p, W.InTree X c p → R c p)

include hname htext hR

/-- A reading of a template in the tree adds relations of the tree, and so does a reading of segments of such a
template. -/
theorem read_adds :
    (∀ chain parent id t, ReflTransGen W.Includes X id → (∀ p, parent = some p → p ≠ "" → R id p) →
      Adds R t (readTemplate d chain parent id t).2) ∧
    ∀ chain id before rest t, ReflTransGen W.Includes X id →
      (∃ text, W.text id (.ok text) ∧ ∀ part ∈ rest, part ∈ segmentsOf id text) →
      Adds R t (readSegments d chain id before rest t).2 := by
  -- the template of an include is in the tree as well, and is related by an include of the tree
  have hnext : ∀ {id text name child}, ReflTransGen W.Includes X id → W.text id (.ok text) →
      .include name ∈ segmentsOf id text → d.normalize (String.ofList name) = .ok child →
      ReflTransGen W.Includes X child ∧ ∀ p, some id = some p → p ≠ "" → R child p := by
    intro id text name child hid ht hmem hn
    have hincludes : W.Includes id child := ⟨text, name, ht, hmem, hn ▸ hname name⟩
    refine ⟨hid.tail hincludes, ?_⟩
    rintro p ⟨⟩ -
    exact hR _ _ ⟨hid, hincludes⟩
  refine read_induct d
    (P := fun _ parent id t r => ReflTransGen W.Includes X id →
      (∀ p, parent = some p → p ≠ "" → R id p) → Adds R t r.2)
    (Q := fun _ id _ rest t r => ReflTransGen W.Includes X id →
      (∃ text, W.text id (.ok text) ∧ ∀ part ∈ rest, part ∈ segmentsOf id text) → Adds R t r.2)
    ?_ ?_ ?_ ?_ ?_ ?_ ?_ ?_ ?_
  -- a template: it is refused, waited for, or read
  · exact fun chain parent id t _ _ _ => .refl t
  · exact fun chain parent id t _ _ _ hparent => adds_enter d hparent
  · intro chain parent id t text _ hs r ih hid hparent
    exact (adds_enter d hparent).trans (ih hid ⟨text, htext id text hs, fun _ hpart => hpart⟩)
  -- segments: none is left, a literal one, or an include
  · exact fun chain id before t _ _ => .refl t
  · rintro chain id before cs rest t r ih hid ⟨text, ht, hrest⟩
    exact ih hid ⟨text, ht, fun part hpart => hrest part (List.mem_cons_of_mem _ hpart)⟩
  · exact fun chain id before name rest t f _ _ _ => .refl t
  · rintro chain id before name rest t child inner t' hn ih r ih' hid ⟨text, ht, hrest⟩
    obtain ⟨hchild, hparent⟩ := hnext hid ht (hrest _ List.mem_cons_self) hn
    refine (ih hchild hparent).trans (ih' hid ⟨text, ht, fun part hpart => ?_⟩)
    exact hrest part (List.mem_cons_of_mem _ hpart)
  · rintro chain id before name rest t child f t' hn ih hid ⟨text, ht, hrest⟩
    obtain ⟨hchild, hparent⟩ := hnext hid ht (hrest _ List.mem_cons_self) hn
    exact ih hchild hparent
  · rintro chain id before name rest t child w t' hn ih hid ⟨text, ht, hrest⟩
    obtain ⟨hchild, hparent⟩ := hnext hid ht (hrest _ List.mem_cons_self) hn
    exact ih hchild hparent

/-- Going on with the templates around an include adds relations of the tree. -/
theorem climb_adds {inner : String} {frames : List Frame} {t : Trail} {r : Outcome × Trail}
    (hframes : FramesFit W [] X inner frames) (h : Adds R t r.2) : Adds R t (climb d frames r).2 := by
  induction frames generalizing inner r with
  | nil =>
    rw [climb]
    exact h
  | cons f rest ih =>
    obtain ⟨outcome, t'⟩ := r
    cases outcome with
    | failed e =>
      rw [climb]
      exact h
    | waits w =>
      rw [climb_waits]
      exact h
    | done text =>
      obtain ⟨all, before, name, hall, hparts, -, -⟩ := hframes.1.at_include
      have hrest : ∀ part ∈ f.rest, part ∈ segmentsOf f.id all := by
        intro part hpart
        rw [hparts]
        exact List.mem_append_right _ (List.mem_cons_of_mem _ hpart)
      have hread := (read_adds d hname htext hR).2 (f.id :: chainOf rest) f.id (f.before ++ text) f.rest t'
        hframes.2.reached ⟨all, hall, hrest⟩
      rw [climb]
      exact ih hframes.2 (h.trans hread)

/-- Going on with a text that was waited for adds relations of the tree. -/
theorem resume_adds {w : Wait} {text : String} (hframes : FramesFit W [] X w.id w.frames)
    (hw : W.text w.id (.ok text)) (t : Trail) : Adds R t (resume d w text t).2 := by
  rw [resume_eq]
  refine climb_adds d hname htext hR hframes ?_
  exact (read_adds d hname htext hR).2 _ _ _ _ _ hframes.reached ⟨text, hw, fun _ hpart => hpart⟩

end Reading

end Stencil
