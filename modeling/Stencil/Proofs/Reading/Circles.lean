import Mathlib.Data.List.Chain
import Mathlib.Data.List.Nodup
import Stencil.Proofs.Reading.Assembly

/-!
# Circles of includes

A template is refused inside of itself only: the guard is the chain of the templates around an include, and
one that was met before but is not in the chain may come again. This refuses circles and nothing else.

* What is refused is a circle. The chain is a path of includes in which no template comes twice, so from the
  template that is refused on it is a circle of includes (`OnPath.circle`), and where every template that can
  be come to is whole an assembly fails in no other way (`Reads.circular_of_error`).
* A circle is refused. What is assembled to a text has been entered along each path of includes, and never
  from inside of itself (`Enters.along`).
-/

namespace Stencil

open Relation

/-- The text of the first template has an include of the second one. -/
def World.Includes (W : World) (parent child : String) : Prop :=
  ∃ text name, W.text parent (.ok text) ∧ .include name ∈ segmentsOf parent text ∧ W.name name (.ok child)

/-- Every template that can be come to from a template by includes has a text, and all names in its includes
are names of templates. -/
def World.Whole (W : World) (id : String) : Prop :=
  ∀ d, ReflTransGen W.Includes id d → ∃ text, W.text d (.ok text) ∧
    ∀ name, .include name ∈ segmentsOf d text → ∃ child, W.name name (.ok child)

/-- A circle begins and ends with the same template, no other one stands in it twice, and each leads to the
next one. -/
def IsCircle (leads : String → String → Prop) (chain : List String) : Prop :=
  ∃ id between, chain = id :: between ++ [id] ∧ (id :: between).Nodup ∧ chain.IsChain leads

/-- A circle leads from each end back to itself. -/
theorem IsCircle.path {leads : String → String → Prop} {chain : List String} (h : IsCircle leads chain) :
    ∃ id ∈ chain, TransGen leads id id := by
  obtain ⟨id, between, rfl, -, hchain⟩ := h
  refine ⟨id, List.mem_cons_self, ?_⟩
  rcases between with _ | ⟨next, between⟩
  · exact .single (List.isChain_pair.1 hchain)
  · obtain ⟨hfirst, hrest⟩ := List.isChain_cons_cons.1 hchain
    exact .head' hfirst (List.relationReflTransGen_of_exists_isChain_cons _ hrest (by simp))

/-- Nothing is met in two ways. -/
structure World.Single (W : World) : Prop where
  name : ∀ n x y, W.name n x → W.name n y → x = y
  text : ∀ d x y, W.text d x → W.text d y → x = y

/-! ### What is refused is a circle -/

/-- Segments of a template inside of others on a path of includes from a first one, the innermost first. -/
structure OnPath (W : World) (id owner : String) (outer : List String) (parts : List Segment) : Prop where
  nodup : (owner :: outer).Nodup
  path : (owner :: outer).IsChain fun child parent => W.Includes parent child
  reached : ∀ p ∈ owner :: outer, ReflTransGen W.Includes id p
  own : ∀ name, .include name ∈ parts →
    ∃ text, W.text owner (.ok text) ∧ .include name ∈ segmentsOf owner text

namespace OnPath

variable {W : World} {id owner child : String} {outer : List String} {part : Segment} {rest : List Segment}
  {name : List Char}

theorem tail (h : OnPath W id owner outer (part :: rest)) : OnPath W id owner outer rest :=
  ⟨h.nodup, h.path, h.reached, fun name hmem => h.own name (List.mem_cons_of_mem _ hmem)⟩

theorem includes (h : OnPath W id owner outer (.include name :: rest)) (hname : W.name name (.ok child)) :
    W.Includes owner child := by
  obtain ⟨text, htext, hmem⟩ := h.own name List.mem_cons_self
  exact ⟨text, name, htext, hmem, hname⟩

/-- The template of an include that is not on the path goes on with it. -/
theorem enter (h : OnPath W id owner outer (.include name :: rest)) (hname : W.name name (.ok child))
    (hmem : child ∉ owner :: outer) {text : String} (htext : W.text child (.ok text)) :
    OnPath W id child (owner :: outer) (segmentsOf child text) := by
  have hincludes := h.includes hname
  refine ⟨List.nodup_cons.2 ⟨hmem, h.nodup⟩, List.isChain_cons_cons.2 ⟨hincludes, h.path⟩, ?_,
    fun name hname => ⟨text, htext, hname⟩⟩
  intro p hp
  rcases List.mem_cons.1 hp with rfl | hp
  · exact (h.reached owner List.mem_cons_self).tail hincludes
  · exact h.reached p hp

/-- The template of an include that is on the path closes a circle. -/
theorem circle (h : OnPath W id owner outer (.include name :: rest)) (hname : W.name name (.ok child))
    (hmem : child ∈ owner :: outer) : IsCircle W.Includes (Reading.circle (owner :: outer) child) := by
  obtain ⟨before, after, hpath, hbefore⟩ := List.eq_append_cons_of_mem (List.mem_reverse.2 hmem)
  have hcircle : Reading.circle (owner :: outer) child = child :: after ++ [child] := by
    rw [Reading.circle, hpath, List.dropWhile_append_of_pos, List.dropWhile_cons_of_neg (by simp)]
    intro a ha
    have hne : a ≠ child := fun he => hbefore (he ▸ ha)
    simpa using hne
  have hnodup : (before ++ child :: after).Nodup := hpath ▸ List.nodup_reverse.2 h.nodup
  have hchain : (before ++ child :: after).IsChain W.Includes := hpath ▸ List.isChain_reverse.2 h.path
  -- the innermost template comes last, and it includes the first one of the circle
  have hlast : (child :: after).getLast? = some owner := by
    rw [← List.getLast?_append_cons before, ← hpath, List.reverse_cons, List.getLast?_concat]
  refine ⟨child, after, hcircle, (List.nodup_append.1 hnodup).2.1, ?_⟩
  rw [hcircle]
  refine List.isChain_append.2 ⟨(List.isChain_append.1 hchain).2.1, .singleton child, ?_⟩
  rintro x hx y hy
  rw [hlast, Option.mem_some_iff] at hx
  rw [List.head?_cons, Option.mem_some_iff] at hy
  subst hx hy
  exact h.includes hname

/-- All templates of that circle can be come to. -/
theorem reached_of_mem_circle (h : OnPath W id owner outer (.include name :: rest))
    (hmem : child ∈ owner :: outer) {p : String} (hp : p ∈ Reading.circle (owner :: outer) child) :
    ReflTransGen W.Includes id p := by
  refine h.reached p ?_
  rcases List.mem_append.1 hp with hp | hp
  · exact List.mem_reverse.1 ((List.dropWhile_suffix _).mem hp)
  · rwa [List.mem_singleton.1 hp]

end OnPath

section

variable {W : World} (hsingle : W.Single) {id : String}

include hsingle

/-- Where every template that can be come to is whole, an assembly fails by a circle of them only. -/
theorem Reads.circular_of_error (hwhole : W.Whole id) {chain : List String} {parts : List Segment}
    {r : Except Fault String} (h : Reads W chain parts r) :
    ∀ {owner outer e}, chain = owner :: outer → OnPath W id owner outer parts → r = .error e →
      ∃ circle, e = .circular circle ∧ IsCircle W.Includes circle ∧
        ∀ p ∈ circle, ReflTransGen W.Includes id p := by
  induction h with
  | nil =>
    intro owner outer e _ _ hr
    exact nomatch hr
  | literal _ ih =>
    intro owner outer e hchain hpath hr
    exact ih hchain hpath.tail (eq_error_of_map hr)
  | unnamed hn =>
    -- the name stands in the text of a whole template
    intro owner outer e hchain hpath hr
    obtain ⟨text, htext, hmem⟩ := hpath.own _ List.mem_cons_self
    obtain ⟨text', htext', hnames⟩ := hwhole owner (hpath.reached owner List.mem_cons_self)
    obtain rfl : text = text' := Except.ok.inj (hsingle.text _ _ _ htext htext')
    obtain ⟨child, hchild⟩ := hnames _ hmem
    exact nomatch hsingle.name _ _ _ hn hchild
  | circular hn hmem =>
    intro owner outer e hchain hpath hr
    subst hchain
    cases hr
    exact ⟨_, rfl, hpath.circle hn hmem, fun p => hpath.reached_of_mem_circle hmem⟩
  | missing hn _ _ ht =>
    intro owner outer e hchain hpath hr
    cases hchain
    obtain ⟨text, htext, -⟩ :=
      hwhole _ ((hpath.reached _ List.mem_cons_self).tail (hpath.includes hn))
    exact nomatch hsingle.text _ _ _ ht htext
  | broken hn hmem _ ht _ ih =>
    intro owner outer e hchain hpath hr
    cases hchain
    exact ih rfl (hpath.enter hn hmem ht) hr
  | filled _ _ _ _ _ _ _ ih =>
    intro owner outer e hchain hpath hr
    exact ih hchain hpath.tail (eq_error_of_map hr)

/-- Where every template that can be come to is whole, a template fails by a circle of them only. -/
theorem Gives.circular_of_error (hwhole : W.Whole id) {e : Fault} (h : Gives W [] id (.error e)) :
    ∃ circle, e = .circular circle ∧ IsCircle W.Includes circle ∧
      ∀ p ∈ circle, ReflTransGen W.Includes id p := by
  rcases h.enters with ⟨e', ht, -⟩ | ⟨text, ht, hreads⟩
  · obtain ⟨text, htext, -⟩ := hwhole id .refl
    exact nomatch hsingle.text _ _ _ ht htext
  · refine hreads.circular_of_error hsingle hwhole rfl ⟨List.nodup_singleton id, .singleton id, ?_,
      fun name hname => ⟨text, ht, hname⟩⟩ rfl
    rintro p hp
    rw [List.mem_singleton.1 hp]

/-! ### A circle is refused -/

omit hsingle in
/-- In what is assembled to a text every include has been entered, from the template that it stands in. -/
theorem Reads.entered {owner : String} {chain : List String} {parts : List Segment}
    {r : Except Fault String} (h : Reads W chain parts r) (hchain : chain.head? = some owner)
    {flat : String} (hr : r = .ok flat) {name : List Char} (hname : .include name ∈ parts) :
    ∃ child inner, W.name name (.ok child) ∧ W.edge child owner ∧ child ∉ chain ∧
      Enters W chain child (.ok inner) := by
  induction h generalizing flat with
  | nil => exact absurd hname List.not_mem_nil
  | literal _ ih =>
    obtain ⟨flat', hr', -⟩ := eq_ok_of_map hr
    exact ih hchain hr' ((List.mem_cons.1 hname).resolve_left nofun)
  | unnamed => exact nomatch hr
  | circular => exact nomatch hr
  | missing => exact nomatch hr
  | broken => exact nomatch hr
  | filled hn hmem hedge ht hreads _ _ ih =>
    rcases List.mem_cons.1 hname with heq | hname
    · cases heq
      cases hchain
      exact ⟨_, _, hn, hedge, hmem, Or.inr ⟨_, ht, hreads⟩⟩
    · obtain ⟨flat', hr', -⟩ := eq_ok_of_map hr
      exact ih hchain hr' hname

/-- A template that is assembled to a text enters what it includes, inside of itself. -/
theorem Enters.child {chain : List String} {parent child flat : String}
    (h : Enters W chain parent (.ok flat)) (hincludes : W.Includes parent child) :
    W.edge child parent ∧ child ∉ parent :: chain ∧
      ∃ inner, Enters W (parent :: chain) child (.ok inner) := by
  obtain ⟨text, name, htext, hname, hchild⟩ := hincludes
  rcases h with ⟨e, -, he⟩ | ⟨text', htext', hreads⟩
  · exact nomatch he
  · obtain rfl : text = text' := Except.ok.inj (hsingle.text _ _ _ htext htext')
    obtain ⟨child', inner, hchild', hedge, hmem, henters⟩ := hreads.entered rfl rfl hname
    obtain rfl : child = child' := Except.ok.inj (hsingle.name _ _ _ hchild hchild')
    exact ⟨hedge, hmem, inner, henters⟩

/-- A template that is assembled to a text enters all that it leads to, inside of itself and of more. -/
theorem Enters.along {chain : List String} {d x flat : String} (h : Enters W chain d (.ok flat))
    (hpath : TransGen W.Includes d x) :
    ∃ chain' inner, d ∈ chain' ∧ x ∉ chain' ∧ Enters W chain' x (.ok inner) := by
  induction hpath with
  | single hincludes =>
    obtain ⟨-, hmem, inner, henters⟩ := h.child hsingle hincludes
    exact ⟨_, inner, List.mem_cons_self, hmem, henters⟩
  | tail _ hincludes ih =>
    obtain ⟨chain', inner, hd, -, henters⟩ := ih
    obtain ⟨-, hmem', inner', henters'⟩ := henters.child hsingle hincludes
    exact ⟨_, inner', List.mem_cons_of_mem _ hd, hmem', henters'⟩

/-- What is assembled to a text has entered all that it leads to. -/
theorem Gives.entered {flat p : String} (h : Gives W [] id (.ok flat))
    (hreached : ReflTransGen W.Includes id p) : ∃ chain inner, Enters W chain p (.ok inner) := by
  rcases reflTransGen_iff_eq_or_transGen.1 hreached with rfl | hpath
  · exact ⟨[], flat, h.enters⟩
  · obtain ⟨chain, inner, -, -, henters⟩ := h.enters.along hsingle hpath
    exact ⟨chain, inner, henters⟩

/-- Nothing that a template leads to which is assembled to a text leads back to itself. -/
theorem Gives.no_circle {flat : String} (h : Gives W [] id (.ok flat)) {p : String}
    (hreached : ReflTransGen W.Includes id p) : ¬ TransGen W.Includes p p := by
  intro hback
  obtain ⟨chain, inner, henters⟩ := h.entered hsingle hreached
  obtain ⟨chain', -, hmem, hnot, -⟩ := henters.along hsingle hback
  exact hnot hmem

/-- Where every template that can be come to is whole, a template comes to a text or fails by a circle. -/
theorem Gives.text_or_circle (hwhole : W.Whole id) {r : Except Fault String} (h : Gives W [] id r) :
    (∃ flat, r = .ok flat) ∨ ∃ chain, r = .error (.circular chain) := by
  rcases r with e | flat
  · obtain ⟨circle, rfl, -⟩ := h.circular_of_error hsingle hwhole
    exact Or.inr ⟨circle, rfl⟩
  · exact Or.inl ⟨flat, rfl⟩

theorem Gives.circular_iff (hwhole : W.Whole id) {r : Except Fault String} (h : Gives W [] id r) :
    (∃ chain, r = .error (.circular chain)) ↔
      ∃ p, ReflTransGen W.Includes id p ∧ TransGen W.Includes p p := by
  constructor
  · rintro ⟨chain, rfl⟩
    obtain ⟨circle, -, hcircle, hreached⟩ := h.circular_of_error hsingle hwhole
    obtain ⟨p, hp, hback⟩ := hcircle.path
    exact ⟨p, hreached p hp, hback⟩
  · rintro ⟨p, hreached, hback⟩
    refine (h.text_or_circle hsingle hwhole).resolve_left ?_
    rintro ⟨flat, rfl⟩
    exact h.no_circle hsingle hreached hback

end

end Stencil
