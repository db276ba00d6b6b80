import Stencil.Proofs.Session.Account
import Stencil.Proofs.Session.Relating

/-!
# What a compile comes to

What a compile gets of the templates is fixed by the cache and the files, whichever templates were related before
(`Session.offered`). It is what its template comes to there, shrunk and given to the templating engine
(`AtRest.compile_offered`), and stays so while the cache only grows (`AtRest.compile_of_grows`). So a compile fails
exactly if its name names no template, or if the template is not compiled yet and comes to a fault, or to a text that
is not built (`AtRest.compile_eq_error_iff`).

On its way a reading comes to the names in the includes, one after the other (`ComesTo`), and the first of them that
names no template ends it (`gives_name_iff`).
-/

namespace Stencil

/-! ### The names that a reading comes to -/

/-- Reading some segments comes to the name in an include: in the next one, in the template of that one, or behind it
if its template comes to a text. The chain starts with the template of the segments. -/
inductive ComesTo (W : World) : List String → List Segment → List Char → Prop
  | literal {chain : List String} {text : List Char} {rest : List Segment} {name : List Char} :
      ComesTo W chain rest name → ComesTo W chain (.literal text :: rest) name
  | next {chain : List String} {name : List Char} {rest : List Segment} :
      ComesTo W chain (.include name :: rest) name
  | inside {owner : String} {outer : List String} {n : List Char} {rest : List Segment} {child text : String}
      {name : List Char} :
      W.name n (.ok child) → child ∉ owner :: outer → W.edge child owner → W.text child (.ok text) →
      ComesTo W (child :: owner :: outer) (segmentsOf child text) name →
      ComesTo W (owner :: outer) (.include n :: rest) name
  | behind {owner : String} {outer : List String} {n : List Char} {rest : List Segment} {child text inner : String}
      {name : List Char} :
      W.name n (.ok child) → child ∉ owner :: outer → W.edge child owner → W.text child (.ok text) →
      Reads W (child :: owner :: outer) (segmentsOf child text) (.ok inner) →
      ComesTo W (owner :: outer) rest name → ComesTo W (owner :: outer) (.include n :: rest) name

section Names

variable {W : World} {chain : List String} {parts : List Segment} {id : String} {name : List Char} {f : NameFault}

/-- A reading fails by a name that it comes to and that names no template. -/
theorem ComesTo.reads (h : ComesTo W chain parts name) (hname : W.name name (.error f)) :
    Reads W chain parts (.error (.name f)) := by
  induction h with
  | literal _ ih => exact .literal (ih hname)
  | next => exact .unnamed hname
  | inside hn hmem he ht _ ih => exact .broken hn hmem he ht (ih hname)
  | behind hn hmem he ht hinner _ ih => exact .filled hn hmem he ht hinner (ih hname)

/-- A reading that fails by a name has come to it, if no text is wanting because of a name. -/
theorem Reads.comesTo (htext : ∀ c, ¬ W.text c (.error (.name f))) {r : Except Fault String}
    (h : Reads W chain parts r) (hr : r = .error (.name f)) :
    ∃ name, ComesTo W chain parts name ∧ W.name name (.error f) := by
  induction h with
  | nil => cases hr
  | literal _ ih =>
    obtain ⟨name, hcomes, hname⟩ := ih (eq_error_of_map hr)
    exact ⟨name, .literal hcomes, hname⟩
  | unnamed hn =>
    cases hr
    exact ⟨_, .next, hn⟩
  | circular => cases hr
  | missing _ _ _ ht =>
    cases hr
    exact absurd ht (htext _)
  | broken hn hmem he ht _ ih =>
    obtain ⟨name, hcomes, hname⟩ := ih hr
    exact ⟨name, .inside hn hmem he ht hcomes, hname⟩
  | filled hn hmem he ht hinner _ _ ih =>
    obtain ⟨name, hcomes, hname⟩ := ih (eq_error_of_map hr)
    exact ⟨name, .behind hn hmem he ht hinner hcomes, hname⟩

/-- A template fails by a name exactly if its reading comes to one that names no template. -/
theorem gives_name_iff (htext : ∀ c, ¬ W.text c (.error (.name f))) :
    Gives W [] id (.error (.name f)) ↔
      ∃ text name, W.text id (.ok text) ∧ ComesTo W [id] (segmentsOf id text) name ∧ W.name name (.error f) := by
  constructor
  · intro h
    rcases h.enters with ⟨e, he, hr⟩ | ⟨text, ht, hreads⟩
    · cases hr
      exact absurd he (htext id)
    · obtain ⟨name, hcomes, hname⟩ := hreads.comesTo htext rfl
      exact ⟨text, name, ht, hcomes, hname⟩
  · rintro ⟨text, name, ht, hcomes, hname⟩
    exact Or.inr ⟨List.not_mem_nil, Or.inr ⟨text, ht, hcomes.reads hname⟩⟩

end Names

namespace Session

variable {s s' : Session} {X : String}

/-! ### What is offered -/

/-- What readings get of the templates, whichever were related before. -/
def offered (s : Session) : World := { s.atHand with edge := fun _ _ => True }

theorem world_le_offered (s : Session) : s.world ≤ s.offered :=
  ⟨s.world_le_atHand.name, s.world_le_atHand.text, fun _ _ _ => trivial⟩

theorem Grows.offered (h : Grows s s') : s'.offered = s.offered := by
  unfold Session.offered atHand
  rw [h.textAtHand, h.normalize]

theorem offered_det {chain : List String} {r r' : Except Fault String} (h : Gives s.offered chain X r)
    (h' : Gives s.offered chain X r') : r = r' :=
  h.det s.single_atHand.name s.single_atHand.text h'

/-- Only what is loaded can be wanting. -/
theorem load_of_offered {d : String} {f : Fault} (h : s.offered.text d (.error f)) : s.load d = .error f := by
  have htext : s.textAtHand d = .error f := h
  unfold textAtHand at htext
  cases hsource : s.cache.sources.get? d with
  | some text =>
    rw [hsource] at htext
    cases htext
  | none =>
    rw [hsource] at htext
    exact htext

/-! ### Compiles -/

/-- A compile of a template that is not compiled comes to what is offered, compiled. -/
theorem AtRest.compile_offered (h : s.AtRest) {name : String} (hname : s.normalize name = .ok X)
    (hnone : s.cache.compiled.get? X = none) :
    ∃ r, Gives s.offered [] X r ∧ (s.compile name).1.map (·.template) = r.bind (s.build X) := by
  obtain ⟨-, hgrows, -, -, r, hgives, hresult⟩ := compile_spec h hname hnone
  exact ⟨r, hgrows.toGrows.offered ▸ hgives.of_le (s.compile name).2.world_le_offered, hresult⟩

/-- A compile comes to the same after the cache has grown, if its template has not been compiled meanwhile. -/
theorem AtRest.compile_of_grows (h : s.AtRest) (h' : s'.AtRest) (hgrows : Grows s s') {name : String}
    (hname : s.normalize name = .ok X)
    (hcompiled : s'.cache.compiled.get? X = s.cache.compiled.get? X) :
    (s'.compile name).1.map (·.template) = (s.compile name).1.map (·.template) := by
  have hname' : s'.normalize name = .ok X := by rw [hgrows.normalize, hname]
  cases hX : s.cache.compiled.get? X with
  | some a =>
    rw [compile_of_some hname hX, compile_of_some hname' (hcompiled.trans hX)]
  | none =>
    obtain ⟨r, hgives, hresult⟩ := h.compile_offered hname hX
    obtain ⟨r', hgives', hresult'⟩ := h'.compile_offered hname' (hcompiled.trans hX)
    rw [hgrows.offered] at hgives'
    obtain rfl : r = r' := offered_det hgives hgives'
    rw [hresult, hresult', hgrows.build]

/-- A template that is not compiled comes to a fault, or to a text that is not built. -/
def Fails (s : Session) (X : String) (f : Fault) : Prop :=
  Gives s.offered [] X (.error f) ∨ ∃ source, Gives s.offered [] X (.ok source) ∧ s.build X source = .error f

theorem bind_eq_error_iff {α β : Type} {r : Except Fault α} {next : α → Except Fault β} {f : Fault} :
    r.bind next = .error f ↔ r = .error f ∨ ∃ a, r = .ok a ∧ next a = .error f := by
  cases r with
  | error g => simp [Except.bind]
  | ok a => simp [Except.bind]

/-- A compile fails exactly if its name names no template, or the template is not compiled yet and fails. -/
theorem AtRest.compile_eq_error_iff (h : s.AtRest) {name : String} {f : Fault} :
    (s.compile name).1 = .error f ↔
      (∃ g, s.normalize name = .error g ∧ f = .name g) ∨
        ∃ X, s.normalize name = .ok X ∧ s.cache.compiled.get? X = none ∧ s.Fails X f := by
  rcases s.compile_cases name with ⟨g, hname, hcompile⟩ | ⟨X, hname, ⟨a, hX, hcompile⟩ | hnone⟩
  · rw [hcompile, hname]
    simp [eq_comm]
  · rw [hcompile, hname]
    simp [hX]
  · obtain ⟨r, hgives, hresult⟩ := h.compile_offered hname hnone
    have herror : (s.compile name).1 = .error f ↔ r.bind (s.build X) = .error f := by
      rw [← hresult]
      cases (s.compile name).1 with
      | error g => simp [Except.map]
      | ok a => simp [Except.map]
    have hgives' : ∀ r', Gives s.offered [] X r' ↔ r = r' :=
      fun r' => ⟨offered_det hgives, fun heq => heq ▸ hgives⟩
    rw [herror, bind_eq_error_iff, hname]
    simp [Fails, hgives', hnone]

end Session

end Stencil
