import Stencil.Proofs.Session.Outcome
import Stencil.Proofs.Session.Visiting

/-!
# Precompiling covers the tree

To precompile is to visit all that stands below the root, in order. What a template comes to when it is visited does
not depend on the visits before, since these only load what would be loaded anyway (`compile_of_grows`). So all
templates are compiled and cached, or the first one that is refused ends it: those before it are compiled and cached,
and nothing else is compiled (`precompile_covers`).
-/

namespace Stencil

open Files

namespace Session

variable {s s' : Session} {top : Place} {names : List String} {X : String}

/-! ### What a compile stores -/

/-- A compile stores nothing but its own template. -/
theorem AtRest.compiled_of_ne (h : s.AtRest) {name Y : String} (hname : s.normalize name = .ok X)
    (hY : Y ≠ X) : (s.compile name).2.cache.compiled.get? Y = s.cache.compiled.get? Y := by
  cases hX : s.cache.compiled.get? X with
  | some a => rw [compile_of_some hname hX]
  | none =>
    have hk := s.task_withCompile X
    obtain ⟨-, hfinished⟩ := runTask_new hk
    have hcomplete : (s.withCompile X).complete s.tasks.length = _ := settle_of_isFinished hfinished
    rw [compile_of_none h hname hX, hcomplete]
    refine (underway_new hk).carried (P := fun s' => s'.cache.compiled.get? Y = s.cache.compiled.get? Y)
      (fun s₁ e hunderway he hsame => ?_) _ rfl
    obtain ⟨t, t', -, -, hjob, -, hmoves, -⟩ := hunderway.moves he
    rcases hmoves.keeps_or_stores with ⟨hkept, -⟩ | ⟨Z, a, hjob', -, hstored⟩
    · rw [hkept, hsame]
    · have hZ : Job.compile Z = .compile X := (hjob'.symm.trans hmoves.job).trans hjob
      cases hZ
      rw [hstored, Store.get?_put, if_neg hY, hsame]

/-- What a compile is answered with is stored. -/
theorem AtRest.compiled_of_ok (h : s.AtRest) {name : String} {a : Artifact} (hname : s.normalize name = .ok X)
    (hok : (s.compile name).1 = .ok a) : (s.compile name).2.cache.compiled.get? X = some a := by
  cases hX : s.cache.compiled.get? X with
  | some b =>
    rw [compile_of_some hname hX] at hok ⊢
    rw [hX, Except.ok.inj hok]
  | none =>
    obtain ⟨-, -, -, hstored, -⟩ := compile_spec h hname hX
    exact hstored a hok

/-! ### What is compiled, and what is refused -/

/-- Whether a template stands at an entry: a file that is named like one. -/
def holdsTemplate (s : Session) (top : Place) (names : List String) : Bool :=
  match s.tree.entry? (top ++ names) with
  | some (.file _) => Identifier.isTemplate (joinNames names)
  | _ => false

/-- The templates among some entries. -/
def templates (s : Session) (top : Place) (entries : List (List String)) : List String :=
  (entries.filter (s.holdsTemplate top)).map joinNames

/-- Why precompiling cannot look at an entry, if that is so: its path cannot be looked up, or it is a directory that may
not be listed. -/
def barrier? (s : Session) (top : Place) (names : List String) : Option Fault :=
  match s.obstacle? top names with
  | some f => some (.unreachable (s.path (joinNames names)) f)
  | none =>
    if s.tree.entry? (top ++ names) = some .directory ∧ top ++ names ∈ s.tree.unreadable then
      some (.listing (s.path (joinNames names)) .noPermission)
    else none

/-- What stands at an entry is refused: precompiling cannot look at it, or it is a template that is not compiled. -/
inductive Refuses (s : Session) (top : Place) (names : List String) : Fault → Prop
  | barred {f : Fault} : s.barrier? top names = some f → Refuses s top names f
  | compile {f : Fault} : s.barrier? top names = none → s.holdsTemplate top names = true →
      (s.compile (joinNames names)).1 = .error f → Refuses s top names f

/-- Since a session the templates in a list were compiled, and no other one. -/
structure Covers (s : Session) (ids : List String) (s' : Session) : Prop where
  rest : s'.AtRest
  grows : Grows s s'
  compiled : ∀ id ∈ ids, ∃ a, s'.cache.compiled.get? id = some a
  others : ∀ id, id ∉ ids → s'.cache.compiled.get? id = s.cache.compiled.get? id

variable {ids : List String}

theorem Covers.note (h : s.Covers ids s') (notes : List Note) : s.Covers ids (s'.note notes) :=
  ⟨⟨h.rest.ended, h.rest.inflight⟩, h.grows.trans (.of_cache rfl rfl rfl rfl), h.compiled, h.others⟩

theorem holdsTemplate_iff :
    s.holdsTemplate top names = true ↔
      (∃ content, s.tree.entry? (top ++ names) = some (.file content)) ∧
        Identifier.isTemplate (joinNames names) = true := by
  unfold holdsTemplate
  split
  · next content hentry => simp [hentry]
  · next hno =>
    refine ⟨fun h => (nomatch h), ?_⟩
    rintro ⟨⟨content, hentry⟩, -⟩
    exact absurd hentry (hno content)

/-- A template that is visited comes to what it would have come to before. -/
theorem Covers.compile (h : s.Covers ids s') (hrest : s.AtRest) (hX : s.normalize X = .ok X)
    (hnew : X ∉ ids) :
    (∀ f, (s.compile X).1 = .error f → (s'.compile X).1 = .error f ∧ s.Covers ids (s'.compile X).2) ∧
      ((∀ f, (s.compile X).1 ≠ .error f) →
        ∃ a, (s'.compile X).1 = .ok a ∧ s.Covers (ids ++ [X]) (s'.compile X).2) := by
  have hsame := hrest.compile_of_grows h.rest h.grows hX (h.others X hnew)
  have hX' : s'.normalize X = .ok X := by rw [h.grows.normalize, hX]
  obtain ⟨hrest', hgrows⟩ := h.rest.compile X
  have hothers : ∀ Y, Y ≠ X → (s'.compile X).2.cache.compiled.get? Y = s'.cache.compiled.get? Y :=
    fun Y hY => h.rest.compiled_of_ne hX' hY
  cases hcompile : (s'.compile X).1 with
  | error g =>
    have herror : (s.compile X).1 = .error g := by
      cases hfirst : (s.compile X).1 with
      | error f =>
        rw [hcompile, hfirst] at hsame
        rw [Except.error.inj hsame]
      | ok a =>
        rw [hcompile, hfirst] at hsame
        exact nomatch hsame
    -- a compile that fails stores nothing
    obtain ⟨new, hanswered⟩ := compile_answered h.rest X
    have hkept := hanswered.compiled g hcompile
    refine ⟨fun f hf => ⟨?_, hrest', h.grows.trans hgrows.toGrows, ?_, ?_⟩, fun hok => absurd herror (hok g)⟩
    · rw [Except.error.inj (herror.symm.trans hf)]
    · rw [hkept]
      exact h.compiled
    · rw [hkept]
      exact h.others
  | ok a =>
    refine ⟨fun f hf => ?_, fun _ => ⟨a, rfl, hrest', h.grows.trans hgrows.toGrows, ?_, ?_⟩⟩
    · rw [hcompile, hf] at hsame
      exact nomatch hsame
    · intro id hid
      by_cases hidX : id = X
      · rw [hidX]
        exact ⟨a, h.rest.compiled_of_ok hX' hcompile⟩
      · rw [hothers id hidX]
        refine h.compiled id ((List.mem_append.1 hid).resolve_right fun hmem => ?_)
        exact hidX (List.mem_singleton.1 hmem)
    · intro id hid
      rw [List.mem_append, not_or, List.mem_singleton] at hid
      rw [hothers id hid.2]
      exact h.others id hid.1

/-- Where nothing is forbidden, only the length of a path can keep precompiling from an entry. -/
theorem barrier?_eq_none (hshort : ¬ s.TooLong (joinNames names)) (hclosed : s.tree.closed = [])
    (hunreadable : s.tree.unreadable = []) : s.barrier? top names = none := by
  have hopen : ¬ s.tree.Barred top names := by
    rintro ⟨i, -, hmem⟩
    rw [hclosed] at hmem
    exact List.not_mem_nil hmem
  unfold barrier? obstacle?
  rw [if_neg hshort, if_neg hopen, hunreadable]
  exact if_neg fun hboth => List.not_mem_nil hboth.2

theorem Grows.barrier? (h : Grows s s') : s'.barrier? = s.barrier? := by
  funext top names
  unfold Session.barrier?
  rw [h.obstacle?, h.path, h.tree]

theorem Grows.holdsTemplate (h : Grows s s') : s'.holdsTemplate = s.holdsTemplate := by
  funext top names
  unfold Session.holdsTemplate
  rw [h.tree]

/-- What a visit to an entry below the root comes to: precompiling cannot look at it, or there is no template at it, or
its template is compiled. -/
theorem Rooted.visit_cases (h : s.Rooted top) (hnames : names ∈ s.tree.inside top) :
    (∃ f, s.barrier? top names = some f ∧ s.visit (joinNames names) = (.error f, s)) ∨
    s.barrier? top names = none ∧
      (s.holdsTemplate top names = false ∧ s.visit (joinNames names) = (.ok [], s) ∨
        s.holdsTemplate top names = true ∧
          s.visit (joinNames names) = s.visitTemplate (joinNames names)) := by
  obtain ⟨-, e, hentry⟩ := Tree.mem_inside.1 hnames
  have hdirectory := h.isDirectory hentry
  have hlocate := h.locate hentry
  unfold barrier?
  cases hobstacle : s.obstacle? top names with
  | some f =>
    rw [hobstacle] at hdirectory
    refine Or.inl ⟨_, rfl, ?_⟩
    unfold Session.visit
    rw [hdirectory]
  | none =>
    rw [hobstacle] at hdirectory hlocate
    dsimp only
    cases e with
    | link target => exact absurd hentry (h.linkless _ target)
    | directory =>
      have hchildren := h.children hlocate hentry
      by_cases hlisted : top ++ names ∈ s.tree.unreadable
      · rw [if_pos hlisted] at hchildren
        rw [if_pos ⟨hentry, hlisted⟩]
        exact Or.inl ⟨_, rfl, visit_of_unlisted hdirectory hchildren⟩
      · rw [if_neg hlisted] at hchildren
        rw [if_neg fun hboth => hlisted hboth.2]
        refine Or.inr ⟨rfl, Or.inl ⟨?_, visit_of_listed hdirectory hchildren⟩⟩
        unfold holdsTemplate
        rw [hentry]
    | file content =>
      have hholds : s.holdsTemplate top names = Identifier.isTemplate (joinNames names) := by
        unfold holdsTemplate
        rw [hentry]
      have hfile : s.tree.isDirectory (s.path (joinNames names)) = .ok false := hdirectory
      have hne : ¬ (s.tree.entry? (top ++ names) = some .directory ∧ top ++ names ∈ s.tree.unreadable) :=
        fun hboth => nomatch hentry.symm.trans hboth.1
      rw [if_neg hne, hholds]
      refine Or.inr ⟨rfl, ?_⟩
      unfold Session.visit
      rw [hfile]
      dsimp only
      by_cases htemplate : Identifier.isTemplate (joinNames names) = true
      · rw [if_pos htemplate]
        exact Or.inr ⟨htemplate, rfl⟩
      · rw [if_neg htemplate]
        exact Or.inl ⟨Bool.not_eq_true _ ▸ htemplate, rfl⟩

/-- An entry that precompiling can look at is refused only as its template is. -/
theorem refuses_iff (hfree : s.barrier? top names = none) {f : Fault} :
    s.Refuses top names f ↔
      s.holdsTemplate top names = true ∧ (s.compile (joinNames names)).1 = .error f := by
  refine ⟨fun h => ?_, fun ⟨hholds, herror⟩ => .compile hfree hholds herror⟩
  cases h with
  | barred hbarrier => exact nomatch hfree.symm.trans hbarrier
  | compile _ hholds herror => exact ⟨hholds, herror⟩

theorem templates_singleton :
    s.templates top [names] = if s.holdsTemplate top names then [joinNames names] else [] := by
  unfold templates
  rw [List.filter_singleton]
  cases s.holdsTemplate top names <;> rfl

/-- A visit to an entry fails as it is refused, or the template at it is compiled, if there is one. -/
theorem Covers.visit (h : s.Covers ids s') (hrest : s.AtRest) (hroot : s.Rooted top)
    (hnames : names ∈ s.tree.inside top) (hnew : joinNames names ∉ ids) :
    (∀ f, s.Refuses top names f →
        (s'.visit (joinNames names)).1 = .error f ∧ s.Covers ids (s'.visit (joinNames names)).2) ∧
      ((∀ f, ¬ s.Refuses top names f) →
        (s'.visit (joinNames names)).1 = .ok (s.templates top [names]) ∧
          s.Covers (ids ++ s.templates top [names]) (s'.visit (joinNames names)).2) := by
  have hcases := (hroot.of_grows h.grows).visit_cases (h.grows.tree.symm ▸ hnames)
  rw [h.grows.barrier?, h.grows.holdsTemplate] at hcases
  rcases hcases with ⟨f, hbarrier, hvisit⟩ | ⟨hfree, ⟨hnone, hvisit⟩ | ⟨hsome, hvisit⟩⟩
  · rw [hvisit]
    refine ⟨fun g hg => ⟨?_, h⟩, fun hno => absurd (.barred hbarrier) (hno f)⟩
    cases hg with
    | barred hbarrier' => rw [Option.some.inj (hbarrier.symm.trans hbarrier')]
    | compile hfree => exact nomatch hfree.symm.trans hbarrier
  · rw [hvisit, templates_singleton, hnone]
    refine ⟨fun f hf => ?_, fun _ => ⟨rfl, (List.append_nil ids).symm ▸ h⟩⟩
    exact nomatch hnone.symm.trans ((refuses_iff hfree).1 hf).1
  · obtain ⟨hne, e, hentry⟩ := Tree.mem_inside.1 hnames
    obtain ⟨hfails, hpasses⟩ := h.compile hrest (hroot.descent hne hentry).normalize_joinNames hnew
    rw [hvisit, templates_singleton, if_pos hsome]
    unfold visitTemplate
    generalize s'.compile (joinNames names) = p at hfails hpasses
    obtain ⟨g | a, s''⟩ := p
    · refine ⟨fun f hf => ?_, fun hno => ?_⟩
      · obtain ⟨hgf, hcovers⟩ := hfails f ((refuses_iff hfree).1 hf).2
        obtain rfl : g = f := Except.error.inj hgf
        exact ⟨rfl, hcovers.note _⟩
      · obtain ⟨a, ha, -⟩ := hpasses fun f hf => hno f (.compile hfree hsome hf)
        exact nomatch ha
    · refine ⟨fun f hf => ?_, fun hno => ?_⟩
      · exact nomatch (hfails f ((refuses_iff hfree).1 hf).2).1
      · obtain ⟨a', -, hcovers⟩ := hpasses fun f hf => hno f (.compile hfree hsome hf)
        exact ⟨rfl, hcovers.note _⟩

theorem templates_append (entries rest : List (List String)) :
    s.templates top (entries ++ rest) = s.templates top entries ++ s.templates top rest := by
  unfold templates
  rw [List.filter_append, List.map_append]

/-- Entries have different identifiers. -/
theorem Rooted.not_mem_templates (h : s.Rooted top) {entries : List (List String)}
    (hentries : ∀ m ∈ entries, m ∈ s.tree.inside top) (hnames : names ∈ s.tree.inside top)
    (hnew : names ∉ entries) : joinNames names ∉ s.templates top entries := by
  intro hmem
  obtain ⟨m, hm, hjoin⟩ := List.mem_map.1 hmem
  have hm := (List.mem_filter.1 hm).1
  have hdescent : ∀ k ∈ s.tree.inside top, Identifier.Descent k := by
    intro k hk
    obtain ⟨hne, e, hentry⟩ := Tree.mem_inside.1 hk
    exact h.descent hne hentry
  have heq := ((hdescent m (hentries m hm)).joinNames_inj (hdescent names hnames)).1 hjoin
  exact hnew (heq ▸ hm)

/-- Entries that are visited and not refused are covered. -/
theorem Covers.visitEach (hrest : s.AtRest) (hroot : s.Rooted top) {done entries : List (List String)}
    (hcovers : s.Covers (s.templates top done) s') (hinside : ∀ m ∈ done ++ entries, m ∈ s.tree.inside top)
    (hnodup : (done ++ entries).Nodup) (hpasses : ∀ names ∈ entries, ∀ f, ¬ s.Refuses top names f) :
    (s'.visitEach (entries.map joinNames)).1 = .ok (s.templates top entries) ∧
      s.Covers (s.templates top (done ++ entries)) (s'.visitEach (entries.map joinNames)).2 := by
  induction entries generalizing s' done with
  | nil =>
    rw [List.append_nil, List.map_nil]
    unfold Session.visitEach
    exact ⟨rfl, hcovers⟩
  | cons names entries ih =>
    have hnames := hinside names (List.mem_append_right _ List.mem_cons_self)
    have hnew : names ∉ done := by
      intro hmem
      exact (List.nodup_append.1 hnodup).2.2 names hmem names List.mem_cons_self rfl
    have hvisit := (hcovers.visit hrest hroot hnames (hroot.not_mem_templates
      (fun m hm => hinside m (List.mem_append_left _ hm)) hnames hnew)).2 (hpasses names List.mem_cons_self)
    have hsplit : done ++ names :: entries = done ++ [names] ++ entries := by simp
    rw [hsplit] at hinside hnodup ⊢
    rw [← templates_append] at hvisit
    obtain ⟨hhere, hcovers'⟩ := hvisit
    obtain ⟨hothers, hall⟩ := ih hcovers' hinside hnodup fun m hm => hpasses m (List.mem_cons_of_mem _ hm)
    rw [List.map_cons, Session.visitEach]
    generalize s'.visit (joinNames names) = p at hhere hothers hall
    obtain ⟨here, s''⟩ := p
    obtain rfl : here = _ := hhere
    unfold followed
    dsimp only
    rw [hothers, ← List.singleton_append (l := entries), templates_append]
    exact ⟨rfl, hall⟩

/-- The templates below the root: the files there that are named like templates, each one once. -/
theorem mem_templates {id : String} :
    id ∈ s.templates top (s.tree.inside top) ↔
      ∃ names content, names ≠ [] ∧ s.tree.entry? (top ++ names) = some (.file content) ∧
        Identifier.isTemplate (joinNames names) = true ∧ id = joinNames names := by
  simp only [templates, List.mem_map, List.mem_filter, Tree.mem_inside, holdsTemplate_iff]
  constructor
  · rintro ⟨names, ⟨⟨hne, -⟩, ⟨content, hentry⟩, htemplate⟩, rfl⟩
    exact ⟨names, content, hne, hentry, htemplate, rfl⟩
  · rintro ⟨names, content, hne, hentry, htemplate, rfl⟩
    exact ⟨names, ⟨⟨hne, _, hentry⟩, ⟨content, hentry⟩, htemplate⟩, rfl⟩

theorem Rooted.nodup_templates (h : s.Rooted top) : (s.templates top (s.tree.inside top)).Nodup := by
  refine List.Nodup.map_on (fun names hnames names' hnames' heq => ?_) (h.proper.pairwise_inside.nodup.filter _)
  obtain ⟨hne, e, hentry⟩ := Tree.mem_inside.1 (List.mem_filter.1 hnames).1
  obtain ⟨hne', e', hentry'⟩ := Tree.mem_inside.1 (List.mem_filter.1 hnames').1
  exact ((h.descent hne hentry).joinNames_inj (h.descent hne' hentry')).1 heq

variable {done rest : List (List String)} {f : Fault}

theorem AtRest.covers_nil (h : s.AtRest) : s.Covers (s.templates top []) s :=
  ⟨h, .refl s, fun _ hid => (nomatch hid), fun _ _ => rfl⟩

/-- If nothing is refused, all templates are covered. -/
theorem Rooted.precompile_ok (h : s.Rooted top) (hrest : s.AtRest)
    (hpasses : ∀ names ∈ s.tree.inside top, ∀ f, ¬ s.Refuses top names f) :
    (s.precompile "").1 = .ok (s.templates top (s.tree.inside top)) ∧
      s.Covers (s.templates top (s.tree.inside top)) (s.precompile "").2 := by
  rw [h.precompile_eq hrest]
  exact hrest.covers_nil.visitEach hrest h (fun _ hm => hm) h.proper.pairwise_inside.nodup hpasses

/-- What is refused first ends the visits, and the templates before it are covered. -/
theorem Rooted.precompile_error (h : s.Rooted top) (hrest : s.AtRest)
    (hentries : s.tree.inside top = done ++ names :: rest)
    (hpasses : ∀ m ∈ done, ∀ g, ¬ s.Refuses top m g) (hrefuses : s.Refuses top names f) :
    (s.precompile "").1 = .error f ∧ s.Covers (s.templates top done) (s.precompile "").2 := by
  have hnodup : (s.tree.inside top).Nodup := h.proper.pairwise_inside.nodup
  have hmem : ∀ m, m ∈ done ∨ m = names → m ∈ s.tree.inside top := by
    intro m hm
    rw [hentries]
    rcases hm with hm | rfl
    · exact List.mem_append_left _ hm
    · exact List.mem_append_right _ List.mem_cons_self
  rw [hentries, List.nodup_append] at hnodup
  obtain ⟨hnodup, -, hapart⟩ := hnodup
  have hvisits : (s.visitEach (done.map joinNames)).1 = .ok (s.templates top done) ∧
      s.Covers (s.templates top ([] ++ done)) (s.visitEach (done.map joinNames)).2 :=
    hrest.covers_nil.visitEach hrest h (fun m hm => hmem m (Or.inl hm)) hnodup hpasses
  have hnew := h.not_mem_templates (fun m hm => hmem m (Or.inl hm)) (hmem names (Or.inr rfl))
    fun hdone => hapart names hdone names List.mem_cons_self rfl
  have hvisit := (hvisits.2.visit hrest h (hmem names (Or.inr rfl)) hnew).1 f hrefuses
  rw [h.precompile_eq hrest, hentries, List.map_append, visitEach_append, List.map_cons]
  generalize s.visitEach (done.map joinNames) = p at hvisits hvisit
  obtain ⟨hok, -⟩ := hvisits
  obtain ⟨here, s'⟩ := p
  obtain rfl : here = _ := hok
  unfold followed
  dsimp only
  rw [visitEach]
  generalize s'.visit (joinNames names) = p at hvisit
  obtain ⟨herror, hcovers⟩ := hvisit
  obtain ⟨here, s''⟩ := p
  obtain rfl : here = .error f := herror
  exact ⟨rfl, hcovers⟩

end Session

/-- What stands below the root is taken depth first, and in each directory in the order of the names. If nothing is
refused then all templates below the root are compiled and listed in that order, each one once, and nothing else:
the files that are named like templates, and no directory. Otherwise precompiling fails as the first one that is
refused does; the templates before it are compiled, and no other one is. -/
theorem precompile_covers {s : Session} (hrest : s.AtRest) {top : Place} (hroot : s.Rooted top) :
    let entries := s.tree.inside top
    let compiled := (s.precompile "").2.cache.compiled
    entries.Pairwise Tree.Before ∧
    (∀ names, names ∈ entries ↔ names ≠ [] ∧ ∃ e, s.tree.entry? (top ++ names) = some e) ∧
    (s.templates top entries).Nodup ∧
    (∀ id, id ∈ s.templates top entries ↔
      ∃ names content, names ≠ [] ∧ s.tree.entry? (top ++ names) = some (.file content) ∧
        Identifier.isTemplate (joinNames names) = true ∧ id = joinNames names) ∧
    ((∀ names ∈ entries, ∀ f, ¬ s.Refuses top names f) →
      (s.precompile "").1 = .ok (s.templates top entries) ∧
        ∀ id ∈ s.templates top entries, ∃ a, compiled.get? id = some a) ∧
    ∀ done names rest f, entries = done ++ names :: rest → (∀ m ∈ done, ∀ g, ¬ s.Refuses top m g) →
      s.Refuses top names f →
      (s.precompile "").1 = .error f ∧ (∀ id ∈ s.templates top done, ∃ a, compiled.get? id = some a) ∧
        ∀ id, id ∉ s.templates top done → compiled.get? id = s.cache.compiled.get? id := by
  intro entries compiled
  refine ⟨hroot.proper.pairwise_inside.imp Tree.before_of_lt, fun names => Tree.mem_inside,
    hroot.nodup_templates, fun id => Session.mem_templates, fun hpasses => ?_, ?_⟩
  · obtain ⟨hok, hcovers⟩ := hroot.precompile_ok hrest hpasses
    exact ⟨hok, hcovers.compiled⟩
  · intro done names rest f hentries hpasses hrefuses
    obtain ⟨herror, hcovers⟩ := hroot.precompile_error hrest hentries hpasses hrefuses
    exact ⟨herror, hcovers.compiled, hcovers.others⟩

namespace Nested

/-- Two templates, one of them in a directory that is named like a template, and a file that is none. -/
def tree (content : List UInt8) : Tree :=
  { entries := [(["v"], .directory), (["v", "a.mjs"], .file (Linked.bytes "a")), (["v", "b.mjs"], .directory),
      (["v", "b.mjs", "c.mjs"], .file content), (["v", "n.txt"], .file (Linked.bytes "n"))] }

def session (content : List UInt8) : Session :=
  { settings := Linked.settings, tree := tree content }

variable (content : List UInt8)

theorem settled_session : (session content).Settled := Session.settled_new _ _ _

theorem path_session (id : String) : (session content).path id = under "/v" id := rfl

theorem rooted_session : (session content).Rooted ["v"] := by
  have hnames : ∀ place ∈ [["v"], ["v", "a.mjs"], ["v", "b.mjs"], ["v", "b.mjs", "c.mjs"], ["v", "n.txt"]],
      place ≠ [] ∧ ∀ n ∈ place, IsName n ∧ Tree.Fits n ∧ '\x00' ∉ n.toList := by decide
  have hproper : (session content).tree.Proper := by
    refine ⟨show [["v"], ["v", "a.mjs"], ["v", "b.mjs"], ["v", "b.mjs", "c.mjs"], ["v", "n.txt"]].Nodup by decide,
      fun p hp => hnames p.1 ?_, ?_⟩
    · exact List.mem_map_of_mem hp
    · simp only [session, tree, List.forall_mem_cons]
      exact ⟨rfl, rfl, rfl, rfl, rfl, fun _ h => nomatch h⟩
  refine ⟨.of_entries (by simp [session, tree]), hproper, ?_, rfl, List.not_mem_nil⟩
  have hpath : components (under "/v" "") = ["v"] := by decide
  have hwalk : (session content).tree.walk true Tree.linkLimit [] ["v"] = .ok ["v"] := by
    refine Tree.walk_of_entries (by simp) (by decide) (fun i hi => ?_) rfl
    obtain rfl : i = 0 := Nat.lt_one_iff.1 hi
    exact ⟨rfl, List.not_mem_nil⟩
  rw [path_session]
  unfold Tree.locate Tree.locateLast
  rw [if_neg (by decide), if_neg (by decide), hpath, hwalk]

theorem inside_session :
    (session content).tree.inside ["v"] = [["a.mjs"], ["b.mjs"], ["b.mjs", "c.mjs"], ["n.txt"]] := by
  have hentries : ((session content).tree.entries.filterMap fun p =>
      Identifier.afterRoot? ["v"] p.1).filter (· ≠ []) =
        [["a.mjs"], ["b.mjs"], ["b.mjs", "c.mjs"], ["n.txt"]] := rfl
  unfold Tree.inside
  rw [hentries]
  exact List.mergeSort_eq_self (· ≤ ·) (by decide)

theorem templates_session : (session content).templates ["v"] [["a.mjs"], ["b.mjs"]] = ["a.mjs"] ∧
    (session content).templates ["v"] ((session content).tree.inside ["v"]) = ["a.mjs", "b.mjs/c.mjs"] := by
  rw [inside_session]
  exact ⟨rfl, rfl⟩

/-- A template of one character is compiled. -/
theorem compile_single {X : String} {c : Char} (hX : Identifier.isTemplate X = true)
    (hname : (session content).normalize X = .ok X)
    (hload : (session content).load X = .ok (String.ofList [c])) (hnone : include? [c] = none)
    (hlanguage : (Language.Template.compile Session.options (String.ofList [c])).toOption.isSome = true) :
    ∃ a, ((session content).compile X).1 = .ok a := by
  have hgives : Gives (session content).onDisk [] X (.ok (String.ofList [c])) := by
    refine Or.inr ⟨List.not_mem_nil, Or.inr ⟨_, hload, ?_⟩⟩
    have hreads : Reads (session content).onDisk [X] [.literal [c]] (.ok (String.ofList [c] ++ "")) :=
      .literal .nil
    rw [segmentsOf_single hX String.toList_ofList hnone]
    rwa [String.append_empty] at hreads
  obtain ⟨r, hgives', hresult⟩ :=
    (settled_session content).compile_onDisk (fun _ _ hd => nomatch hd) hname
  obtain rfl := Session.onDisk_det hgives' hgives
  obtain ⟨template, hbuild⟩ := Session.exists_build (s := session content) (X := X) rfl hlanguage
  have hok : ((session content).compile X).1.map (·.template) = .ok template := hresult.trans hbuild
  cases hcompile : ((session content).compile X).1 with
  | error f =>
    rw [hcompile] at hok
    exact nomatch hok
  | ok a => exact ⟨a, rfl⟩

theorem load_a : (session content).load "a.mjs" = .ok (String.ofList ['a']) := by
  have hpath : components (under "/v" "a.mjs") = ["v", "a.mjs"] := by decide
  have hnull : '\x00' ∉ (under "/v" "a.mjs").toList := by decide
  have hshort : (under "/v" "a.mjs").utf8ByteSize < Tree.pathLimit := by decide
  have hentry : (session content).tree.entry? ["v", "a.mjs"] = some (.file (Linked.bytes "a")) := rfl
  have htext : Reading.ofBytes ({} : Shrinkers).stylesheet "a.mjs" (Linked.bytes "a") = .ok (String.ofList ['a']) := by
    decide
  refine Session.load_of_entries hpath hnull hshort (by decide) (fun i hi => ?_) hentry List.not_mem_nil htext
  obtain rfl | rfl : i = 0 ∨ i = 1 := by simpa [Nat.lt_succ_iff, Nat.le_one_iff_eq_zero_or_eq_one] using hi
  · exact ⟨rfl, List.not_mem_nil⟩
  · exact ⟨rfl, List.not_mem_nil⟩

theorem compile_a : ∃ a, ((session content).compile "a.mjs").1 = .ok a := by
  have hname : Identifier.normalize {} "/v" "/v" "a.mjs" = .ok "a.mjs" := by decide
  exact compile_single content (by decide) ((Identifier.isIdentifier_of_normalize hname).normalize _ _ _)
    (load_a content) (by decide) (by decide)

/-- Precompiling can look at all entries. -/
theorem barrier_session {names : List String}
    (hnames : names ∈ [["a.mjs"], ["b.mjs"], ["b.mjs", "c.mjs"], ["n.txt"]]) :
    (session content).barrier? ["v"] names = none := by
  have hshort : ∀ names ∈ [["a.mjs"], ["b.mjs"], ["b.mjs", "c.mjs"], ["n.txt"]],
      ¬ Tree.pathLimit ≤ (under "/v" (joinNames names)).utf8ByteSize := by decide
  exact Session.barrier?_eq_none (hshort names hnames) rfl rfl

/-- What stands beside the second template is not refused, whatever that one holds. -/
theorem not_refused {names : List String} (hnames : names ∈ [["a.mjs"], ["b.mjs"], ["n.txt"]]) (f : Fault) :
    ¬ (session content).Refuses ["v"] names f := by
  intro hf
  cases hf with
  | barred hbarrier =>
    have hfree : (session content).barrier? ["v"] names = none :=
      barrier_session content (by simp at hnames ⊢; tauto)
    cases hfree.symm.trans hbarrier
  | compile _ hholds herror =>
    simp only [List.mem_cons, List.not_mem_nil, or_false] at hnames
    obtain rfl | rfl | rfl := hnames
    · obtain ⟨a, ha⟩ := compile_a content
      exact nomatch ha.symm.trans herror
    · exact nomatch hholds
    · exact nomatch hholds

/-- The second template, when its file holds a character. -/
theorem compile_c : ∃ a, ((session (Linked.bytes "c")).compile "b.mjs/c.mjs").1 = .ok a := by
  have hpath : components ((session (Linked.bytes "c")).path "b.mjs/c.mjs") = ["v", "b.mjs", "c.mjs"] := by decide
  have hentry : (session (Linked.bytes "c")).tree.entry? ["v", "b.mjs", "c.mjs"] =
      some (.file (Linked.bytes "c")) := rfl
  have hload : (session (Linked.bytes "c")).load "b.mjs/c.mjs" = .ok (String.ofList ['c']) :=
    Session.load_of_entries hpath (by decide) (by decide) (by decide) (by decide) hentry (by decide) (by decide)
  exact compile_single _ (by decide) (by decide) hload (by decide) (by decide)

/-- The fault of a byte with which no character starts. -/
def fault : Fault := .notText ⟨.invalidStart, 0, 255, 1⟩

/-- The second template, when its file is no text. -/
theorem compile_fault : ((session [255]).compile "b.mjs/c.mjs").1 = .error fault := by
  have hpath : components ((session [255]).path "b.mjs/c.mjs") = ["v", "b.mjs", "c.mjs"] := by decide
  have hentry : (session [255]).tree.entry? ["v", "b.mjs", "c.mjs"] = some (.file [255]) := rfl
  have hread : (session [255]).tree.read ((session [255]).path "b.mjs/c.mjs") = .ok [255] :=
    Tree.read_of_entries hpath (by decide) (by decide) (by decide) (by decide) hentry (by decide)
  have hload : (session [255]).load "b.mjs/c.mjs" = .error fault := by
    rw [Session.load, hread]
    rfl
  have hgives : Gives (session [255]).onDisk [] "b.mjs/c.mjs" (.error fault) :=
    Or.inr ⟨List.not_mem_nil, Or.inl ⟨fault, hload, rfl⟩⟩
  refine (settled_session [255]).compile_error (fun d text hd => ?_) (by decide) hgives
  cases hd

/-- Both templates are compiled, or the second one is refused after the first one is compiled. -/
theorem precompile_covers_nested :
    (∀ content, (session content).AtRest ∧ (session content).Rooted ["v"]) ∧
    ((session (Linked.bytes "c")).precompile "").1 = .ok ["a.mjs", "b.mjs/c.mjs"] ∧
    ((session [255]).precompile "").1 = .error fault ∧
      ∃ a, ((session [255]).precompile "").2.cache.compiled.get? "a.mjs" = some a := by
  have hrest : ∀ content, (session content).AtRest := fun content => (settled_session content).toAtRest
  obtain ⟨-, -, -, -, hall, -⟩ := precompile_covers (hrest (Linked.bytes "c")) (rooted_session _)
  obtain ⟨-, -, -, -, -, hfirst⟩ := precompile_covers (hrest [255]) (rooted_session _)
  have hpasses : ∀ names ∈ (session (Linked.bytes "c")).tree.inside ["v"], ∀ f,
      ¬ (session (Linked.bytes "c")).Refuses ["v"] names f := by
    intro names hnames f hf
    rw [inside_session] at hnames
    by_cases hc : names = ["b.mjs", "c.mjs"]
    · subst hc
      cases hf with
      | barred hbarrier => exact nomatch (barrier_session _ (by simp)).symm.trans hbarrier
      | compile _ _ herror =>
        obtain ⟨a, ha⟩ := compile_c
        exact nomatch ha.symm.trans herror
    · refine not_refused _ ?_ f hf
      simp only [List.mem_cons, List.not_mem_nil, or_false] at hnames ⊢
      tauto
  have hrefuses : (session [255]).Refuses ["v"] ["b.mjs", "c.mjs"] fault :=
    .compile (barrier_session _ (by simp)) rfl compile_fault
  obtain ⟨herror, hcompiled, -⟩ := hfirst [["a.mjs"], ["b.mjs"]] ["b.mjs", "c.mjs"] [["n.txt"]] fault
    (inside_session _) (fun m hm => not_refused _ (by simp at hm ⊢; tauto)) hrefuses
  rw [(templates_session _).1] at hcompiled
  have hlisted := (hall hpasses).1
  rw [(templates_session _).2] at hlisted
  exact ⟨fun content => ⟨hrest content, rooted_session content⟩, hlisted, herror,
    hcompiled "a.mjs" (List.mem_singleton_self _)⟩

end Nested

end Stencil
