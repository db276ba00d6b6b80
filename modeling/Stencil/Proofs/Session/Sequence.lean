import Stencil.Proofs.Session.Patience

/-!
# Calls that follow each other

A compiler is used in sequence when every call is answered before the next one: templates are compiled
and rendered, directories are precompiled, templates are invalidated, and in between the files change as
they like. Then the compiled templates are a function of the texts in the cache (`Settled`): each was
assembled from texts that are still there, word for word, along relations that are still there. Compiles
only add to the cache, and an invalidation that takes a text away takes every compiled template with it
that the text has gone into.

The files enter into this through their links only, which decide what an absolute name in an include is
brought to. As long as no name is brought to another template than before, a session stays settled with
every action (`settled_performAll`).
-/

namespace Stencil

open Relation

/-- What is done with a compiler in sequence, or what happens to its files. -/
inductive Action where
  | compile (name : String)
  | render (name : String) (data : Datum)
  | precompile (directory : String)
  | invalidate (name : String)
  | invalidateAll
  | clear
  /-- The files change. -/
  | change (tree : Files.Tree)

/-- An action that compiles templates. -/
def Action.Compiles : Action → Prop
  | compile _ | render _ _ | precompile _ => True
  | _ => False

/-- An event by which no template is asked for but by a name. -/
def Event.ByName : Event → Prop
  | .read .. => False
  | _ => True

namespace Session

/-- The session after something is done with it. -/
def perform (s : Session) : Action → Session
  | .compile name => (s.compile name).2
  | .render name data => (s.render name data).2
  | .precompile directory => (s.precompile directory).2
  | .invalidate name => s.step (.invalidate name)
  | .invalidateAll => s.invalidateAll
  | .clear => s.clear
  | .change tree => { s with tree }

/-- The session after some things are done with it in turn. -/
def performAll (s : Session) (actions : List Action) : Session := actions.foldl perform s

/-! ### What calls are made of -/

section Keeps

variable {P : Session → Prop} (note : ∀ s notes, P s → P (s.note notes))
  (compile : ∀ s name, P s → P (s.compile name).2)

include note compile

theorem precompileRest_keeps {depth : Nat}
    (below : ∀ d, depth = d + 1 → ∀ s entries, P s → P (precompileEach d s entries).2)
    (entries : List String) {s : Session} (h : P s) : P (precompileEach depth s entries).2 := by
  induction entries generalizing s with
  | nil =>
    unfold precompileEach
    exact h
  | cons child rest ih =>
    unfold precompileEach
    cases s.tree.isDirectory (s.path child) with
    | error f => exact h
    | ok isDirectory =>
      cases isDirectory with
      | true =>
        cases depth with
        | zero => exact h
        | succ d =>
          dsimp only
          cases s.children child with
          | error f => exact h
          | ok inner =>
            have hbelow := below d rfl s inner h
            dsimp only
            generalize precompileEach d s inner = p at hbelow
            rcases p with ⟨here | here, s'⟩
            · exact hbelow
            · exact ih hbelow
      | false =>
        dsimp only
        by_cases htemplate : Identifier.isTemplate child = true
        · rw [if_pos htemplate]
          have hcompile := compile s child h
          generalize s.compile child = p at hcompile
          rcases p with ⟨f | a, s'⟩
          · exact note s' _ hcompile
          · exact ih (note s' _ hcompile)
        · rw [if_neg htemplate]
          exact ih h

theorem precompileEach_keeps (depth : Nat) : ∀ (s : Session) (entries : List String), P s →
    P (precompileEach depth s entries).2 := by
  induction depth with
  | zero =>
    refine fun s entries h => precompileRest_keeps note compile (fun d hd => ?_) entries h
    exact absurd hd (Nat.succ_ne_zero d).symm
  | succ depth ih =>
    refine fun s entries h => precompileRest_keeps note compile (fun d hd => ?_) entries h
    cases hd
    exact ih

/-- Precompiling keeps what notes and compiles keep. -/
theorem precompile_keeps (s : Session) (directory : String) (h : P s) :
    P (s.precompile directory).2 := by
  unfold precompile
  cases s.children directory with
  | error f => exact h
  | ok inner => exact precompileEach_keeps note compile depthLimit s inner h

end Keeps

/-- A rendering leaves the session like a compile. -/
theorem render_session (s : Session) (name : String) (data : Datum) :
    (s.render name data).2 = (s.compile name).2 := by
  unfold render
  generalize s.compile name = p
  rcases p with ⟨f | a, s'⟩ <;> rfl

/-- The next event of a task asks for no template. -/
theorem byName_of_next {s : Session} {k : Nat} {e : Event} (he : s.nextEvent k = some e) :
    e.ByName := by
  unfold nextEvent at he
  split at he
  · split at he <;> cases he <;> trivial
  · exact nomatch he

section KeepsSteps

variable {P : Session → Prop} (step : ∀ (s : Session) (e : Event), e.ByName → P s → P (s.step e))

include step

theorem runTask_keeps (halt : Phase → Bool) (k fuel : Nat) {s : Session} (h : P s) :
    P (runTask halt k fuel s) := by
  induction fuel generalizing s with
  | zero => exact h
  | succ fuel ih =>
    unfold runTask
    split
    · split
      · exact h
      · split
        · next e he => exact ih (step s e (byName_of_next he) h)
        · exact h
    · exact h

theorem complete_keeps (k : Nat) {s : Session} (h : P s) : P (s.complete k) :=
  step _ (.settle k) trivial (runTask_keeps step _ k _ h)

theorem compile_keeps (name : String) {s : Session} (h : P s) : P (s.compile name).2 := by
  have hcall : P (s.call name).2 := step s (.call name) trivial h
  unfold compile
  generalize s.call name = p at hcall
  obtain ⟨reply, s'⟩ := p
  cases reply with
  | refused f => exact hcall
  | ready a => exact hcall
  | pending k => exact complete_keeps step k hcall

variable (note : ∀ s notes, P s → P (s.note notes))

include note

/-- What is done with a compiler keeps what events and notes keep. -/
theorem perform_keeps (a : Action) {s : Session} (h : P s) : P (s.perform a) := by
  cases a with
  | compile name => exact compile_keeps step name h
  | render name data =>
    rw [perform, render_session]
    exact compile_keeps step name h
  | precompile directory =>
    exact precompile_keeps note (fun _ name h => compile_keeps step name h) s directory h
  | invalidate name => exact step s (.invalidate name) trivial h
  | invalidateAll => exact step s .invalidateAll trivial h
  | clear => exact step s .clear trivial h
  | change tree => exact step s (.change tree) trivial h

/-- Launching keeps what events, notes and the watch keep. -/
theorem launch_keeps (watch : ∀ s : Session, P s → P { s with watching := true }) {s : Session} (h : P s) :
    P s.launch.2 := by
  have hwatch : ∀ s' : Session, P s' →
      P (if s'.settings.watch && !s'.watching then
        ((.ok (), { s' with watching := true }.note [.resetPlanned s'.settings.watchInterval]) :
          Except Fault Unit × Session)
      else (.ok (), s')).2 := by
    intro s' hs'
    split
    · exact note _ _ (watch s' hs')
    · exact hs'
  unfold launch
  by_cases hfirst : s.settings.precompile = true
  · rw [if_pos hfirst]
    have hprecompile := precompile_keeps note (fun _ name h => compile_keeps step name h) s "" h
    generalize s.precompile "" = p at hprecompile
    rcases p with ⟨f | ids, s'⟩
    · exact hprecompile
    · exact hwatch _ (note _ _ hprecompile)
  · rw [if_neg hfirst]
    exact hwatch s h

end KeepsSteps

/-! ### Compiled templates and texts -/

/-- No task is under way, and each compiled template is made of what the cache holds. -/
structure Settled (s : Session) : Prop extends AtRest s where
  built : ∀ X a, s.cache.compiled.get? X = some a → s.Named X ∧ s.Built X a

variable {s s' : Session}

/-- A session that has not been used is settled. -/
theorem settled_new (settings : Config.Settings) (shrinkers : Shrinkers) (tree : Files.Tree) :
    Settled { settings, shrinkers, tree } :=
  ⟨⟨fun _ _ h => (nomatch h), rfl⟩, fun _ _ h => nomatch h⟩

theorem Built.source {X : String} {a : Artifact} (h : s.Built X a) :
    ∃ text, s.cache.sources.get? X = some text := by
  rcases h with ⟨flat, ⟨e, -, hr⟩ | ⟨text, ⟨text', htext, hsource⟩, -⟩, -⟩
  · exact nomatch hr
  · exact ⟨text', hsource⟩

theorem Settled.note (h : s.Settled) (notes : List Note) : (s.note notes).Settled := by
  have hgrows : Grows s (s.note notes) := .of_cache rfl rfl rfl rfl
  refine ⟨⟨h.ended, h.inflight⟩, fun X a hX => ?_⟩
  obtain ⟨hnamed, hbuilt⟩ := h.built X a hX
  exact ⟨hgrows.named.2 hnamed, hgrows.built hbuilt⟩

/-- A compile only lets the cache grow, and leaves the session settled. -/
theorem Settled.compile (h : s.Settled) (name : String) :
    (s.compile name).2.Settled ∧ GrowsNamed s (s.compile name).2 := by
  rcases s.compile_cases name with ⟨f, -, hcompile⟩ | ⟨X, hname, ⟨a, -, hcompile⟩ | hnone⟩
  · rw [hcompile]
    exact ⟨h, .refl s⟩
  · rw [hcompile]
    exact ⟨h, .refl s⟩
  · obtain ⟨hrest, hgrows, hcompiled, -⟩ := compile_spec h.toAtRest hname hnone
    refine ⟨⟨hrest, fun Y a hY => ?_⟩, hgrows⟩
    rcases hcompiled Y a hY with hY | ⟨rfl, hbuilt⟩
    · obtain ⟨hnamed, hbuilt⟩ := h.built Y a hY
      exact ⟨hgrows.named.2 hnamed, hgrows.built hbuilt⟩
    · exact ⟨hgrows.named.2 ⟨name, hname⟩, hbuilt⟩

/-- A compiled template stays made of what the cache holds if the cache keeps the texts and relations of
all that leads to it. -/
theorem Built.of_leads {X : String} {a : Artifact} (h : s.Built X a) (hX : s.Named X)
    (hnormalize : s'.normalize = s.normalize) (hbuild : s'.build = s.build)
    (htext : ∀ c text, s.cache.relations.Leads c X → s.cache.sources.get? c = some text →
      s'.cache.sources.get? c = some text)
    (hhas : ∀ c p, s.cache.relations.Leads c X → s.cache.relations.Has c p →
      s'.cache.relations.Has c p) : s'.Built X a := by
  obtain ⟨flat, henters, hflat⟩ := h
  refine ⟨flat, ?_, by rw [hbuild, hflat]⟩
  refine henters.mono (fun c => s.cache.relations.Leads c X) ?_ ?_ ?_ ?_ ⟨hX.ne_empty, .refl⟩
  · intro m c p hp hname hedge
    exact hp.of_edge (Identifier.ne_empty_of_normalize hname) hedge
  · intro m x hm
    show s'.normalize (String.ofList m) = x
    rw [hnormalize]
    exact hm
  · rintro c x hc ⟨text, hx, hsource⟩
    exact ⟨text, hx, htext c text hc hsource⟩
  · intro c p hc _ hedge
    exact hedge.imp_right (hhas c p hc)

/-- An invalidation leaves the session settled. -/
theorem Settled.invalidate (h : s.Settled) (name : String) : (s.step (.invalidate name)).Settled := by
  cases hname : s.normalize name with
  | error f =>
    rw [step_invalidate_error hname]
    exact h
  | ok d =>
    rw [step_invalidate_ok hname]
    refine ⟨⟨h.ended, h.inflight⟩, fun X a hX => ?_⟩
    obtain ⟨hold, hne, hpath⟩ := Cache.compiled_of_invalidate _ hX
    obtain ⟨hnamed, hbuilt⟩ := h.built X a hold
    -- what is left was not reached from the invalidated template, so that one is not in it
    have hleads : ∀ c, s.cache.relations.Leads c X → c ≠ d := by
      rintro c hc rfl
      rcases hc.eq_or_path with heq | hpath'
      · exact hne heq
      · exact hpath hpath'
    refine ⟨hnamed, hbuilt.of_leads hnamed rfl rfl ?_ ?_⟩
    · intro c text hc hsource
      show (s.cache.invalidate d).sources.get? c = some text
      rw [Cache.sources_invalidate, if_neg (hleads c hc)]
      exact hsource
    · intro c p hc hhas
      show (s.cache.invalidate d).relations.Has c p
      rw [Cache.has_invalidate]
      exact ⟨hhas, hleads c hc⟩

/-- No compiled template is left when all are invalidated. -/
theorem Settled.invalidateAll (h : s.Settled) : s.invalidateAll.Settled := by
  refine ⟨⟨h.ended, h.inflight⟩, fun X a hX => ?_⟩
  obtain ⟨hold, hnone⟩ := Cache.compiled_of_invalidateAll _ hX
  obtain ⟨text, hsource⟩ := (h.built X a hold).2.source
  rw [hnone] at hsource
  exact nomatch hsource

theorem Settled.clear (h : s.Settled) : s.clear.Settled :=
  ⟨⟨h.ended, h.inflight⟩, fun _ _ hX => nomatch hX⟩

theorem normalize_change {tree : Files.Tree} (h : s.tree.SameLinks tree) :
    ({ s with tree } : Session).normalize = s.normalize := by
  funext name
  exact (Identifier.normalize_congr h _ _ _).symm

/-- A change of the files that leaves what names are brought to leaves the session settled. -/
theorem Settled.change (h : s.Settled) {tree : Files.Tree}
    (hnormalize : ({ s with tree } : Session).normalize = s.normalize) : Settled { s with tree } := by
  refine ⟨⟨h.ended, h.inflight⟩, fun X a hX => ?_⟩
  obtain ⟨hnamed, hbuilt⟩ := h.built X a hX
  refine ⟨by rw [Named, hnormalize]; exact hnamed, ?_⟩
  exact hbuilt.of_leads hnamed hnormalize rfl (fun _ _ _ hsource => hsource) (fun _ _ _ hhas => hhas)

/-! ### Sequences -/

/-- When templates are compiled, the cache only grows, and the session stays settled. -/
theorem Settled.compiles (h : s.Settled) {a : Action} (ha : a.Compiles) :
    (s.perform a).Settled ∧ GrowsNamed s (s.perform a) := by
  have hcompile : ∀ (s' : Session) name, s'.Settled ∧ GrowsNamed s s' →
      (s'.compile name).2.Settled ∧ GrowsNamed s (s'.compile name).2 := by
    rintro s' name ⟨hs, hgrows⟩
    obtain ⟨hs', hgrows'⟩ := hs.compile name
    exact ⟨hs', hgrows.trans hgrows'⟩
  cases a with
  | compile name =>
    rw [Session.perform]
    exact hcompile s name ⟨h, .refl s⟩
  | render name data =>
    rw [Session.perform, render_session]
    exact hcompile s name ⟨h, .refl s⟩
  | precompile directory =>
    rw [Session.perform]
    refine precompile_keeps ?_ hcompile s directory ⟨h, .refl s⟩
    rintro s' notes ⟨hs, hgrows⟩
    exact ⟨hs.note notes, hgrows.trans (.of_cache rfl rfl rfl rfl)⟩
  | invalidate name => exact ha.elim
  | invalidateAll => exact ha.elim
  | clear => exact ha.elim
  | change tree => exact ha.elim

/-- No action changes the settings. -/
theorem Settled.settings_perform (h : s.Settled) (a : Action) :
    (s.perform a).settings = s.settings ∧ (s.perform a).shrinkers = s.shrinkers := by
  have hgrows : a.Compiles → (s.perform a).settings = s.settings ∧ (s.perform a).shrinkers = s.shrinkers :=
    fun ha => ⟨(h.compiles ha).2.settings, (h.compiles ha).2.shrinkers⟩
  cases a with
  | compile name => exact hgrows trivial
  | render name data => exact hgrows trivial
  | precompile directory => exact hgrows trivial
  | invalidate name => exact settings_step s (.invalidate name)
  | invalidateAll => exact ⟨rfl, rfl⟩
  | clear => exact ⟨rfl, rfl⟩
  | change tree => exact ⟨rfl, rfl⟩

/-- Every action leaves the session settled and what names are brought to as it is, if it does not change
that with the files. -/
theorem Settled.perform (h : s.Settled) {a : Action}
    (hchange : ∀ tree, a = .change tree → ({ s with tree } : Session).normalize = s.normalize) :
    (s.perform a).Settled ∧ (s.perform a).normalize = s.normalize := by
  have hgrows : a.Compiles → (s.perform a).Settled ∧ (s.perform a).normalize = s.normalize :=
    fun ha => ⟨(h.compiles ha).1, (h.compiles ha).2.normalize⟩
  cases a with
  | compile name => exact hgrows trivial
  | render name data => exact hgrows trivial
  | precompile directory => exact hgrows trivial
  | invalidate name =>
    rw [Session.perform]
    refine ⟨h.invalidate name, ?_⟩
    cases hname : s.normalize name with
    | error f => rw [step_invalidate_error hname]
    | ok d =>
      rw [step_invalidate_ok hname]
      rfl
  | invalidateAll => exact ⟨h.invalidateAll, rfl⟩
  | clear => exact ⟨h.clear, rfl⟩
  | change tree => exact ⟨h.change (hchange tree rfl), hchange tree rfl⟩

/-- After every sequence of actions the session is settled, if no change of the files changes what names
are brought to. -/
theorem settled_performAll (h : s.Settled) (actions : List Action)
    (hchange : ∀ tree name, .change tree ∈ actions →
      Identifier.normalize tree s.root s.root name = s.normalize name) :
    (s.performAll actions).Settled := by
  induction actions generalizing s with
  | nil => exact h
  | cons a actions ih =>
    have hhead : ∀ tree, a = .change tree → ({ s with tree } : Session).normalize = s.normalize := by
      rintro tree rfl
      funext name
      exact hchange tree name List.mem_cons_self
    obtain ⟨h', hnormalize⟩ := h.perform hhead
    refine ih h' fun tree name hmem => ?_
    rw [root, (h.settings_perform a).1, hnormalize]
    exact hchange tree name (List.mem_cons_of_mem _ hmem)

end Session

end Stencil
