import Stencil.Proofs.Session.Sequence

/-!
# A cache that heeds the files

The files of a compiler change behind its back, and what it has in its cache is then a text that no file
holds any more, until the template is invalidated. Those templates are stale (`Action.stale`). As long as
all others are what the files hold (`Coherent`), and nothing is compiled while a template is stale, a
compile comes to what the files come to, whatever the cache holds of it already.

Every action keeps that (`Coherent.perform`), so every compile of a run whose changes are heeded in time
comes to what it would come to with no cache at all (`compile_eq_fresh`). It is a matter of trees without
links, in which a name is always brought to the same template.
-/

namespace Stencil

namespace Session

/-- The file of a template is created, changed or deleted when the files become those of a tree. -/
def Alters (s : Session) (tree : Files.Tree) (d : String) : Prop :=
  s.Named d ∧ (s.tree.read (s.path d)).toOption ≠ (tree.read (s.path d)).toOption

/-- The templates whose files have changed since they were last invalidated: those from before the
action, and what it adds or takes away. -/
def stale (s : Session) (before : String → Prop) : Action → String → Prop
  | .change tree => fun d => before d ∨ s.Alters tree d
  | .invalidate name => fun d => before d ∧ s.normalize name ≠ .ok d
  | .invalidateAll | .clear => fun _ => False
  | .compile _ | .render _ _ | .precompile _ => before

/-- The templates whose files have changed in a run since they were last invalidated. -/
def staleAfter (s : Session) (before : String → Prop) : List Action → String → Prop
  | [] => before
  | a :: rest => (s.perform a).staleAfter (s.stale before a) rest

/-- What the files hold of the templates. -/
def onDisk (s : Session) : World where
  name n x := s.normalize (String.ofList n) = x
  text d x := s.load d = x
  edge _ _ := True

/-- The session is settled, its files have no links, and each text in the cache is what the file of its
template holds, but for the stale ones. -/
structure Coherent (s : Session) (stale : String → Prop) : Prop extends Settled s where
  linkless : s.tree.Linkless
  current : ∀ d text, s.cache.sources.get? d = some text → s.Named d ∧ (stale d ∨ s.load d = .ok text)

variable {s s' : Session} {before stale : String → Prop} {X : String}

/-! ### Keeping up with the files -/

/-- A session that has not been used is coherent. -/
theorem coherent_new (settings : Config.Settings) (shrinkers : Shrinkers) {tree : Files.Tree}
    (h : tree.Linkless) : Coherent { settings, shrinkers, tree } stale :=
  ⟨settled_new settings shrinkers tree, h, fun _ _ hd => nomatch hd⟩

/-- A text that was what the file held still is, or the file has changed. -/
theorem load_change {tree : Files.Tree} {d text : String} (hnamed : s.Named d)
    (hload : s.load d = .ok text) :
    s.Alters tree d ∨ ({ s with tree } : Session).load d = .ok text := by
  by_cases hread : (s.tree.read (s.path d)).toOption = (tree.read (s.path d)).toOption
  · refine Or.inr ?_
    rw [load] at hload ⊢
    cases hold : s.tree.read (s.path d) with
    | error f =>
      rw [hold] at hload
      cases hload
    | ok bytes =>
      rw [hold] at hload hread
      cases hnew : tree.read (s.path d) with
      | error f =>
        rw [hnew] at hread
        cases hread
      | ok bytes' =>
        rw [hnew] at hread
        obtain rfl : bytes = bytes' := Option.some.inj hread
        show textOf { s with tree } d (tree.read (s.path d)) = _
        rw [hnew]
        exact hload
  · exact Or.inl ⟨hnamed, hread⟩

theorem Coherent.change (h : s.Coherent before) {tree : Files.Tree} (hlinkless : tree.Linkless) :
    Coherent { s with tree } (s.stale before (.change tree)) := by
  have hnormalize := normalize_change (h.linkless.sameLinks hlinkless)
  refine ⟨h.toSettled.change hnormalize, hlinkless, fun d text hd => ?_⟩
  obtain ⟨hnamed, hcurrent⟩ := h.current d text hd
  refine ⟨by rw [Named, hnormalize]; exact hnamed, ?_⟩
  rcases hcurrent with hbefore | hload
  · exact Or.inl (Or.inl hbefore)
  · exact (load_change hnamed hload).imp_left Or.inr

theorem Coherent.invalidate (h : s.Coherent before) (name : String) :
    (s.step (.invalidate name)).Coherent (s.stale before (.invalidate name)) := by
  have hsettled := h.toSettled.invalidate name
  cases hname : s.normalize name with
  | error f =>
    rw [step_invalidate_error hname] at hsettled ⊢
    refine ⟨hsettled, h.linkless, fun d text hd => ?_⟩
    obtain ⟨hnamed, hcurrent⟩ := h.current d text hd
    refine ⟨hnamed, hcurrent.imp_left fun hbefore => ⟨hbefore, ?_⟩⟩
    rw [hname]
    exact fun heq => nomatch heq
  | ok c =>
    rw [step_invalidate_ok hname] at hsettled ⊢
    refine ⟨hsettled, h.linkless, fun d text hd => ?_⟩
    have hd' : (s.cache.invalidate c).sources.get? d = some text := hd
    rw [Cache.sources_invalidate] at hd'
    split at hd'
    · exact nomatch hd'
    · next hne =>
      obtain ⟨hnamed, hcurrent⟩ := h.current d text hd'
      refine ⟨hnamed, hcurrent.imp_left fun hbefore => ⟨hbefore, ?_⟩⟩
      rw [hname]
      exact fun heq => hne (Except.ok.inj heq).symm

theorem Coherent.invalidateAll (h : s.Coherent before) : s.invalidateAll.Coherent stale := by
  refine ⟨h.toSettled.invalidateAll, h.linkless, fun d text hd => ?_⟩
  have hnone : s.invalidateAll.cache.sources.get? d = none := Cache.sources_invalidateAll _ d
  rw [hnone] at hd
  exact nomatch hd

theorem Coherent.clear (h : s.Coherent before) : s.clear.Coherent stale :=
  ⟨h.toSettled.clear, h.linkless, fun _ _ hd => nomatch hd⟩

/-- Compiles take texts into the cache only as the files hold them. -/
theorem Coherent.grows (h : s.Coherent stale) (hsettled : s'.Settled) (hgrows : GrowsNamed s s') :
    s'.Coherent stale := by
  refine ⟨hsettled, ?_, fun d text hd => ?_⟩
  · rw [hgrows.tree]
    exact h.linkless
  · rw [hgrows.named, hgrows.load]
    rcases hgrows.names d text hd with hold | hnamed
    · exact h.current d text hold
    · refine ⟨hnamed, ?_⟩
      rcases hgrows.loads d text hd with hold | hload
      · exact (h.current d text hold).2
      · exact Or.inr hload

/-- What is in the cache stays what the files hold, but for what is stale, with every action. -/
theorem Coherent.perform (h : s.Coherent before) (a : Action)
    (hlinkless : ∀ tree, a = .change tree → tree.Linkless) :
    (s.perform a).Coherent (s.stale before a) := by
  have hcompiles : a.Compiles → (s.perform a).Coherent before := by
    intro ha
    obtain ⟨hsettled, hgrows⟩ := h.toSettled.compiles ha
    exact h.grows hsettled hgrows
  cases a with
  | compile name => exact hcompiles trivial
  | render name data => exact hcompiles trivial
  | precompile directory => exact hcompiles trivial
  | invalidate name => exact h.invalidate name
  | invalidateAll => exact h.invalidateAll
  | clear => exact h.clear
  | change tree => exact h.change (hlinkless tree rfl)

theorem Coherent.performAll (h : s.Coherent before) (actions : List Action)
    (hlinkless : ∀ tree, .change tree ∈ actions → tree.Linkless) :
    (s.performAll actions).Coherent (s.staleAfter before actions) ∧
      (s.performAll actions).settings = s.settings ∧ (s.performAll actions).shrinkers = s.shrinkers := by
  induction actions generalizing s before with
  | nil => exact ⟨h, rfl, rfl⟩
  | cons a actions ih =>
    have h' := h.perform a fun tree ha => hlinkless tree (ha ▸ List.mem_cons_self)
    obtain ⟨hcoherent, hsettings, hshrinkers⟩ :=
      ih h' fun tree hmem => hlinkless tree (List.mem_cons_of_mem _ hmem)
    obtain ⟨hsettings', hshrinkers'⟩ := h.toSettled.settings_perform a
    exact ⟨hcoherent, hsettings.trans hsettings', hshrinkers.trans hshrinkers'⟩

/-! ### Compiles -/

/-- The files come to one thing only. -/
theorem onDisk_det {r r' : Except Fault String} (h : Gives s.onDisk [] X r)
    (h' : Gives s.onDisk [] X r') : r = r' :=
  h.det (fun _ _ _ hx hy => Eq.trans (Eq.symm hx) hy) (fun _ _ _ hx hy => Eq.trans (Eq.symm hx) hy) h'

/-- What the cache and the files come to is what the files come to, if the cache holds what they hold. -/
theorem gives_onDisk (hgrows : Grows s s')
    (hcurrent : ∀ d text, s.cache.sources.get? d = some text → s.load d = .ok text)
    {r : Except Fault String} (h : Gives s'.world [] X r) : Gives s.onDisk [] X r := by
  refine h.of_le ⟨?_, ?_, fun _ _ _ => trivial⟩
  · intro n x hn
    show s.normalize (String.ofList n) = x
    rw [← hgrows.normalize]
    exact hn
  · rintro d x (⟨text, rfl, hsource⟩ | ⟨e, rfl, -, hload⟩)
    · rcases hgrows.loads d text hsource with hold | hload
      · exact hcurrent d text hold
      · exact hload
    · rw [hgrows.load] at hload
      exact hload

/-- If the cache holds what the files hold, a compile comes to what the files come to, compiled. -/
theorem Settled.compile_onDisk (h : s.Settled)
    (hcurrent : ∀ d text, s.cache.sources.get? d = some text → s.load d = .ok text) {name : String}
    (hname : s.normalize name = .ok X) :
    ∃ r, Gives s.onDisk [] X r ∧ (s.compile name).1.map (·.template) = r.bind (s.build X) := by
  -- a compiled template is made of the cache; any other is compiled now
  cases hcompiled : s.cache.compiled.get? X with
  | some a =>
    obtain ⟨flat, henters, hbuild⟩ := (h.built X a hcompiled).2
    have hgives : Gives s.world [] X (.ok flat) :=
      Gives.of_le s.cached_le_world (Or.inr ⟨List.not_mem_nil, henters⟩)
    refine ⟨.ok flat, gives_onDisk (.refl s) hcurrent hgives, ?_⟩
    rw [compile_of_some hname hcompiled]
    exact hbuild.symm
  | none =>
    obtain ⟨-, hgrows, -, -, r, hgives, hresult⟩ := compile_spec h.toAtRest hname hcompiled
    exact ⟨r, gives_onDisk hgrows.toGrows hcurrent hgives, hresult⟩

/-- If the cache holds what the files hold, a compile fails with the fault that the files come to. -/
theorem Settled.compile_error (h : s.Settled)
    (hcurrent : ∀ d text, s.cache.sources.get? d = some text → s.load d = .ok text) {name : String}
    (hname : s.normalize name = .ok X) {f : Fault} (hgives : Gives s.onDisk [] X (.error f)) :
    (s.compile name).1 = .error f := by
  obtain ⟨r, hgives', hresult⟩ := h.compile_onDisk hcurrent hname
  obtain rfl := onDisk_det hgives' hgives
  cases hcompile : (s.compile name).1 with
  | ok a =>
    rw [hcompile] at hresult
    exact nomatch hresult
  | error g =>
    rw [hcompile] at hresult
    rw [Except.error.inj hresult]

/-- While nothing is stale, a compile comes to what the files come to, compiled. -/
theorem Coherent.compile_eq (h : s.Coherent stale) (hstale : ∀ d, ¬ stale d) {name : String}
    (hname : s.normalize name = .ok X) :
    ∃ r, Gives s.onDisk [] X r ∧ (s.compile name).1.map (·.template) = r.bind (s.build X) :=
  h.toSettled.compile_onDisk (fun d text hd => (h.current d text hd).2.resolve_left (hstale d)) hname

/-- While nothing is stale in either of two sessions with the same settings and files, they compile
alike. -/
theorem Coherent.compile_congr {stale' : String → Prop} (h : s.Coherent stale) (hstale : ∀ d, ¬ stale d)
    (h' : s'.Coherent stale') (hstale' : ∀ d, ¬ stale' d) (hsettings : s'.settings = s.settings)
    (hshrinkers : s'.shrinkers = s.shrinkers) (htree : s'.tree = s.tree) (name : String) :
    (s.compile name).1.map (·.template) = (s'.compile name).1.map (·.template) := by
  have hnormalize : s'.normalize = s.normalize := normalize_congr hsettings htree
  cases hname : s.normalize name with
  | error f =>
    have hname' : s'.normalize name = .error f := by rw [hnormalize, hname]
    rw [compile_of_error hname, compile_of_error hname']
  | ok X =>
    obtain ⟨r, hgives, hresult⟩ := h.compile_eq hstale hname
    obtain ⟨r', hgives', hresult'⟩ := h'.compile_eq hstale' (X := X) (by rw [hnormalize, hname])
    have hdisk : s'.onDisk = s.onDisk := by
      unfold onDisk
      rw [hnormalize, load_congr hsettings hshrinkers htree]
    rw [hdisk] at hgives'
    rw [hresult, hresult', onDisk_det hgives hgives', build_congr hsettings hshrinkers]

end Session

/-- A compile comes to what it comes to with no cache at all, whatever was done before, if the files that
have changed were invalidated since: the same source is compiled, or it is refused for the same reason. -/
theorem compile_eq_fresh (settings : Config.Settings) (shrinkers : Shrinkers) {tree : Files.Tree}
    (htree : tree.Linkless) {actions : List Action}
    (hchanges : ∀ t, .change t ∈ actions → t.Linkless)
    (hheeded : ∀ d, ¬ Session.staleAfter { settings, shrinkers, tree } (fun _ => False) actions d)
    (name : String) :
    let s := Session.performAll { settings, shrinkers, tree } actions
    let fresh : Session := { settings, shrinkers, tree := s.tree }
    (s.compile name).1.map (·.template) = (fresh.compile name).1.map (·.template) ∧
      (s.compile name).1 ≠ .error .unfinished := by
  intro s fresh
  have hnew : Session.Coherent { settings, shrinkers, tree } (fun _ => False) :=
    Session.coherent_new settings shrinkers htree
  obtain ⟨hcoherent, hsettings, hshrinkers⟩ := hnew.performAll actions hchanges
  have hfresh : fresh.Coherent (fun _ => False) :=
    Session.coherent_new settings shrinkers hcoherent.linkless
  refine ⟨?_, Session.compile_ne_unfinished hcoherent.toAtRest name⟩
  exact hcoherent.compile_congr hheeded hfresh (fun _ h => h) hsettings.symm hshrinkers.symm rfl name

/-- A file changes and all is invalidated. -/
theorem compile_eq_fresh_invalidateAll :
    let settings : Config.Settings := { root := "/v" }
    let tree : Files.Tree := { entries := [(["v"], .directory), (["v", "a.mjs"], .file [65])] }
    let tree' : Files.Tree := { entries := [(["v"], .directory), (["v", "a.mjs"], .file [66])] }
    let s := Session.performAll { settings, tree }
      [.compile "a.mjs", .change tree', .invalidateAll]
    let fresh : Session := { settings, tree := s.tree }
    (s.compile "a.mjs").1.map (·.template) = (fresh.compile "a.mjs").1.map (·.template) ∧
      (s.compile "a.mjs").1 ≠ .error .unfinished := by
  intro settings tree tree'
  have htree : tree.Linkless := .of_entries (by simp [tree])
  have hchanges : ∀ t, .change t ∈ [.compile "a.mjs", .change tree', Action.invalidateAll] →
      t.Linkless := by
    intro t ht
    obtain rfl : t = tree' := by simpa using ht
    exact .of_entries (by simp [tree'])
  have hheeded : ∀ d, ¬ Session.staleAfter { settings, tree }
      (fun _ => False) [.compile "a.mjs", .change tree', .invalidateAll] d := fun _ h => h
  exact compile_eq_fresh settings {} htree hchanges hheeded "a.mjs"

end Stencil
