import Stencil.Proofs.Identifier
import Stencil.Proofs.Reading.Resumption
import Stencil.Proofs.Session.Change
import Stencil.Session.Calls

/-!
# A task on its own

Between two calls that follow each other no task is under way, so a task that compiles or reads a template
has the session to itself: the files stay as they are, nothing is invalidated, and the texts and relations
in the cache only grow (`Grows`). Then nothing that the task has been given can become wrong while it
reads, and what it knows is simply what the cache holds (`Session.cached`) and which of the files cannot
be had (`Session.world`).

`Underway` is the invariant of such a task: its frames are an account of the cache as it is, and when it
has ended its result is made of what the template comes to (`Makes`). Each of its moves keeps it
(`Underway.step`).
-/

namespace Stencil

namespace Session

/-- The text of a template as its file is now. -/
def load (s : Session) (d : String) : Except Fault String := s.textOf d (s.tree.read (s.path d))

/-- The text of a file that stands below directories alone. -/
theorem load_of_entries {s : Session} {d text : String} {names : List String} {content : List UInt8}
    (hpath : Files.components (s.path d) = names) (hnull : '\x00' ∉ (s.path d).toList)
    (hlong : (s.path d).utf8ByteSize < Files.Tree.pathLimit) (hnames : ∀ n ∈ names, Files.Tree.Fits n)
    (hdirectories : ∀ i < names.length, s.tree.Enters (names.take i))
    (hentry : s.tree.entry? names = some (.file content)) (hreadable : names ∉ s.tree.unreadable)
    (htext : Reading.ofBytes s.shrinkers.stylesheet d content = .ok text) : s.load d = .ok text := by
  rw [load, Files.Tree.read_of_entries hpath hnull hlong hnames hdirectories hentry hreadable]
  unfold textOf
  dsimp only
  rw [htext]
  rfl

/-- Some name is brought to a template. -/
def Named (s : Session) (d : String) : Prop := ∃ name, s.normalize name = .ok d

/-- What the cache holds of the templates. -/
def cached (s : Session) : World where
  name n x := s.normalize (String.ofList n) = x
  text d x := ∃ text, x = .ok text ∧ s.cache.sources.get? d = some text
  edge c p := p = "" ∨ s.cache.relations.Has c p

/-- What the cache holds of the templates, and which of the others cannot be had. -/
def world (s : Session) : World where
  name n x := s.normalize (String.ofList n) = x
  text d x := s.cached.text d x ∨
    ∃ e, x = .error e ∧ s.cache.sources.get? d = none ∧ s.load d = .error e
  edge c p := p = "" ∨ s.cache.relations.Has c p

/-- A compiled template is made of what the cache holds. -/
def Built (s : Session) (X : String) (a : Artifact) : Prop :=
  ∃ flat, Enters s.cached [] X (.ok flat) ∧ s.build X flat = .ok a.template

theorem Named.ne_empty {s : Session} {d : String} (h : s.Named d) : d ≠ "" := by
  obtain ⟨name, hname⟩ := h
  exact Identifier.ne_empty_of_normalize hname

/-! ### Growth -/

/-- The files stay, nothing is invalidated, and the cache only grows, by texts of the files. -/
structure Grows (s s' : Session) : Prop where
  settings : s'.settings = s.settings
  shrinkers : s'.shrinkers = s.shrinkers
  tree : s'.tree = s.tree
  version : s'.cache.version = s.cache.version
  keeps : ∀ d text, s.cache.sources.get? d = some text → s'.cache.sources.get? d = some text
  loads : ∀ d text, s'.cache.sources.get? d = some text →
    s.cache.sources.get? d = some text ∨ s.load d = .ok text
  has : ∀ c p, s.cache.relations.Has c p → s'.cache.relations.Has c p

/-- The cache only grows, by texts of templates that have names. -/
structure GrowsNamed (s s' : Session) : Prop extends Grows s s' where
  names : ∀ d text, s'.cache.sources.get? d = some text →
    s.cache.sources.get? d = some text ∨ s.Named d

section Grows

variable {s s' s'' : Session}

theorem normalize_congr (hsettings : s'.settings = s.settings) (htree : s'.tree = s.tree) :
    s'.normalize = s.normalize := by
  funext name
  rw [normalize, normalize, root, root, hsettings, htree]

theorem load_congr (hsettings : s'.settings = s.settings) (hshrinkers : s'.shrinkers = s.shrinkers)
    (htree : s'.tree = s.tree) : s'.load = s.load := by
  funext d
  simp only [load, textOf, path, root, hsettings, hshrinkers, htree]

theorem build_congr (hsettings : s'.settings = s.settings) (hshrinkers : s'.shrinkers = s.shrinkers) :
    s'.build = s.build := by
  funext X flat
  simp only [build, shrink, hsettings, hshrinkers]

theorem Grows.normalize (h : Grows s s') : s'.normalize = s.normalize :=
  normalize_congr h.settings h.tree

theorem Grows.load (h : Grows s s') : s'.load = s.load := load_congr h.settings h.shrinkers h.tree

theorem Grows.build (h : Grows s s') : s'.build = s.build := build_congr h.settings h.shrinkers

theorem Grows.named (h : Grows s s') {d : String} : s'.Named d ↔ s.Named d := by
  rw [Named, Named, h.normalize]

/-- A session with the same files and the same cache. -/
theorem Grows.of_cache (hsettings : s'.settings = s.settings) (hshrinkers : s'.shrinkers = s.shrinkers)
    (htree : s'.tree = s.tree) (hcache : s'.cache = s.cache) : Grows s s' :=
  ⟨hsettings, hshrinkers, htree, by rw [hcache], by rw [hcache]; exact fun _ _ h => h,
    by rw [hcache]; exact fun _ _ h => Or.inl h, by rw [hcache]; exact fun _ _ h => h⟩

theorem Grows.refl (s : Session) : Grows s s := .of_cache rfl rfl rfl rfl

theorem Grows.trans (h : Grows s s') (h' : Grows s' s'') : Grows s s'' := by
  refine ⟨h'.settings.trans h.settings, h'.shrinkers.trans h.shrinkers, h'.tree.trans h.tree,
    h'.version.trans h.version, fun d text hd => h'.keeps d text (h.keeps d text hd), ?_,
    fun c p hc => h'.has c p (h.has c p hc)⟩
  intro d text hd
  rcases h'.loads d text hd with hd | hload
  · exact h.loads d text hd
  · rw [h.load] at hload
    exact Or.inr hload

theorem GrowsNamed.of_cache (hsettings : s'.settings = s.settings) (hshrinkers : s'.shrinkers = s.shrinkers)
    (htree : s'.tree = s.tree) (hcache : s'.cache = s.cache) : GrowsNamed s s' :=
  ⟨.of_cache hsettings hshrinkers htree hcache, by rw [hcache]; exact fun _ _ h => Or.inl h⟩

theorem GrowsNamed.refl (s : Session) : GrowsNamed s s := .of_cache rfl rfl rfl rfl

theorem GrowsNamed.trans (h : GrowsNamed s s') (h' : GrowsNamed s' s'') : GrowsNamed s s'' := by
  refine ⟨h.toGrows.trans h'.toGrows, fun d text hd => ?_⟩
  rcases h'.names d text hd with hd | hnamed
  · exact h.names d text hd
  · exact Or.inr (h.named.1 hnamed)

/-- What the cache holds it holds on while it grows. -/
theorem Grows.cached_le (h : Grows s s') : s.cached ≤ s'.cached := by
  refine ⟨fun n x hn => ?_, ?_, fun c p he => he.imp_right (h.has c p)⟩
  · show s'.normalize (String.ofList n) = x
    rw [h.normalize]
    exact hn
  · rintro d x ⟨text, hx, hsource⟩
    exact ⟨text, hx, h.keeps d text hsource⟩

theorem Grows.built (h : Grows s s') {X : String} {a : Artifact} (hb : s.Built X a) : s'.Built X a := by
  obtain ⟨flat, henters, hbuild⟩ := hb
  exact ⟨flat, henters.of_le h.cached_le, by rw [h.build, hbuild]⟩

/-- What cannot be had while the cache grows is not in the cache afterwards either. -/
theorem Grows.world_le (h : Grows s s') : s.world ≤ s'.world := by
  have hcached : s.cached ≤ s'.cached := h.cached_le
  refine ⟨hcached.name, ?_, hcached.edge⟩
  rintro d x (hd | ⟨e, hx, habsent, hload⟩)
  · exact Or.inl (hcached.text d x hd)
  · refine Or.inr ⟨e, hx, ?_, by rw [h.load, hload]⟩
    refine Option.eq_none_iff_forall_ne_some.2 fun text hsource => ?_
    rcases h.loads d text hsource with hold | hok
    · rw [habsent] at hold
      exact nomatch hold
    · rw [hload] at hok
      exact nomatch hok

end Grows

theorem cached_le_world (s : Session) : s.cached ≤ s.world :=
  ⟨fun _ _ hn => hn, fun _ _ => Or.inl, fun _ _ he => he⟩

/-! ### A task under way -/

/-- What a task makes of what its template comes to: one that reads is answered with the text, one that
compiles with the text compiled. -/
inductive Makes (s : Session) : Job → Except Fault String → Except Fault Product → Prop
  | failed {job : Job} {f : Fault} : Makes s job (.error f) (.error f)
  | read {id text : String} {parent : Option String} {taken : Snapshot} :
      Makes s (.read id parent) (.ok text) (.ok (.text text taken))
  | rejected {id text : String} {f : Fault} : s.build id text = .error f →
      Makes s (.compile id) (.ok text) (.error f)
  | compiled {id text : String} {a : Artifact} : s.build id text = .ok a.template →
      Makes s (.compile id) (.ok text) (.ok (.compiled a))

/-- A task has stopped at a text that is not there and whose version it has taken. -/
structure StopsAt (s : Session) (X : String) (w : Reading.Wait) : Prop where
  absent : s.cache.sources.get? w.id = none
  version : w.version = s.cache.version w.id
  frames : Reading.FramesFit s.cached [] X w.id w.frames

/-- A task has ended with what it makes of its template, and what it has compiled is kept. -/
structure EndsWith (s : Session) (job : Job) (result : Except Fault Product) : Prop where
  makes : ∃ r, Gives s.world [] job.id r ∧ s.Makes job r result
  stored : ∀ a, result = .ok (.compiled a) → s.cache.compiled.get? job.id = some a

/-- How far a task has come, in a session of its own. -/
def Stage (s : Session) (job : Job) : Phase → Prop
  | .starting => True
  | .fetching w => s.StopsAt job.id w
  | .fetched w content => s.StopsAt job.id w ∧ content = s.tree.read (s.path w.id)
  | .finished result => s.EndsWith job result

/-- The `k`-th task does a job, and since the session `s₁` nothing else has happened. -/
structure Underway (s₁ : Session) (k : Nat) (job : Job) (s : Session) : Prop where
  grows : Grows s₁ s
  names : ∀ d text, s.cache.sources.get? d = some text →
    s₁.cache.sources.get? d = some text ∨ d = job.id ∨ s₁.Named d
  inflight : s.inflight = s₁.inflight
  others : ∀ j, j ≠ k → s.tasks[j]? = s₁.tasks[j]?
  compiles : ∀ Y a, s.cache.compiled.get? Y = some a →
    s₁.cache.compiled.get? Y = some a ∨ (job = .compile Y ∧ s.Built Y a)
  task : ∃ t, s.tasks[k]? = some t ∧ t.job = job ∧
    (∀ p ∈ t.taken, p.2 = s.cache.version p.1) ∧ s.Stage job t.phase

section Step

variable {s s₁ s' : Session} {k : Nat} {X : String} {job : Job} {t t' : Task} {e : Event}

/-- The next event of a task moves it, and the files and the calls that can be joined stay. -/
theorem moves_of_next (he : s.nextEvent k = some e) :
    ∃ t t', s.tasks[k]? = some t ∧ (s.step e).tasks = s.tasks.set k t' ∧
      s.Moves k t e t' (s.step e) ∧ Steady s (s.step e) := by
  unfold nextEvent at he
  split at he
  · next t hk =>
    split at he
    · next hphase =>
      cases he
      obtain ⟨t', htasks, hmoves⟩ := moves_start hk hphase
      exact ⟨t, t', hk, htasks, hmoves, .start s k⟩
    · next w hphase =>
      cases he
      obtain ⟨t', htasks, hmoves⟩ := moves_fetch hk hphase
      exact ⟨t, t', hk, htasks, hmoves, .fetch s k⟩
    · next w content hphase =>
      cases he
      obtain ⟨t', htasks, hmoves⟩ := moves_resume hk hphase
      exact ⟨t, t', hk, htasks, hmoves, .resume s k⟩
    · exact nomatch he
  · exact nomatch he

/-- The text that a task has waited for is cached when it comes, and no other one. -/
theorem StopsAt.sources_receive {w : Reading.Wait} (h : s.StopsAt X w) (text d : String) :
    (s.receive w text).cache.sources.get? d =
      if d = w.id then some text else s.cache.sources.get? d := by
  rw [Session.sources_receive, ← h.version]
  simp only [and_true]

/-- What a task waits for is its own template, or has a name. -/
theorem StopsAt.named {w : Reading.Wait} (h : s.StopsAt X w) : w.id = X ∨ s.Named w.id := by
  obtain ⟨-, -, hframes⟩ := h
  obtain ⟨id, version, frames⟩ := w
  cases frames with
  | nil =>
    rw [Reading.FramesFit] at hframes
    exact Or.inl hframes
  | cons f rest =>
    obtain ⟨text, before, name, -, -, -, hname⟩ := hframes.1.at_include
    exact Or.inr ⟨String.ofList name, hname⟩

/-- A task that stands where its stage says leaves a session that has only grown. -/
theorem Moves.grows (h : s.Moves k t e t' s') (hsteady : Steady s s') (hstage : s.Stage job t.phase) :
    Grows s s' := by
  have hhas := fun c p => h.has (c := c) (p := p)
  have hversion := h.version
  cases h with
  | fetches _ hcache => exact .of_cache hsteady.settings hsteady.shrinkers hsteady.tree hcache
  | fails _ _ hcache => exact .of_cache hsteady.settings hsteady.shrinkers hsteady.tree hcache
  | starts _ h =>
    refine ⟨hsteady.settings, hsteady.shrinkers, hsteady.tree, hversion, ?_, ?_, hhas⟩
    · exact fun d text hd => h.sources ▸ hd
    · exact fun d text hd => Or.inl (h.sources ▸ hd)
  | @resumes w content text _ _ hphase htext h =>
    rw [hphase] at hstage
    obtain ⟨hstops, rfl⟩ := hstage
    refine ⟨hsteady.settings, hsteady.shrinkers, hsteady.tree, hversion, ?_, ?_, hhas⟩
    · intro d text' hd
      rw [h.sources, hstops.sources_receive, if_neg]
      · exact hd
      · rintro rfl
        rw [hstops.absent] at hd
        exact nomatch hd
    · intro d text' hd
      rw [h.sources, hstops.sources_receive] at hd
      split at hd
      · next hw =>
        subst hw
        cases hd
        exact Or.inr htext
      · exact Or.inl hd

/-- The text that a move brings is the one that its task has waited for. -/
theorem Moves.names (h : s.Moves k t e t' s') (hstage : s.Stage job t.phase) {d text : String}
    (hd : s'.cache.sources.get? d = some text) :
    s.cache.sources.get? d = some text ∨ d = job.id ∨ s.Named d := by
  cases h with
  | fetches _ hcache => exact Or.inl (hcache ▸ hd)
  | fails _ _ hcache => exact Or.inl (hcache ▸ hd)
  | starts _ h => exact Or.inl (h.sources ▸ hd)
  | resumes hphase _ h =>
    rw [hphase] at hstage
    rw [h.sources, hstage.1.sources_receive] at hd
    split at hd
    · next hw =>
      rw [hw]
      exact Or.inr hstage.1.named
    · exact Or.inl hd

/-- All that a reading has seen is in the cache afterwards. -/
theorem seen_cached (s' : Session) (d : Reading.Desk) {trail : Trail}
    (hnormalize : d.normalize = s'.normalize)
    (hsources : s'.cache.sources = d.sources) (hrelations : s'.cache.relations = trail.relations) :
    d.Seen trail s'.cached := by
  refine ⟨fun n => ?_, fun c text htext _ => ⟨text, rfl, by rw [hsources, htext]⟩, fun c p hp _ => ?_⟩
  · show s'.normalize (String.ofList n) = d.normalize (String.ofList n)
    rw [hnormalize]
  · rw [← hrelations] at hp
    exact hp

/-- What a task comes to when its reading has come to what the cache says. -/
theorem stage_of_arrives {s₀ : Session} {taken : Snapshot} {outcome : Reading.Outcome} {phase : Phase}
    (h : s₀.Arrives taken job outcome phase s'.cache.compiled)
    (hbuild : s₀.build = s'.build) (hcurrent : s₀.cache.isCurrent taken = true)
    (hfits : outcome.Fits s'.cached [] job.id)
    (hwaits : ∀ w, outcome = .waits w →
      s'.cache.sources.get? w.id = none ∧ w.version = s'.cache.version w.id) :
    s'.Stage job phase ∧ ∀ Y a, s'.cache.compiled.get? Y = some a →
      s₀.cache.compiled.get? Y = some a ∨ (job = .compile Y ∧ s'.Built Y a) := by
  have hworld : s'.cached ≤ s'.world := s'.cached_le_world
  generalize hcompiled : s'.cache.compiled = compiled at h
  cases h with
  | @waits _ w =>
    obtain ⟨habsent, hversion⟩ := hwaits w rfl
    exact ⟨⟨habsent, hversion, hfits.2⟩, fun Y a hY => Or.inl hY⟩
  | failed =>
    exact ⟨⟨⟨_, Gives.of_le hworld hfits, .failed⟩, fun a ha => nomatch ha⟩, fun Y a hY => Or.inl hY⟩
  | read =>
    exact ⟨⟨⟨_, Gives.of_le hworld hfits, .read⟩, fun a ha => nomatch ha⟩, fun Y a hY => Or.inl hY⟩
  | rejected h =>
    rw [hbuild] at h
    exact ⟨⟨⟨_, Gives.of_le hworld hfits, .rejected h⟩, fun a ha => nomatch ha⟩,
      fun Y a hY => Or.inl hY⟩
  -- nothing is invalidated meanwhile, so what is compiled is stored
  | passed _ h =>
    rw [hcurrent] at h
    exact nomatch h
  | @stored X text a h _ =>
    rw [hbuild] at h
    refine ⟨⟨⟨_, Gives.of_le hworld hfits, .compiled h⟩, fun b hb => ?_⟩, fun Y b hY => ?_⟩
    · cases hb
      show s'.cache.compiled.get? X = some a
      rw [hcompiled, Store.get?_put, if_pos rfl]
    · rw [Store.get?_put] at hY
      split at hY
      · next hYX =>
        cases hY
        exact Or.inr ⟨by rw [hYX], hYX ▸ ⟨text, Gives.enters hfits, h⟩⟩
      · exact Or.inl hY

theorem StopsAt.of_grows {w : Reading.Wait} (h : s.StopsAt X w) (hgrows : Grows s s')
    (hcache : s'.cache = s.cache) : s'.StopsAt X w :=
  ⟨by rw [hcache, h.absent], by rw [hcache, h.version], h.frames.of_le hgrows.cached_le⟩

/-- A file that cannot be had is the fault of the template that the task is about. -/
theorem StopsAt.gives_error {w : Reading.Wait} {f : Fault} (h : s.StopsAt X w)
    (hload : s.load w.id = .error f) : Gives s.world [] X (.error f) := by
  have hframes : Reading.FramesFit s.world [] X w.id w.frames :=
    h.frames.of_le s.cached_le_world
  refine hframes.gives_error List.not_mem_nil (Or.inr ⟨?_, Or.inl ⟨f, ?_, rfl⟩⟩)
  · exact hframes.apart List.not_mem_nil
  · exact Or.inr ⟨f, rfl, h.absent, hload⟩

/-- A task that moves comes to its next stage, and stores nothing but its own template. -/
theorem Moves.stage (h : s.Moves k t e t' s') (hsteady : Steady s s') (hjob : t.job = job)
    (htaken : ∀ p ∈ t.taken, p.2 = s.cache.version p.1) (hstage : s.Stage job t.phase) :
    s'.Stage job t'.phase ∧ ∀ Y a, s'.cache.compiled.get? Y = some a →
      s.cache.compiled.get? Y = some a ∨ (job = .compile Y ∧ s'.Built Y a) := by
  have hgrows := h.grows hsteady hstage
  have hjob' : t'.job = job := h.job.trans hjob
  have hcurrent : s.cache.isCurrent t'.taken = true := by
    refine (Cache.isCurrent_iff _).2 fun d v hmem => ?_
    rcases h.adds hmem with hmem | hv
    · exact (htaken _ hmem).symm
    · exact hv.symm
  cases h with
  | @fetches w _ hphase hcache =>
    rw [hphase] at hstage
    refine ⟨⟨hstage.of_grows hgrows hcache, ?_⟩, fun Y a hY => Or.inl (hcache ▸ hY)⟩
    rw [hsteady.tree, path, path, root, root, hsteady.settings]
  | @fails w content f _ hphase hf hcache =>
    rw [hphase] at hstage
    obtain ⟨hstops, rfl⟩ := hstage
    refine ⟨⟨⟨.error f, (hstops.of_grows hgrows hcache).gives_error ?_, .failed⟩,
      fun a ha => nomatch ha⟩, fun Y a hY => Or.inl (hcache ▸ hY)⟩
    rw [hgrows.load]
    exact hf
  | starts _ h =>
    have harrives := h.arrives
    rw [hjob'] at harrives
    have hseen := seen_cached s' s.desk ((normalize_desk s).trans hgrows.normalize.symm)
      h.sources h.relations
    have hfits := ((Reading.read_fits s.desk).1 [] _ _ _ _ hseen).1
    rw [hjob] at hfits harrives
    refine stage_of_arrives harrives hgrows.build.symm hcurrent hfits fun w hw => ?_
    obtain ⟨habsent, hversion, -⟩ := ((Reading.leaves s.desk).1 _ _ _ _).waits w hw
    rw [h.sources, h.version]
    exact ⟨habsent, hversion⟩
  | @resumes w content text _ _ hphase htext h =>
    rw [hphase] at hstage
    obtain ⟨hstops, rfl⟩ := hstage
    have harrives := h.arrives
    rw [hjob'] at harrives
    have hnormalize := ((normalize_desk _).trans (normalize_receive s w text)).trans hgrows.normalize.symm
    have hseen := seen_cached s' (s.receive w text).desk hnormalize h.sources h.relations
    have hsource : s'.cached.text w.id (.ok text) := by
      refine ⟨text, rfl, ?_⟩
      rw [h.sources, hstops.sources_receive, if_pos rfl]
    have hfits := Reading.resume_fits _ (hstops.frames.of_le hgrows.cached_le) hsource hseen
    have hbuild := (build_receive s w text).trans hgrows.build.symm
    have hcurrent' : (s.receive w text).cache.isCurrent t'.taken = true := by
      rw [Cache.isCurrent_congr (version_receive s w text)]
      exact hcurrent
    have hstage' := stage_of_arrives harrives hbuild hcurrent' hfits fun w' hw' => by
      obtain ⟨habsent, hversion, -⟩ := (Reading.leaves_resume _ _ _ _).waits w' hw'
      rw [h.sources, h.version]
      exact ⟨habsent, hversion⟩
    rw [compiled_receive] at hstage'
    exact hstage'

/-- A task under way goes on being so with each of its moves. -/
theorem Underway.step (h : Underway s₁ k job s) (he : s.nextEvent k = some e) :
    Underway s₁ k job (s.step e) := by
  obtain ⟨t₀, hk₀, hjob, htaken, hstage⟩ := h.task
  obtain ⟨t, t', hk, htasks, hmoves, hsteady⟩ := moves_of_next he
  obtain rfl : t₀ = t := by
    rw [hk, Option.some.injEq] at hk₀
    exact hk₀.symm
  have hgrows := hmoves.grows hsteady hstage
  obtain ⟨hstage', hcompiled⟩ := hmoves.stage hsteady hjob htaken hstage
  refine ⟨h.grows.trans hgrows, ?_, hsteady.inflight.trans h.inflight, ?_, ?_, t', ?_, hmoves.job.trans hjob,
    ?_, hstage'⟩
  · intro d text hd
    rcases hmoves.names hstage hd with hd | hd | hd
    · exact h.names d text hd
    · exact Or.inr (Or.inl hd)
    · exact Or.inr (Or.inr (h.grows.named.1 hd))
  · intro j hj
    rw [htasks, List.getElem?_set_ne hj.symm]
    exact h.others j hj
  · intro Y a hY
    rcases hcompiled Y a hY with hY | hY
    · rcases h.compiles Y a hY with hY | ⟨hYjob, hbuilt⟩
      · exact Or.inl hY
      · exact Or.inr ⟨hYjob, hgrows.built hbuilt⟩
    · exact Or.inr hY
  · rw [htasks, List.getElem?_set_self (List.getElem?_eq_some_iff.1 hk).1]
  · intro p hp
    rw [hmoves.version]
    rcases hmoves.adds hp with hp | hp
    · exact htaken p hp
    · exact hp

end Step

end Session

end Stencil
