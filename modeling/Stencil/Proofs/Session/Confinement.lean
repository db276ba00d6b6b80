import Stencil.Proofs.Identifier.Canonical
import Stencil.Proofs.Session.Asking
import Stencil.Proofs.Session.Rereading
import Stencil.Proofs.Session.Sharing

/-!
# Templates stay below the root

A template is asked for by a name: in a call, as an entry of a directory that is precompiled, or in an include
of another template. Each time the name is brought to an identifier before anything is done with it, so
whatever a session comes to know of it knows by an identifier (`Confined`): the templates whose files were
asked for, those with a text or a compiled form, those that calls can join, and both ends of every relation.

The relations and the waits of a task come from its reading, which makes them of what it was given and of
what the names in includes are brought to (`Reading.read_within`). So every step keeps a session confined
(`Confined.step`), and with it everything that is done with a compiler by names (`Served`). Identifiers are
brought to themselves, lie below the root as they are written, and are one if they come to one place
(`identifiers_confined`).
-/

namespace Stencil

open Identifier (IsIdentifier)

/-! ### Readings -/

namespace Reading

/-- The templates that a wait is about: the one that is waited for, and those around it. -/
def Wait.ids (w : Wait) : List String := w.id :: chainOf w.frames

/-- What a reading adds to its trail and what it waits for are templates of one kind. -/
structure Within (P : String → Prop) (t : Trail) (r : Outcome × Trail) : Prop where
  edges : ∀ c p, r.2.relations.Has c p → t.relations.Has c p ∨ (P c ∧ P p)
  waits : ∀ w, r.1 = .waits w → ∀ d ∈ w.ids, P d

variable {P : String → Prop} {d : Desk} {t t' : Trail} {r : Outcome × Trail}

theorem Within.of_edges (h : Within P t' r)
    (hedges : ∀ c p, t'.relations.Has c p → t.relations.Has c p ∨ (P c ∧ P p)) : Within P t r := by
  refine ⟨fun c p hc => ?_, h.waits⟩
  rcases h.edges c p hc with hc | hc
  · exact hedges c p hc
  · exact Or.inr hc

/-- A reading that ends at once with its trail as it was. -/
theorem within_ended {outcome : Outcome} (h : ∀ w, outcome ≠ .waits w) : Within P t (outcome, t) :=
  ⟨fun _ _ hc => Or.inl hc, fun w hw => absurd hw (h w)⟩

theorem edges_enter {id : String} {parent : Option String} (hid : P id)
    (hparent : ∀ p, parent = some p → P p) (c p : String)
    (h : (t.enter d id parent).relations.Has c p) : t.relations.Has c p ∨ (P c ∧ P p) := by
  rw [Trail.enter, relations_take, has_relate] at h
  rcases h with h | ⟨hp, -, rfl⟩
  · exact Or.inl h
  · exact Or.inr ⟨hid, hparent p hp⟩

/-- The templates that an include adds to a wait. -/
theorem mem_ids_append {w : Wait} {frames : List Frame} {c : String}
    (h : c ∈ Wait.ids { w with frames := w.frames ++ frames }) : c ∈ w.ids ∨ ∃ f ∈ frames, c = f.id := by
  rw [Wait.ids, chainOf, List.map_append, ← List.cons_append, List.mem_append] at h
  rcases h with h | h
  · exact Or.inl h
  · obtain ⟨f, hf, hc⟩ := List.mem_map.1 h
    exact Or.inr ⟨f, hf, hc.symm⟩

/-- A reading stays within the templates that it is given and that names are brought to. -/
theorem read_within (hP : ∀ name id, d.normalize name = .ok id → P id) :
    (∀ chain parent id t, P id → (∀ p, parent = some p → P p) →
      Within P t (readTemplate d chain parent id t)) ∧
    ∀ chain id before rest t, P id → Within P t (readSegments d chain id before rest t) := by
  have key := read_induct d
    (P := fun _ parent id t r => P id → (∀ p, parent = some p → P p) → Within P t r)
    (Q := fun _ id _ _ t r => P id → Within P t r) ?_ ?_ ?_ ?_ ?_ ?_ ?_ ?_ ?_
  · exact ⟨fun chain parent id t => key.1 chain parent id t,
      fun chain id before rest t => key.2 chain id before rest t⟩
  · intro chain parent id t _ _ _
    exact within_ended fun w hw => nomatch hw
  · intro chain parent id t _ _ hid hparent
    refine ⟨edges_enter hid hparent, ?_⟩
    rintro w ⟨⟩ c hc
    rw [List.mem_singleton.1 hc]
    exact hid
  · intro chain parent id t text _ _ r h hid hparent
    exact (h hid).of_edges (edges_enter hid hparent)
  · intro chain id before t _
    exact within_ended fun w hw => nomatch hw
  · intro chain id before cs rest t r h
    exact h
  · intro chain id before name rest t f _ _
    exact within_ended fun w hw => nomatch hw
  · intro chain id before name rest t child inner t' hname h₁ r h₂ hid
    have hinner := h₁ (hP _ _ hname) (by rintro p ⟨⟩; exact hid)
    exact (h₂ hid).of_edges hinner.edges
  · intro chain id before name rest t child f t' hname h hid
    have hinner := h (hP _ _ hname) (by rintro p ⟨⟩; exact hid)
    exact ⟨hinner.edges, fun w hw => nomatch hw⟩
  · intro chain id before name rest t child w t' hname h hid
    have hinner := h (hP _ _ hname) (by rintro p ⟨⟩; exact hid)
    refine ⟨hinner.edges, ?_⟩
    rintro w' ⟨⟩ c hc
    rcases mem_ids_append hc with hc | ⟨f, hf, rfl⟩
    · exact hinner.waits w rfl c hc
    · rw [List.mem_singleton.1 hf]
      exact hid

theorem climb_within (hP : ∀ name id, d.normalize name = .ok id → P id) {frames : List Frame}
    (hframes : ∀ f ∈ frames, P f.id) (h : Within P t r) : Within P t (climb d frames r) := by
  induction frames generalizing r with
  | nil =>
    rw [climb]
    exact h
  | cons f rest ih =>
    have hf := hframes f List.mem_cons_self
    have hrest := fun g hg => hframes g (List.mem_cons_of_mem f hg)
    obtain ⟨outcome, t'⟩ := r
    cases outcome with
    | done text =>
      rw [climb]
      exact ih hrest (((read_within hP).2 _ _ _ _ _ hf).of_edges h.edges)
    | failed e =>
      rw [climb]
      exact h
    | waits w =>
      rw [climb_waits]
      refine ⟨h.edges, ?_⟩
      rintro w' ⟨⟩ c hc
      rcases mem_ids_append hc with hc | ⟨g, hg, rfl⟩
      · exact h.waits w rfl c hc
      · exact hframes g hg

theorem resume_within (hP : ∀ name id, d.normalize name = .ok id → P id) {w : Wait}
    (hw : ∀ c ∈ w.ids, P c) (text : String) : Within P t (resume d w text t) := by
  have hid : P w.id := hw w.id List.mem_cons_self
  rw [resume_eq]
  refine climb_within hP (fun f hf => ?_) ((read_within hP).2 _ _ _ _ _ hid)
  exact hw f.id (List.mem_cons_of_mem _ (List.mem_map_of_mem hf))

end Reading

/-! ### Sessions -/

/-- The templates that a task is about in a phase. -/
def Phase.ids : Phase → List String
  | .fetching w | .fetched w _ => w.ids
  | .starting | .finished _ => []

/-- The templates that a task is about. -/
def Task.ids (t : Task) : List String := t.job.id :: (t.job.parent.toList ++ t.phase.ids)

namespace Session

/-- All that a session knows of are templates with identifiers. -/
structure Confined (s : Session) : Prop where
  asked : ∀ d ∈ s.asked, IsIdentifier d
  sources : ∀ d text, s.cache.sources.get? d = some text → IsIdentifier d
  compiled : ∀ d a, s.cache.compiled.get? d = some a → IsIdentifier d
  inflight : ∀ p ∈ s.inflight, IsIdentifier p.1
  edges : ∀ c p, s.cache.relations.Has c p → IsIdentifier c ∧ IsIdentifier p
  tasks : ∀ t ∈ s.tasks, ∀ d ∈ t.ids, IsIdentifier d

variable {s s' : Session} {e : Event} {k : Nat} {t t' : Task}

theorem isIdentifier_of_normalize {name d : String} (h : s.normalize name = .ok d) : IsIdentifier d :=
  Identifier.isIdentifier_of_normalize h

/-- A new task is about the template of its job. -/
theorem ids_compile (id : String) : Task.ids { job := .compile id } = [id] := rfl

theorem mem_ids_of_phase {d : String} (h : d ∈ t.phase.ids) : d ∈ t.ids :=
  List.mem_cons_of_mem _ (List.mem_append_right _ h)

theorem asks_subset_ids {d : String} {phase : Phase} (h : d ∈ phase.asks) : d ∈ phase.ids := by
  cases phase with
  | fetching w =>
    rw [List.mem_singleton.1 h]
    exact List.mem_cons_self
  | starting => exact nomatch h
  | fetched w content => exact nomatch h
  | finished result => exact nomatch h

/-- What a task waits for is what its reading waits for. -/
theorem Arrives.ids {taken : Snapshot} {job : Job} {outcome : Reading.Outcome} {phase : Phase}
    {compiled : Store Artifact} (h : s.Arrives taken job outcome phase compiled) {d : String}
    (hd : d ∈ phase.ids) : ∃ w, outcome = .waits w ∧ d ∈ w.ids := by
  cases h with
  | @waits _ w => exact ⟨w, rfl, hd⟩
  | failed => exact nomatch hd
  | read => exact nomatch hd
  | rejected => exact nomatch hd
  | stored => exact nomatch hd
  | passed => exact nomatch hd

/-- A task that has gone on with a reading among identifiers. -/
theorem Advanced.confined {s₀ : Session} {read : Reading.Outcome × Trail}
    (h : s₀.Advanced t read t' s') {trail : Trail} (hread : Reading.Within IsIdentifier trail read)
    (ht : ∀ d ∈ t.ids, IsIdentifier d) :
    (∀ d ∈ t'.ids, IsIdentifier d) ∧
      ∀ c p, s'.cache.relations.Has c p → trail.relations.Has c p ∨ (IsIdentifier c ∧ IsIdentifier p) := by
  constructor
  · intro d hd
    rw [Task.ids, h.job, ← List.cons_append, List.mem_append] at hd
    rcases hd with hd | hd
    · exact ht d (by rw [Task.ids, ← List.cons_append]; exact List.mem_append_left _ hd)
    · obtain ⟨w, hw, hd⟩ := h.arrives.ids hd
      exact hread.waits w hw d hd
  · intro c p hc
    rw [h.relations] at hc
    exact hread.edges c p hc

/-- A task that moves stays about identifiers, and relates identifiers only. -/
theorem Moves.confined (h : s.Moves k t e t' s') (ht : ∀ d ∈ t.ids, IsIdentifier d) :
    (∀ d ∈ t'.ids, IsIdentifier d) ∧
      ∀ c p, s'.cache.relations.Has c p → s.cache.relations.Has c p ∨ (IsIdentifier c ∧ IsIdentifier p) := by
  cases h with
  | starts _ h =>
    have hP : ∀ name id, s.desk.normalize name = .ok id → IsIdentifier id := by
      intro name id hname
      rw [normalize_desk] at hname
      exact isIdentifier_of_normalize hname
    have hid : IsIdentifier t.job.id := ht _ List.mem_cons_self
    have hparent : ∀ p, t.job.parent = some p → IsIdentifier p := by
      intro p hp
      refine ht p (List.mem_cons_of_mem _ (List.mem_append_left _ ?_))
      rw [hp]
      exact List.mem_singleton_self p
    exact h.confined ((Reading.read_within hP).1 [] _ _ (s.trail t) hid hparent) ht
  | @fetches w _ hphase hcache =>
    refine ⟨fun d hd => ht d ?_, fun c p hc => Or.inl (hcache ▸ hc)⟩
    rw [Task.ids, hphase]
    exact hd
  | fails hphase _ hcache =>
    refine ⟨fun d hd => ht d ?_, fun c p hc => Or.inl (hcache ▸ hc)⟩
    rw [Task.ids, Phase.ids, List.append_nil] at hd
    rw [Task.ids, ← List.cons_append]
    exact List.mem_append_left _ hd
  | @resumes w content text _ _ hphase _ h =>
    have hP : ∀ name id, (s.receive w text).desk.normalize name = .ok id → IsIdentifier id := by
      intro name id hname
      rw [normalize_desk] at hname
      exact isIdentifier_of_normalize hname
    have hw : ∀ d ∈ w.ids, IsIdentifier d := by
      intro d hd
      refine ht d (mem_ids_of_phase ?_)
      rw [hphase]
      exact hd
    have hmoved := h.confined (Reading.resume_within (t := (s.receive w text).trail t) hP hw text) ht
    have htrail : ((s.receive w text).trail t).relations = s.cache.relations := relations_receive s w text
    rw [htrail] at hmoved
    exact hmoved

/-- Relations that are there after an event were there before, or a task has moved. -/
theorem Change.has_cases (h : s.Change e s') {c p : String} (hc : s'.cache.relations.Has c p) :
    s.cache.relations.Has c p ∨ ∃ k t t', s.tasks[k]? = some t ∧ s.Moves k t e t' s' := by
  cases h with
  | idle h _ _ => exact Or.inl (h ▸ hc)
  | begins h _ _ _ => exact Or.inl (h ▸ hc)
  | moves hk _ h => exact Or.inr ⟨_, _, _, hk, h⟩
  | invalidates _ h _ =>
    rw [h, Cache.has_invalidate] at hc
    exact Or.inl hc.1
  | invalidatesAll h _ =>
    rw [h] at hc
    exact Or.inl (Cache.has_of_invalidateAll _ hc).1
  | clears h _ =>
    rw [h] at hc
    exact absurd hc List.not_mem_nil

/-- The tasks after an event are about identifiers. -/
theorem Confined.tasks_step (h : s.Confined) (he : e.ByName) :
    ∀ t ∈ (s.step e).tasks, ∀ d ∈ t.ids, IsIdentifier d := by
  have hshift := shift_step s e
  generalize s.step e = s' at hshift
  intro t ht
  cases hshift with
  | made hname _ _ =>
    rcases List.mem_append.1 ht with ht | ht
    · exact h.tasks t ht
    · intro d hd
      rw [List.mem_singleton.1 ht, ids_compile, List.mem_singleton] at hd
      rw [hd]
      exact isIdentifier_of_normalize hname
  | asked => exact he.elim
  | @moved k t₀ t' _ _ hk htasks hmoves _ =>
    rw [htasks] at ht
    rcases List.mem_or_eq_of_mem_set ht with ht | rfl
    · exact h.tasks t ht
    · exact (hmoves.confined (h.tasks t₀ (List.mem_of_getElem? hk))).1
  | settled => exact h.tasks t ht
  | kept htasks _ _ =>
    rw [htasks] at ht
    exact h.tasks t ht

theorem Confined.inflight_step (h : s.Confined) (e : Event) :
    ∀ p ∈ (s.step e).inflight, IsIdentifier p.1 := by
  have hshift := shift_step s e
  generalize s.step e = s' at hshift
  intro p hp
  cases hshift with
  | made hname _ _ =>
    rcases List.mem_cons.1 hp with rfl | hp
    · exact isIdentifier_of_normalize hname
    · exact h.inflight p hp
  | asked => exact h.inflight p hp
  | moved _ _ _ hinflight => exact h.inflight p (hinflight ▸ hp)
  | settled => exact h.inflight p (List.mem_of_mem_filter hp)
  | kept _ hinflight _ => exact h.inflight p (hinflight ▸ hp)

/-- An event that asks by names keeps a session confined. -/
theorem Confined.step (h : s.Confined) (he : e.ByName) : (s.step e).Confined := by
  have htasks := h.tasks_step he
  have hchange := change_step s e
  refine ⟨fun d hd => ?_, fun d text hd => ?_, fun d a hd => ?_, h.inflight_step e, fun c p hc => ?_, htasks⟩
  · rcases mem_asked_step hd with hd | ⟨t, ht, hd⟩
    · exact h.asked d hd
    · exact htasks t ht d (mem_ids_of_phase (asks_subset_ids hd))
  · rcases hchange.sources_cases hd with ⟨hd, -⟩ | ⟨k, t, w, content, -, hk, hphase, -, rfl, -⟩
    · exact h.sources d text hd
    -- a text that comes is the one that its task has waited for
    · refine h.tasks t (List.mem_of_getElem? hk) w.id (mem_ids_of_phase ?_)
      rw [hphase]
      exact List.mem_cons_self
  · rcases hchange.compiled_cases hd with ⟨hd, -⟩ | ⟨k, t, t', hk, -, hmoves, hjob, -, -⟩
    · exact h.compiled d a hd
    · have hid : t.job.id = d := by
        rw [← hmoves.job, hjob]
        rfl
      rw [← hid]
      exact h.tasks t (List.mem_of_getElem? hk) _ List.mem_cons_self
  · rcases hchange.has_cases hc with hc | ⟨k, t, t', hk, hmoves⟩
    · exact h.edges c p hc
    · rcases (hmoves.confined (h.tasks t (List.mem_of_getElem? hk))).2 c p hc with hc | hc
      · exact h.edges c p hc
      · exact hc

/-- The sessions that a compiler comes to, whatever is done with it, as long as templates are asked for by
names. -/
inductive Served : Session → Prop
  | new (settings : Config.Settings) (shrinkers : Shrinkers) (tree : Files.Tree) :
      Served { settings, shrinkers, tree }
  | step {s : Session} {e : Event} : e.ByName → Served s → Served (s.step e)
  | note {s : Session} (notes : List Note) : Served s → Served (s.note notes)
  | perform {s : Session} (a : Action) : Served s → Served (s.perform a)
  | launch {s : Session} : Served s → Served s.launch.2
  | close {s : Session} : Served s → Served s.close

theorem Served.confined (h : s.Served) : s.Confined := by
  have hnote : ∀ s notes, Confined s → (s.note notes).Confined := fun s notes h => { h with }
  have hstep : ∀ (s : Session) (e : Event), e.ByName → Confined s → (s.step e).Confined :=
    fun s e he h => h.step he
  induction h with
  | new settings shrinkers tree =>
    constructor
    all_goals
      intros
      contradiction
  | step he _ ih => exact ih.step he
  | note notes _ ih => exact hnote _ notes ih
  | perform a _ ih => exact perform_keeps hstep hnote a ih
  | launch _ ih => exact launch_keeps hstep hnote (fun s h => { h with }) ih
  | close _ ih => exact { ih with }

/-- A session knows of a template: its file was asked for, it is a key of a store or of the tasks that calls
can join, or it is an end of a relation. -/
def Mentions (s : Session) (d : String) : Prop :=
  d ∈ s.asked ∨ d ∈ s.cache.sources.ids ∨ d ∈ s.cache.compiled.ids ∨ d ∈ s.inflight.map (·.1) ∨
    ∃ edge ∈ s.cache.relations.edges, d = edge.child ∨ d = edge.parent

theorem Confined.isIdentifier (h : s.Confined) {d : String} (hd : s.Mentions d) : IsIdentifier d := by
  rcases hd with hd | hd | hd | hd | ⟨edge, hedge, rfl | rfl⟩
  · exact h.asked d hd
  · obtain ⟨text, htext⟩ := Store.mem_ids_iff.1 hd
    exact h.sources d text htext
  · obtain ⟨a, ha⟩ := Store.mem_ids_iff.1 hd
    exact h.compiled d a ha
  · obtain ⟨p, hp, rfl⟩ := List.mem_map.1 hd
    exact h.inflight p hp
  · exact (h.edges edge.child edge.parent hedge).1
  · exact (h.edges edge.child edge.parent hedge).2

end Session

/-- Whatever the files hold and whatever is asked for by names: each template that a session knows of is known
by a name that is brought to itself, a plain text that is not blank, and its file lies below the root as its
path is written. No template is known by two names that come to one place. -/
theorem identifiers_confined {s : Session} (h : s.Served) {d : String} (hd : s.Mentions d) :
    s.normalize d = .ok d ∧ d ≠ "" ∧ Files.isAbsolute d = false ∧ Identifier.IsPlain d ∧
      (∃ names, names ≠ [] ∧ ".." ∉ names ∧
        Files.components (s.path d) = Files.components s.root ++ names) ∧
      ∀ d', s.Mentions d' →
        Identifier.place s.root s.root d' = Identifier.place s.root s.root d → d' = d := by
  have hid := h.confined.isIdentifier hd
  refine ⟨hid.normalize _ _ _, hid.ne_empty, hid.isPlain.isAbsolute_eq, hid.isPlain,
    hid.components_under s.root, fun d' hd' hplace => ?_⟩
  exact (h.confined.isIdentifier hd').eq_of_place hid hplace

namespace Linked

/-- The first template is related to the one that it includes over the link. -/
theorem related_b : (session.compile "a.mjs").2.cache.relations.Has "b.mjs" "a.mjs" := by
  obtain ⟨hsettled, hgrows⟩ := settled_session.compile "a.mjs"
  obtain ⟨a, ha⟩ := compiled_a
  obtain ⟨-, flat, henters, -⟩ := hsettled.built _ a ha
  have hname : ∀ child, (session.compile "a.mjs").2.cached.name ['/', 'l'] (.ok child) → child = "b.mjs" := by
    intro child h
    have h' : (session.compile "a.mjs").2.normalize "/l" = .ok child := h
    rw [hgrows.toGrows.normalize] at h'
    exact Except.ok.inj (h'.symm.trans normalize_link)
  rcases henters with ⟨e, -, hr⟩ | ⟨text, ⟨text', htext, hsource⟩, hreads⟩
  · exact nomatch hr
  rw [source_a, Option.some.injEq] at hsource
  rw [Except.ok.injEq] at htext
  rw [htext, ← hsource, segments_a] at hreads
  -- the text ends well, so the include has been filled
  generalize hr : Except.ok flat = r at hreads
  cases hreads with
  | literal h =>
    cases h with
    | unnamed => exact nomatch hr
    | circular => exact nomatch hr
    | missing => exact nomatch hr
    | broken => exact nomatch hr
    | filled hchild _ hedge _ _ _ =>
      obtain rfl := hname _ hchild
      exact hedge.resolve_left (by decide)

/-- A template that is included over a link from outside of the root is known by its place below it. -/
theorem include_confined :
    let s := session.perform (.compile "a.mjs")
    s.Mentions "b.mjs" ∧ s.normalize "b.mjs" = .ok "b.mjs" ∧ "b.mjs" ≠ "" ∧
      Files.isAbsolute "b.mjs" = false ∧ Identifier.IsPlain "b.mjs" ∧
      (∃ names, names ≠ [] ∧ ".." ∉ names ∧
        Files.components (s.path "b.mjs") = Files.components s.root ++ names) ∧
      ∀ d', s.Mentions d' →
        Identifier.place s.root s.root d' = Identifier.place s.root s.root "b.mjs" → d' = "b.mjs" := by
  have hmentions : (session.perform (.compile "a.mjs")).Mentions "b.mjs" :=
    Or.inr (Or.inr (Or.inr (Or.inr ⟨_, related_b, Or.inl rfl⟩)))
  have hserved := Session.Served.perform (.compile "a.mjs") (.new settings {} tree)
  exact ⟨hmentions, identifiers_confined hserved hmentions⟩

end Linked

end Stencil
