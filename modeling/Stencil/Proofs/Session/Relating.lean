import Stencil.Proofs.Reading.Edges
import Stencil.Proofs.Session.Flattening

/-!
# A reading leaves the relations of its tree

The text of a template is at hand if it is cached or else can be loaded (`Session.atHand`). A reading takes it
from either, and it records an include in the same way whether the text of the template in it was there or had
to be waited for. So it does not depend on the cache which relations a reading leaves behind: those that were
there, the one to the template that it was asked for from, and those of the tree of its template (`reads_tree`).

A task on its own adds no relation but of that kind with any of its moves (`Moves.edges`), whatever it comes to
in the end. That none is missing is known when the template has come to a text.
-/

namespace Stencil

open Relation

/-- The relations that a job calls for: the one to the template that its own one is included by, and those in
the tree of its own one. -/
def Job.Relates (job : Job) (W : World) (c p : String) : Prop :=
  (job.parent = some p ∧ p ≠ "" ∧ c = job.id) ∨ W.InTree job.id c p

namespace Session

variable {s s₁ s' : Session} {k : Nat} {e : Event} {t t' : Task} {job : Job} {X : String}

/-! ### What is at hand -/

/-- The text of a template as a reading gets it: from the cache, or else from the file. -/
def textAtHand (s : Session) (d : String) : Except Fault String :=
  match s.cache.sources.get? d with
  | some text => .ok text
  | none => s.load d

/-- What readings get of the templates, and what has been related. -/
def atHand (s : Session) : World where
  name n x := s.normalize (String.ofList n) = x
  text d x := s.textAtHand d = x
  edge c p := p = "" ∨ s.cache.relations.Has c p

theorem textAtHand_of_some {d text : String} (h : s.cache.sources.get? d = some text) :
    s.textAtHand d = .ok text := by
  rw [textAtHand, h]

theorem textAtHand_of_none {d : String} (h : s.cache.sources.get? d = none) :
    s.textAtHand d = s.load d := by
  rw [textAtHand, h]

theorem single_atHand (s : Session) : s.atHand.Single :=
  ⟨fun _ _ _ h h' => h.symm.trans h', fun _ _ _ h h' => h.symm.trans h'⟩

theorem world_le_atHand (s : Session) : s.world ≤ s.atHand := by
  refine ⟨fun _ _ hn => hn, ?_, fun _ _ he => he⟩
  rintro d x (⟨text, rfl, hsource⟩ | ⟨e, rfl, habsent, hload⟩)
  · exact textAtHand_of_some hsource
  · exact (textAtHand_of_none habsent).trans hload

theorem cached_le_atHand (s : Session) : s.cached ≤ s.atHand :=
  ⟨fun _ _ hn => hn, fun d x hx => s.world_le_atHand.text d x (s.cached_le_world.text d x hx),
    fun _ _ he => he⟩

/-- What is at hand stays so while the cache grows: what comes is what would have been loaded. -/
theorem Grows.textAtHand (h : Grows s s') : s'.textAtHand = s.textAtHand := by
  funext d
  cases hold : s.cache.sources.get? d with
  | some text => rw [textAtHand_of_some hold, textAtHand_of_some (h.keeps d text hold)]
  | none =>
    rw [textAtHand_of_none hold]
    cases hnew : s'.cache.sources.get? d with
    | none => rw [textAtHand_of_none hnew, h.load]
    | some text =>
      rw [textAtHand_of_some hnew]
      rcases h.loads d text hnew with hsource | hload
      · rw [hold] at hsource
        exact nomatch hsource
      · exact hload.symm

theorem Grows.inTree_atHand (h : Grows s s') : s'.atHand.InTree = s.atHand.InTree := by
  have hincludes : s'.atHand.Includes = s.atHand.Includes := by
    unfold World.Includes atHand
    dsimp only
    rw [h.textAtHand, h.normalize]
  unfold World.InTree
  rw [hincludes]

/-! ### The moves of a task -/

/-- A move of a task on its own adds relations that its job calls for. -/
theorem Moves.edges (h : s.Moves k t e t' s') (hsteady : Steady s s') (hjob : t.job = job)
    (hstage : s.Stage job t.phase) :
    Reading.Adds (job.Relates s'.cached) (s.trail t) ⟨s'.cache.relations, t'.taken⟩ := by
  have hgrows := h.grows hsteady hstage
  have htree : ∀ c p, s'.cached.InTree job.id c p → job.Relates s'.cached c p := fun _ _ => Or.inr
  cases h with
  | fetches _ hcache =>
    rw [hcache]
    exact .refl (s.trail t)
  | fails _ _ hcache =>
    rw [hcache]
    exact .refl (s.trail t)
  | starts _ h =>
    have hname : ∀ n, s'.cached.name n (s.desk.normalize (String.ofList n)) := by
      intro n
      rw [normalize_desk]
      exact congrFun hgrows.normalize _
    have htext : ∀ id text, s.desk.sources.get? id = some text → s'.cached.text id (.ok text) :=
      fun id text hs => ⟨text, rfl, by rw [h.sources]; exact hs⟩
    have hread := (Reading.read_adds s.desk hname htext htree).1 [] t.job.parent t.job.id (s.trail t)
      (by rw [hjob]) (fun p hp hne => Or.inl ⟨hjob ▸ hp, hne, by rw [hjob]⟩)
    rw [h.relations, h.taken]
    exact hread
  | @resumes w content text _ _ hphase htext' h =>
    rw [hphase] at hstage
    obtain ⟨hstops, rfl⟩ := hstage
    have hname : ∀ n, s'.cached.name n ((s.receive w text).desk.normalize (String.ofList n)) := by
      intro n
      rw [normalize_desk, normalize_receive]
      exact congrFun hgrows.normalize _
    have htext : ∀ id text', (s.receive w text).desk.sources.get? id = some text' →
        s'.cached.text id (.ok text') :=
      fun id text' hs => ⟨text', rfl, by rw [h.sources]; exact hs⟩
    have hsource : s'.cached.text w.id (.ok text) := by
      refine ⟨text, rfl, ?_⟩
      rw [h.sources, hstops.sources_receive, if_pos rfl]
    have hread := Reading.resume_adds (s.receive w text).desk hname htext htree
      (hstops.frames.of_le hgrows.cached_le) hsource ((s.receive w text).trail t)
    have htrail : (s.receive w text).trail t = s.trail t := by
      rw [trail, trail, relations_receive]
    rw [h.relations, h.taken]
    rw [htrail] at hread ⊢
    exact hread

/-- A task that has started has been related to the template that its own one is included by. -/
theorem Moves.parent (h : s.Moves k t e t' s') (hgrows : Grows s s') (hphase : t.phase = .starting)
    {p : String} (hparent : t.job.parent = some p) (hp : p ≠ "") :
    s'.cache.relations.Has t.job.id p := by
  cases h with
  | fetches hphase' _ => exact nomatch hphase.symm.trans hphase'
  | fails hphase' _ _ => exact nomatch hphase.symm.trans hphase'
  | resumes hphase' _ _ => exact nomatch hphase.symm.trans hphase'
  | starts _ h =>
    have hseen := seen_cached s' s.desk ((normalize_desk s).trans hgrows.normalize.symm)
      h.sources h.relations
    have hedge := ((Reading.read_fits s.desk).1 [] _ _ _ _ hseen).2 List.not_mem_nil p hparent
    exact hedge.resolve_left hp

/-- Since the session `s₁` the `k`-th task has related what its job calls for and nothing else. -/
structure Relating (s₁ : Session) (k : Nat) (job : Job) (s : Session) : Prop where
  edges : ∀ c p, s.cache.relations.Has c p →
    s₁.cache.relations.Has c p ∨ job.Relates s.cached c p
  parent : ∀ t p, s.tasks[k]? = some t → t.phase ≠ .starting → job.parent = some p → p ≠ "" →
    s.cache.relations.Has job.id p

theorem Job.Relates.of_grows (hgrows : Grows s s') {c p : String} (h : job.Relates s.cached c p) :
    job.Relates s'.cached c p :=
  h.imp_right fun htree => htree.of_le hgrows.cached_le.name hgrows.cached_le.text

theorem Relating.step (hunderway : Underway s₁ k job s) (he : s.nextEvent k = some e)
    (h : Relating s₁ k job s) : Relating s₁ k job (s.step e) := by
  obtain ⟨t, t', hk, -, hjob, hstage, hmoves, hsteady⟩ := hunderway.moves he
  have hgrows := hmoves.grows hsteady hstage
  refine ⟨fun c p hc => ?_, fun u p hu _ hparent hp => ?_⟩
  · rcases hmoves.edges hsteady hjob hstage c p hc with hc | hc
    · exact (h.edges c p hc).imp_right (Job.Relates.of_grows hgrows)
    · exact Or.inr hc
  · by_cases hstart : t.phase = .starting
    · have hhas := hmoves.parent hgrows hstart (by rw [hjob, hparent]) hp
      rwa [hjob] at hhas
    · exact hgrows.has _ _ (h.parent t p hk hstart hparent hp)

/-- A task that has just been made relates what its job calls for when it is carried through. -/
theorem relating_new (hk : s.tasks[k]? = some { job }) :
    Relating s k job (runTask (fun _ => false) k s.patience s) := by
  refine (underway_new hk).carried (fun _ _ hunderway he => Relating.step hunderway he) _ ?_
  refine ⟨fun c p hc => Or.inl hc, fun t p ht hstart => ?_⟩
  obtain rfl : { job } = t := Option.some.inj (hk.symm.trans ht)
  exact absurd rfl hstart

/-- Afterwards there are the relations from before and those that the reading calls for, also if it fails. -/
theorem readFlat_relates (s : Session) (X : String) (parent : Option String) :
    Grows s (s.readFlat X parent).2 ∧
      (∀ c p, (s.readFlat X parent).2.cache.relations.Has c p →
        s.cache.relations.Has c p ∨ (Job.read X parent).Relates (s.readFlat X parent).2.cached c p) ∧
      ∀ p, parent = some p → p ≠ "" → (s.readFlat X parent).2.cache.relations.Has X p := by
  have hk := s.task_callRead X parent
  obtain ⟨-, hfinished⟩ := runTask_new hk
  have hrelating := relating_new hk
  obtain ⟨t, result, hk', hphase⟩ := finished_of_isFinished hfinished
  have hcomplete : (s.callRead X parent).2.complete s.tasks.length = _ := settle_of_isFinished hfinished
  refine ⟨(s.readFlat_spec X parent).1, ?_⟩
  rw [readFlat_eq, hcomplete]
  refine ⟨hrelating.edges, fun p hparent hp => hrelating.parent t p hk' ?_ hparent hp⟩
  rw [hphase]
  exact nofun

/-- A compile in a session at rest adds no relation but of includes in what is cached afterwards. -/
theorem compile_relates (hrest : s.AtRest) (name : String) {c p : String}
    (hc : (s.compile name).2.cache.relations.Has c p) :
    s.cache.relations.Has c p ∨ (s.compile name).2.cached.Includes p c := by
  rcases s.compile_cases name with ⟨f, -, hcompile⟩ | ⟨X, hname, ⟨a, -, hcompile⟩ | hnone⟩
  · rw [hcompile] at hc
    exact Or.inl hc
  · rw [hcompile] at hc
    exact Or.inl hc
  have hk := s.task_withCompile X
  obtain ⟨-, hfinished⟩ := runTask_new hk
  have hcomplete : (s.withCompile X).complete s.tasks.length = _ := settle_of_isFinished hfinished
  rw [compile_of_none hrest hname hnone, hcomplete] at hc ⊢
  rcases (relating_new hk).edges c p hc with hold | ⟨hparent, -⟩ | hc
  · exact Or.inl hold
  -- nothing includes a template that is compiled
  · exact nomatch hparent
  · exact Or.inr hc.2

end Session

/-- A reading that comes to a text leaves these relations, whatever the cache holds: those that were there, the
one to the template that includes what is read, if one was given that has a name, and one for each include in
the tree of what is read. -/
theorem reads_tree {s : Session} {X : String} {parent : Option String} {read : String × Snapshot}
    (h : (s.readFlat X parent).1 = .ok read) (c p : String) :
    (s.readFlat X parent).2.cache.relations.Has c p ↔
      s.cache.relations.Has c p ∨ (parent = some p ∧ p ≠ "" ∧ c = X) ∨
        (ReflTransGen s.atHand.Includes X p ∧ s.atHand.Includes p c) := by
  obtain ⟨hgrows, hedges, hparent⟩ := s.readFlat_relates X parent
  obtain ⟨-, r, hgives, hresult⟩ := s.readFlat_spec X parent
  rw [h] at hresult
  subst hresult
  have htree := hgrows.inTree_atHand
  generalize (s.readFlat X parent).2 = s' at hgrows hedges hparent hgives htree
  have hread : Gives s'.atHand [] X (.ok read.1) := Gives.of_le s'.world_le_atHand hgives
  show _ ↔ _ ∨ _ ∨ s.atHand.InTree X c p
  rw [← htree]
  constructor
  · intro hc
    refine (hedges c p hc).imp_right (Or.imp_right fun hc => ?_)
    exact hc.of_le s'.cached_le_atHand.name s'.cached_le_atHand.text
  · rintro (hc | ⟨hp, hne, rfl⟩ | hc)
    · exact hgrows.has c p hc
    · exact hparent p hp hne
    -- a template that includes something has a name, so it has been recorded
    · exact (hread.related s'.single_atHand hc).resolve_left hc.2.ne_empty

namespace Linked

/-- The other half of a template over a link is cached, and the template is read for a third one. -/
theorem reads_tree_half :
    ∃ read, (half.readFlat "a.mjs" (some "index.mjs")).1 = .ok read ∧
      ∀ c p, (half.readFlat "a.mjs" (some "index.mjs")).2.cache.relations.Has c p ↔
        half.cache.relations.Has c p ∨
          (some "index.mjs" = some p ∧ p ≠ "" ∧ c = "a.mjs") ∨
          (ReflTransGen half.atHand.Includes "a.mjs" p ∧ half.atHand.Includes p c) := by
  obtain ⟨hgrows, r, hgives, hresult⟩ := half.readFlat_spec "a.mjs" (some "index.mjs")
  obtain rfl := Session.onDisk_det (Session.gives_onDisk hgrows (fun _ _ => load_half) hgives) gives_a
  cases h : (half.readFlat "a.mjs" (some "index.mjs")).1 with
  | error f =>
    rw [h] at hresult
    exact nomatch hresult
  | ok read => exact ⟨read, rfl, reads_tree h⟩

end Linked

end Stencil
