import Stencil.Proofs.Reading.Steps
import Stencil.Proofs.Session.Step

/-!
# What an event leaves

The cases of an event, read off for each part of a session: the versions of the templates, their texts,
the relations between them, the compiled templates, and the tasks. An event that does not invalidate a
template leaves its version, its text and its relations to others alone. So in between two
invalidations of a template all that is known of it can only grow.
-/

namespace Stencil

open Relation

namespace Session

variable {s s' : Session} {e : Event} {k : Nat} {t t' : Task}

theorem normalize_desk (s : Session) : s.desk.normalize = s.normalize := by
  rw [desk]

theorem version_receive (s : Session) (w : Reading.Wait) (text : String) :
    (s.receive w text).cache.version = s.cache.version := by
  unfold receive keepText
  split <;> rfl

theorem relations_receive (s : Session) (w : Reading.Wait) (text : String) :
    (s.receive w text).cache.relations = s.cache.relations := by
  unfold receive keepText
  split <;> rfl

theorem compiled_receive (s : Session) (w : Reading.Wait) (text : String) :
    (s.receive w text).cache.compiled = s.cache.compiled := by
  unfold receive keepText
  split <;> rfl

theorem build_receive (s : Session) (w : Reading.Wait) (text : String) :
    (s.receive w text).build = s.build := by
  unfold receive keepText
  split <;> rfl

theorem normalize_receive (s : Session) (w : Reading.Wait) (text : String) :
    (s.receive w text).normalize = s.normalize := by
  unfold receive keepText
  split <;> rfl

theorem cache_receive (s : Session) (w : Reading.Wait) (text : String) :
    (s.receive w text).cache =
      if s.cache.version w.id = w.version then s.cache.putSource w.id text else s.cache := by
  unfold receive keepText note
  dsimp only
  by_cases hv : s.cache.version w.id = w.version
  · rw [if_pos hv, if_pos hv]
    rfl
  · rw [if_neg hv, if_neg hv]

/-- A text that has come is kept if its template has still the version that was taken for it. -/
theorem sources_receive (s : Session) (w : Reading.Wait) (text d : String) :
    (s.receive w text).cache.sources.get? d =
      if d = w.id ∧ s.cache.version w.id = w.version then some text else s.cache.sources.get? d := by
  rw [cache_receive]
  by_cases hv : s.cache.version w.id = w.version
  · rw [if_pos hv, Cache.putSource, Store.get?_put]
    by_cases hd : d = w.id <;> simp [hd, hv]
  · rw [if_neg hv, if_neg fun h => hv h.2]

/-! ### Versions -/

theorem Moves.version (h : s.Moves k t e t' s') : s'.cache.version = s.cache.version := by
  cases h with
  | starts _ h => exact h.version
  | fetches _ h => rw [h]
  | fails _ _ h => rw [h]
  | resumes _ _ h => rw [h.version, version_receive]

theorem Moves.not_invalidates (h : s.Moves k t e t' s') (d : String) : ¬ s.Invalidates e d := by
  cases h <;> exact id

/-- A template that is not invalidated keeps its version. -/
theorem Change.version_eq (h : s.Change e s') {d : String} (hd : ¬ s.Invalidates e d) :
    s'.cache.version d = s.cache.version d := by
  cases h with
  | idle h _ _ => rw [h]
  | begins h _ _ _ => rw [h]
  | moves _ _ h => rw [h.version]
  | @invalidates name d' _ hname h _ =>
    have hne : d ≠ d' := fun he => hd (he ▸ hname)
    rw [h, Cache.version_invalidate_of_ne _ hne]
  | invalidatesAll => exact absurd trivial hd
  | clears => exact absurd trivial hd

/-- A template that is invalidated gets a greater version. -/
theorem Change.version_lt (h : s.Change e s') {d : String} (hd : s.Invalidates e d) :
    s.cache.version d < s'.cache.version d := by
  cases h with
  | idle _ _ h => exact absurd hd (h d)
  | begins _ _ _ h => exact absurd hd (h d)
  | moves _ _ h => exact absurd hd (h.not_invalidates d)
  | @invalidates name d' _ hname h _ =>
    have hd' : s.normalize name = .ok d := hd
    rw [hname, Except.ok.injEq] at hd'
    rw [h, ← hd']
    exact Cache.version_lt_invalidate _ _
  | invalidatesAll h _ =>
    rw [h]
    exact Cache.version_lt_invalidateAll _ _
  | clears h _ =>
    rw [h]
    exact Cache.version_lt_clear _ _

theorem Change.version_le (h : s.Change e s') (d : String) :
    s.cache.version d ≤ s'.cache.version d := by
  by_cases hd : s.Invalidates e d
  · exact (h.version_lt hd).le
  · exact (h.version_eq hd).ge

/-! ### Relations -/

theorem Moves.has (h : s.Moves k t e t' s') {c p : String} (hc : s.cache.relations.Has c p) :
    s'.cache.relations.Has c p := by
  cases h with
  | starts _ h =>
    rw [h.relations]
    exact ((Reading.leaves s.desk).1 _ _ _ _).follows.has c p hc
  | fetches _ h => rwa [h]
  | fails _ _ h => rwa [h]
  | resumes _ _ h =>
    rw [h.relations]
    refine (Reading.leaves_resume _ _ _ _).follows.has c p ?_
    show (Session.receive _ _ _).cache.relations.Has c p
    rwa [relations_receive]

/-- A template that is not invalidated keeps its relations to those that include it. -/
theorem Change.has (h : s.Change e s') {c p : String} (hc : s.cache.relations.Has c p)
    (hd : ¬ s.Invalidates e c) : s'.cache.relations.Has c p := by
  cases h with
  | idle h _ _ => rwa [h]
  | begins h _ _ _ => rwa [h]
  | moves _ _ h => exact h.has hc
  | @invalidates name d' _ hname h _ =>
    have hne : c ≠ d' := fun he => hd (he ▸ hname)
    rw [h, Cache.has_invalidate]
    exact ⟨hc, hne⟩
  | invalidatesAll => exact absurd trivial hd
  | clears => exact absurd trivial hd

/-! ### Texts -/

/-- A text that is there after an event was there before, and its template is not invalidated, or it
has just come. -/
theorem Change.sources_cases (h : s.Change e s') {d text : String}
    (hd : s'.cache.sources.get? d = some text) :
    (s.cache.sources.get? d = some text ∧ ¬ s.Invalidates e d) ∨
      ∃ k t w content, e = .resume k ∧ s.tasks[k]? = some t ∧ t.phase = .fetched w content ∧
        s.textOf w.id content = .ok text ∧ w.id = d ∧ s.cache.version d = w.version := by
  cases h with
  | idle h _ hno => exact Or.inl ⟨h ▸ hd, hno d⟩
  | begins h _ _ hno => exact Or.inl ⟨h ▸ hd, hno d⟩
  | @moves k t t' _ _ hk _ h =>
    have hno := h.not_invalidates d
    cases h with
    | starts _ h => exact Or.inl ⟨h.sources ▸ hd, hno⟩
    | fetches _ h => exact Or.inl ⟨h ▸ hd, hno⟩
    | fails _ _ h => exact Or.inl ⟨h ▸ hd, hno⟩
    | @resumes w content text' _ _ hphase htext h =>
      rw [h.sources, sources_receive] at hd
      split at hd
      · next hw =>
        rw [Option.some.injEq] at hd
        subst hd
        exact Or.inr ⟨k, t, w, content, rfl, hk, hphase, htext, hw.1.symm, hw.1 ▸ hw.2⟩
      · exact Or.inl ⟨hd, hno⟩
  | @invalidates name d' _ hname h _ =>
    rw [h, Cache.sources_invalidate] at hd
    split at hd
    · exact absurd hd (by simp)
    · next hne =>
      refine Or.inl ⟨hd, fun hi => hne ?_⟩
      have hi' : s.normalize name = .ok d := hi
      rw [hname, Except.ok.injEq] at hi'
      exact hi'.symm
  | invalidatesAll h _ =>
    rw [h, Cache.sources_invalidateAll] at hd
    exact absurd hd (by simp)
  | clears h _ =>
    rw [h] at hd
    exact absurd hd (by simp [Cache.clear])

/-- A template that is not invalidated keeps a text if it has one. -/
theorem Change.sources_isSome (h : s.Change e s') {d : String}
    (hd : (s.cache.sources.get? d).isSome) (hno : ¬ s.Invalidates e d) :
    (s'.cache.sources.get? d).isSome := by
  cases h with
  | idle h _ _ => rwa [h]
  | begins h _ _ _ => rwa [h]
  | moves _ _ h =>
    cases h with
    | starts _ h => rwa [h.sources]
    | fetches _ h => rwa [h]
    | fails _ _ h => rwa [h]
    | resumes _ _ h =>
      rw [h.sources, sources_receive]
      split
      · rfl
      · exact hd
  | @invalidates name d' _ hname h _ =>
    have hne : d ≠ d' := fun he => hno (he ▸ hname)
    rw [h, Cache.sources_invalidate, if_neg hne]
    exact hd
  | invalidatesAll => exact absurd trivial hno
  | clears => exact absurd trivial hno

/-! ### Compiled templates -/

/-- A task stores what it has compiled. -/
def Stores (s : Session) (e : Event) (s' : Session) (X : String) (a : Artifact) : Prop :=
  ∃ k t t', s.tasks[k]? = some t ∧ s'.tasks = s.tasks.set k t' ∧ s.Moves k t e t' s' ∧
    t'.job = .compile X ∧ t'.phase = .finished (.ok (.compiled a)) ∧ s'.cache.isCurrent t'.taken = true

theorem Arrives.compiled_cases {taken : Snapshot} {job : Job} {outcome : Reading.Outcome}
    {phase : Phase} {compiled : Store Artifact} (h : s.Arrives taken job outcome phase compiled)
    {X : String} {a : Artifact} (hX : compiled.get? X = some a) :
    s.cache.compiled.get? X = some a ∨ job = .compile X ∧ phase = .finished (.ok (.compiled a)) ∧
      s.cache.isCurrent taken = true := by
  cases h with
  | waits => exact Or.inl hX
  | failed => exact Or.inl hX
  | read => exact Or.inl hX
  | rejected => exact Or.inl hX
  | passed => exact Or.inl hX
  | @stored id text b _ hcurrent =>
    rw [Store.get?_put] at hX
    split at hX
    · next he =>
      rw [Option.some.injEq] at hX
      subst he hX
      exact Or.inr ⟨rfl, rfl, hcurrent⟩
    · exact Or.inl hX

theorem Cache.isCurrent_congr {σ α : Type} {c c' : Cache σ α} (h : c'.version = c.version)
    (taken : Snapshot) : c'.isCurrent taken = c.isCurrent taken := by
  unfold Cache.isCurrent
  rw [h]

/-- A compiled template that is there after an event was there before, and nothing leads to it from a
template that is invalidated, or it has just been stored. -/
theorem Change.compiled_cases (h : s.Change e s') {X : String} {a : Artifact}
    (hX : s'.cache.compiled.get? X = some a) :
    (s.cache.compiled.get? X = some a ∧ ((s.cache.sources.get? X).isSome → ∀ d, s.Invalidates e d →
      X ≠ d ∧ ¬ TransGen s.cache.relations.Has d X)) ∨ s.Stores e s' X a := by
  cases h with
  | idle h _ hno => exact Or.inl ⟨h ▸ hX, fun _ d hd => absurd hd (hno d)⟩
  | begins h _ _ hno => exact Or.inl ⟨h ▸ hX, fun _ d hd => absurd hd (hno d)⟩
  | @moves k t t' _ _ hk htasks h =>
    have hno := h.not_invalidates
    have hmoves := h
    cases h with
    | fetches _ h => exact Or.inl ⟨h ▸ hX, fun _ d hd => absurd hd (hno d)⟩
    | fails _ _ h => exact Or.inl ⟨h ▸ hX, fun _ d hd => absurd hd (hno d)⟩
    | starts _ h =>
      rcases h.arrives.compiled_cases hX with hX | ⟨hjob, hphase, hcurrent⟩
      · exact Or.inl ⟨hX, fun _ d hd => absurd hd (hno d)⟩
      · rw [← Cache.isCurrent_congr hmoves.version] at hcurrent
        exact Or.inr ⟨k, t, t', hk, htasks, hmoves, hjob, hphase, hcurrent⟩
    | resumes _ _ h =>
      rcases h.arrives.compiled_cases hX with hX | ⟨hjob, hphase, hcurrent⟩
      · rw [compiled_receive] at hX
        exact Or.inl ⟨hX, fun _ d hd => absurd hd (hno d)⟩
      · rw [← Cache.isCurrent_congr h.version] at hcurrent
        exact Or.inr ⟨k, t, t', hk, htasks, hmoves, hjob, hphase, hcurrent⟩
  | @invalidates name d _ hname h _ =>
    rw [h] at hX
    obtain ⟨hX, hne, hpath⟩ := Cache.compiled_of_invalidate _ hX
    refine Or.inl ⟨hX, fun _ d' hd' => ?_⟩
    have hd : s.normalize name = .ok d' := hd'
    rw [hname, Except.ok.injEq] at hd
    exact hd ▸ ⟨hne, hpath⟩
  | invalidatesAll h _ =>
    rw [h] at hX
    obtain ⟨hX, hnone⟩ := Cache.compiled_of_invalidateAll _ hX
    refine Or.inl ⟨hX, fun hs => ?_⟩
    rw [hnone] at hs
    exact absurd hs (by simp)
  | clears h _ =>
    rw [h] at hX
    exact absurd hX (by simp [Cache.clear])

/-! ### Tasks -/

/-- A task is an old one or the one that is made. -/
theorem task_of_append {job : Job} (hk : (s.tasks ++ [({ job } : Task)])[k]? = some t) :
    s.tasks[k]? = some t ∨ k = s.tasks.length ∧ t = { job } := by
  rw [List.getElem?_append] at hk
  split at hk
  · exact Or.inl hk
  · rw [List.getElem?_singleton] at hk
    split at hk
    · next hle hzero =>
      rw [Option.some.injEq] at hk
      exact Or.inr ⟨by omega, hk.symm⟩
    · exact nomatch hk

/-- When one task is replaced, a task is another one or the one in its place. -/
theorem task_of_set {j : Nat} (hk : (s.tasks.set j t')[k]? = some t) :
    (k ≠ j ∧ s.tasks[k]? = some t) ∨ k = j ∧ t = t' := by
  rw [List.getElem?_set] at hk
  split at hk
  · next hjk =>
    split at hk
    · exact Or.inr ⟨hjk.symm, (Option.some.inj hk).symm⟩
    · exact nomatch hk
  · next hne => exact Or.inl ⟨fun hkj => hne hkj.symm, hk⟩

/-- A task that is there after an event was there before, or it has been made, or it has moved. -/
theorem Change.task_cases (h : s.Change e s') (hk : s'.tasks[k]? = some t') :
    s.tasks[k]? = some t' ∨
      (∃ job, t' = { job } ∧ ∀ id, job = .compile id → ∃ name, s.normalize name = .ok id) ∨
      ∃ t, s.tasks[k]? = some t ∧ s.Moves k t e t' s' := by
  cases h with
  | idle _ h _ => exact Or.inl (h ▸ hk)
  | @begins _ _ job _ h hjob _ =>
    rcases task_of_append (h ▸ hk) with hk | ⟨-, rfl⟩
    · exact Or.inl hk
    · exact Or.inr (Or.inl ⟨job, rfl, hjob⟩)
  | @moves k₀ t₀ t₁ _ _ hk₀ htasks h =>
    rcases task_of_set (htasks ▸ hk) with ⟨-, hk⟩ | ⟨rfl, rfl⟩
    · exact Or.inl hk
    · exact Or.inr (Or.inr ⟨t₀, hk₀, h⟩)
  | invalidates _ _ h => exact Or.inl (h ▸ hk)
  | invalidatesAll _ h => exact Or.inl (h ▸ hk)
  | clears _ h => exact Or.inl (h ▸ hk)

/-- A task that moves has not ended. -/
theorem Moves.running (h : s.Moves k t e t' s') (result : Except Fault Product) :
    t.phase ≠ .finished result := by
  intro hphase
  cases h with
  | starts h _ => rw [hphase] at h; exact nomatch h
  | fetches h _ => rw [hphase] at h; exact nomatch h
  | fails h _ _ => rw [hphase] at h; exact nomatch h
  | resumes h _ _ => rw [hphase] at h; exact nomatch h

/-- A task that has ended stays as it is. -/
theorem Change.finished (h : s.Change e s') {result : Except Fault Product} (hk : s.tasks[k]? = some t)
    (hphase : t.phase = .finished result) : s'.tasks[k]? = some t := by
  cases h with
  | idle _ h _ => exact h ▸ hk
  | @begins _ _ job _ h _ _ =>
    rw [h, List.getElem?_append_left (List.getElem?_eq_some_iff.1 hk).1]
    exact hk
  | @moves k₀ t₀ t₁ _ _ hk₀ htasks h =>
    have hne : k₀ ≠ k := by
      rintro rfl
      rw [hk, Option.some.injEq] at hk₀
      subst hk₀
      exact h.running result hphase
    rw [htasks, List.getElem?_set_ne hne]
    exact hk
  | invalidates _ _ h => exact h ▸ hk
  | invalidatesAll _ h => exact h ▸ hk
  | clears _ h => exact h ▸ hk

/-- A task keeps its job. -/
theorem Moves.job (h : s.Moves k t e t' s') : t'.job = t.job := by
  cases h with
  | starts _ h => exact h.job
  | fetches => rfl
  | fails => rfl
  | resumes _ _ h => exact h.job

/-- A task stays in its place and keeps its job. -/
theorem Change.job (h : s.Change e s') (hk : s.tasks[k]? = some t) :
    ∃ t', s'.tasks[k]? = some t' ∧ t'.job = t.job := by
  have hlt : k < s.tasks.length := (List.getElem?_eq_some_iff.1 hk).1
  cases h with
  | idle _ h _ => exact ⟨t, h ▸ hk, rfl⟩
  | begins _ h _ _ =>
    refine ⟨t, ?_, rfl⟩
    rw [h, List.getElem?_append_left hlt]
    exact hk
  | @moves k₀ t₀ t₁ _ _ hk₀ htasks hmoves =>
    by_cases hkk : k₀ = k
    · subst hkk
      obtain rfl := Option.some.inj (hk.symm.trans hk₀)
      refine ⟨t₁, ?_, hmoves.job⟩
      rw [htasks, List.getElem?_set_self hlt]
    · refine ⟨t, ?_, rfl⟩
      rw [htasks, List.getElem?_set_ne hkk]
      exact hk
  | invalidates _ _ h => exact ⟨t, h ▸ hk, rfl⟩
  | invalidatesAll _ h => exact ⟨t, h ▸ hk, rfl⟩
  | clears _ h => exact ⟨t, h ▸ hk, rfl⟩

/-- A task keeps the versions that it has taken. -/
theorem Moves.keeps (h : s.Moves k t e t' s') {d : String} {v : Version}
    (hd : t.taken.lookup d = some v) : t'.taken.lookup d = some v := by
  cases h with
  | starts _ h =>
    rw [h.taken]
    exact ((Reading.leaves s.desk).1 _ _ _ _).follows.keeps d v hd
  | fetches => exact hd
  | fails => exact hd
  | resumes _ _ h =>
    rw [h.taken]
    exact (Reading.leaves_resume _ _ _ _).follows.keeps d v hd

/-- The versions that a task takes are those of the moment. -/
theorem Moves.takes (h : s.Moves k t e t' s') {d : String} {v : Version}
    (hd : t'.taken.lookup d = some v) : t.taken.lookup d = some v ∨ v = s.cache.version d := by
  cases h with
  | starts _ h =>
    rw [h.taken] at hd
    exact ((Reading.leaves s.desk).1 _ _ _ _).follows.takes d v hd
  | fetches => exact Or.inl hd
  | fails => exact Or.inl hd
  | @resumes w _ text _ _ _ _ h =>
    rw [h.taken] at hd
    rw [← version_receive s w text]
    exact (Reading.leaves_resume _ _ _ _).follows.takes d v hd

/-- The versions that are added to those of a task are those of the moment. -/
theorem Moves.adds (h : s.Moves k t e t' s') {p : String × Version} (hp : p ∈ t'.taken) :
    p ∈ t.taken ∨ p.2 = s.cache.version p.1 := by
  cases h with
  | starts _ h =>
    rw [h.taken] at hp
    exact ((Reading.leaves s.desk).1 _ _ _ _).follows.adds p hp
  | fetches => exact Or.inl hp
  | fails => exact Or.inl hp
  | @resumes w _ text _ _ _ _ h =>
    rw [h.taken] at hp
    rw [← version_receive s w text]
    exact (Reading.leaves_resume _ _ _ _).follows.adds p hp

/-- What a task has been given is what its file held. -/
theorem Moves.fetched (h : s.Moves k t e t' s') {w : Reading.Wait}
    {content : Except Files.Fault (List UInt8)} (hphase : t'.phase = .fetched w content) :
    t.phase = .fetching w ∧ content = s.tree.read (s.path w.id) := by
  have harrives : ∀ {s₀ : Session} {taken : Snapshot} {job : Job} {outcome : Reading.Outcome}
      {phase : Phase} {compiled : Store Artifact}, s₀.Arrives taken job outcome phase compiled →
      phase ≠ .fetched w content := by
    rintro _ _ _ _ _ _ ⟨⟩ <;> exact fun h => nomatch h
  cases h with
  | starts _ h => exact absurd hphase (harrives h.arrives)
  | fails => exact nomatch hphase
  | resumes _ _ h => exact absurd hphase (harrives h.arrives)
  | fetches hw _ =>
    cases hphase
    exact ⟨hw, rfl⟩

/-- A task that begins to wait for a file has met its template, of which there is no text, and waits for
the version of the moment. -/
theorem Moves.waits (h : s.Moves k t e t' s') {w : Reading.Wait} (hphase : t'.phase = .fetching w) :
    w.version = s.cache.version w.id ∧ (t'.taken.lookup w.id).isSome ∧
      s'.cache.sources.get? w.id = none := by
  have harrives : ∀ {s₀ : Session} {taken : Snapshot} {job : Job} {outcome : Reading.Outcome}
      {phase : Phase} {compiled : Store Artifact}, s₀.Arrives taken job outcome phase compiled →
      phase = .fetching w → outcome = .waits w := by
    rintro _ _ _ _ _ _ ⟨⟩ ⟨⟩
    rfl
  cases h with
  | fetches => exact nomatch hphase
  | fails => exact nomatch hphase
  | starts _ h =>
    obtain ⟨habsent, hversion, hmet⟩ :=
      ((Reading.leaves s.desk).1 _ _ _ _).waits w (harrives h.arrives hphase)
    rw [h.taken, h.sources]
    exact ⟨hversion, hmet, habsent⟩
  | @resumes w₀ _ text _ _ _ _ h =>
    obtain ⟨habsent, hversion, hmet⟩ :=
      (Reading.leaves_resume _ _ _ _).waits w (harrives h.arrives hphase)
    rw [h.taken, h.sources, ← version_receive s w₀ text]
    exact ⟨hversion, hmet, habsent⟩

end Session

end Stencil
