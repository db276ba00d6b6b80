import Stencil.Proofs.Session.Asking
import Stencil.Proofs.Session.Patience
import Stencil.Proofs.Session.Sharing

/-!
# What comes of a call

A task on its own asks for the files of some templates, and an account of them is kept while it goes on
(`Account`): none of them had a text before, a text that has come is the text of one of them, and each of them
has its text by now, or it is the one that the task waits for, or the task has ended because its file cannot
be had. A task that ends with a fault has that fault from a file that it asked for, or from the texts: from a
name or a circle in them, or since what they come to is not compiled (`InTexts`).

Each move of the task keeps the account (`Account.step`), and so a call for a template in a session at rest
can be answered for as a whole (`compile_answered`).
-/

namespace Stencil

/-- The templates that a task waits for in a phase, also when it has just been given the file. -/
def Phase.awaits : Phase → List String
  | .fetching w | .fetched w _ => [w.id]
  | .starting | .finished _ => []

namespace Session

variable {s s₀ s₁ s' : Session} {e : Event} {k : Nat} {t t' : Task} {job : Job} {X : String}

/-- A fault that lies in the texts of templates, not in their files. -/
def InTexts (s : Session) (f : Fault) : Prop :=
  (∃ g, f = .ofReading g) ∨ ∃ id source, s.build id source = .error f

theorem Arrives.awaits {taken : Snapshot} {job : Job} {outcome : Reading.Outcome} {phase : Phase}
    {compiled : Store Artifact} (h : s.Arrives taken job outcome phase compiled) :
    phase.awaits = phase.asks := by
  cases h <;> rfl

/-- A task that is led to its end by a reading has no fault but one of the texts. -/
theorem Arrives.inTexts {taken : Snapshot} {job : Job} {outcome : Reading.Outcome} {phase : Phase}
    {compiled : Store Artifact} (h : s.Arrives taken job outcome phase compiled) {f : Fault}
    (hphase : phase = .finished (.error f)) : s.InTexts f := by
  cases h with
  | waits => exact nomatch hphase
  | failed =>
    cases hphase
    exact Or.inl ⟨_, rfl⟩
  | read => exact nomatch hphase
  | rejected hbuild =>
    cases hphase
    exact Or.inr ⟨_, _, hbuild⟩
  | stored => exact nomatch hphase
  | passed => exact nomatch hphase

/-- An account of the templates whose files a task, `t`, has asked for since the session `s₁`. -/
structure Account (s₁ : Session) (t : Task) (new : List String) (s : Session) : Prop where
  asked : s.asked = s₁.asked ++ new
  absent : ∀ d ∈ new, s₁.cache.sources.get? d = none
  awaited : ∀ d ∈ t.phase.awaits, d ∈ new
  comes : ∀ d text, s.cache.sources.get? d = some text →
    s₁.cache.sources.get? d = some text ∨ d ∈ new
  had : ∀ d ∈ new, (s.cache.sources.get? d).isSome ∨ d ∈ t.phase.awaits ∨
    ∃ f, t.phase = .finished (.error f) ∧ s₁.load d = .error f
  fault : ∀ f, t.phase = .finished (.error f) → (∃ d ∈ new, s₁.load d = .error f) ∨ s₁.InTexts f
  compiled : (∀ a, t.phase ≠ .finished (.ok (.compiled a))) → s.cache.compiled = s₁.cache.compiled

variable {new : List String}

/-- The account of a task that has not started is blank. -/
theorem account_new (s : Session) (job : Job) : Account s { job } [] s := by
  refine ⟨(List.append_nil _).symm, ?_, ?_, fun d text hd => Or.inl hd, ?_, ?_, fun _ => rfl⟩
  · exact fun d hd => nomatch hd
  · exact fun d hd => nomatch hd
  · exact fun d hd => nomatch hd
  · exact fun f hf => nomatch hf

/-- A task that goes on with its reading in `s₀`, where all that it has asked for has come, adds to its account
what it waits for then. -/
theorem Account.advanced {read : Reading.Outcome × Trail} (h : Account s₁ t new s)
    (hadvanced : s₀.Advanced t read t' s') (hasked : s'.asked = s.asked ++ t'.phase.asks)
    (hwaits : ∀ w, read.1 = .waits w → s₀.cache.sources.get? w.id = none)
    (hkeeps : ∀ d text, s₁.cache.sources.get? d = some text → s₀.cache.sources.get? d = some text)
    (hcomes : ∀ d text, s₀.cache.sources.get? d = some text →
      s₁.cache.sources.get? d = some text ∨ d ∈ new)
    (hhad : ∀ d ∈ new, (s₀.cache.sources.get? d).isSome) (hbuild : s₀.build = s₁.build)
    (hcompiled : (∀ a, t'.phase ≠ .finished (.ok (.compiled a))) →
      s'.cache.compiled = s₁.cache.compiled) : Account s₁ t' (new ++ t'.phase.asks) s' := by
  have harrives := hadvanced.arrives
  have hawaits : t'.phase.awaits = t'.phase.asks := harrives.awaits
  have hnone : ∀ d ∈ t'.phase.asks, s₁.cache.sources.get? d = none := by
    intro d hd
    rw [harrives.asks] at hd
    generalize hread : read.1 = outcome at hd
    cases outcome with
    | waits w =>
      rw [List.mem_singleton.1 hd]
      refine Option.eq_none_iff_forall_ne_some.2 fun text htext => ?_
      have hsome := hkeeps _ text htext
      rw [hwaits w hread] at hsome
      exact nomatch hsome
    | done text => exact nomatch hd
    | failed f => exact nomatch hd
  refine ⟨?_, ?_, ?_, ?_, ?_, ?_, hcompiled⟩
  · rw [hasked, h.asked, List.append_assoc]
  · intro d hd
    rcases List.mem_append.1 hd with hd | hd
    · exact h.absent d hd
    · exact hnone d hd
  · intro d hd
    rw [hawaits] at hd
    exact List.mem_append_right _ hd
  · intro d text hd
    rw [hadvanced.sources] at hd
    exact (hcomes d text hd).imp_right (List.mem_append_left _)
  · intro d hd
    rcases List.mem_append.1 hd with hd | hd
    · rw [hadvanced.sources]
      exact Or.inl (hhad d hd)
    · rw [hawaits]
      exact Or.inr (Or.inl hd)
  · intro f hf
    have htexts := harrives.inTexts hf
    rw [InTexts, hbuild] at htexts
    exact Or.inr htexts

/-- What a task that still goes on has asked for has come, but for what it waits for. -/
theorem Account.had_or_awaits (h : Account s₁ t new s) (hmoves : s.Moves k t e t' s') {d : String}
    (hd : d ∈ new) : (s.cache.sources.get? d).isSome ∨ d ∈ t.phase.awaits := by
  rcases h.had d hd with hd | hd | ⟨f, hphase, -⟩
  · exact Or.inl hd
  · exact Or.inr hd
  · exact absurd hphase (hmoves.running _)

/-- What is compiled stays while a task goes on, unless it ends with what it has compiled. -/
theorem Account.compiled_step (h : Account s₁ t new s) (hmoves : s.Moves k t e t' s')
    (hno : ∀ a, t'.phase ≠ .finished (.ok (.compiled a))) : s'.cache.compiled = s₁.cache.compiled := by
  have hbefore := h.compiled fun a => hmoves.running _
  rcases hmoves.keeps_or_stores with ⟨hkept, -⟩ | ⟨Y, a, -, hphase, -⟩
  · exact hkept.trans hbefore
  · exact absurd hphase (hno a)

/-- A task that asks for nothing and leaves the texts alone keeps its account, if it goes on waiting or ends as
the file that it waited for cannot be had. -/
theorem Account.kept (h : Account s₁ t new s) (hmoves : s.Moves k t e t' s') (hcache : s'.cache = s.cache)
    (hasked : s'.asked = s.asked ++ t'.phase.asks) (hnothing : t'.phase.asks = [])
    (hwaits : ∀ d ∈ t'.phase.awaits, d ∈ t.phase.awaits)
    (hstill : ∀ d ∈ t.phase.awaits, d ∈ t'.phase.awaits ∨
      ∃ f, t'.phase = .finished (.error f) ∧ s₁.load d = .error f)
    (hfault : ∀ f, t'.phase = .finished (.error f) → ∃ d ∈ t.phase.awaits, s₁.load d = .error f) :
    Account s₁ t' (new ++ t'.phase.asks) s' := by
  rw [hnothing, List.append_nil] at hasked ⊢
  refine ⟨hasked.trans h.asked, h.absent, fun d hd => h.awaited d (hwaits d hd), ?_, ?_, ?_,
    h.compiled_step hmoves⟩
  · exact fun d text hd => h.comes d text (hcache ▸ hd)
  · intro d hd
    rw [hcache]
    exact (h.had_or_awaits hmoves hd).imp_right (hstill d)
  · intro f hf
    obtain ⟨d, hd, hload⟩ := hfault f hf
    exact Or.inl ⟨d, h.awaited d hd, hload⟩

/-- A task that goes on as its text has come keeps its account. -/
theorem Account.resumed {w : Reading.Wait} {text : String} {read : Reading.Outcome × Trail}
    (h : Account s₁ t new s) (hmoves : s.Moves k t e t' s') (hgrows : Grows s₁ s) (hstops : s.StopsAt X w)
    (hawaits : t.phase.awaits = [w.id]) (hadvanced : (s.receive w text).Advanced t read t' s')
    (hasked : s'.asked = s.asked ++ t'.phase.asks)
    (hwaits : ∀ w', read.1 = .waits w' → (s.receive w text).cache.sources.get? w'.id = none) :
    Account s₁ t' (new ++ t'.phase.asks) s' := by
  have hmem : w.id ∈ new := h.awaited w.id (hawaits ▸ List.mem_singleton_self _)
  refine h.advanced hadvanced hasked hwaits ?_ ?_ ?_ ((build_receive s w text).trans hgrows.build)
    (h.compiled_step hmoves)
  · intro d text' hd
    rw [hstops.sources_receive, if_neg]
    · exact hgrows.keeps d text' hd
    · rintro rfl
      rw [h.absent w.id hmem] at hd
      exact nomatch hd
  · intro d text' hd
    rw [hstops.sources_receive] at hd
    split at hd
    · next hdw => exact Or.inr (hdw ▸ hmem)
    · exact h.comes d text' hd
  · intro d hd
    rw [hstops.sources_receive]
    split
    · rfl
    · next hdw =>
      refine (h.had_or_awaits hmoves hd).resolve_right fun hd' => hdw ?_
      rwa [hawaits, List.mem_singleton] at hd'

/-- A task keeps account of what it asks for with each of its moves. -/
theorem Account.step (h : Account s₁ t new s) (hmoves : s.Moves k t e t' s')
    (hasked : s'.asked = s.asked ++ t'.phase.asks) (hgrows : Grows s₁ s)
    (hstage : s.Stage job t.phase) : Account s₁ t' (new ++ t'.phase.asks) s' := by
  have hmoved := hmoves
  cases hmoves with
  | starts hphase hadvanced =>
    refine h.advanced hadvanced hasked ?_ hgrows.keeps h.comes ?_ hgrows.build (h.compiled_step hmoved)
    · exact fun w hw => (((Reading.leaves s.desk).1 _ _ _ _).waits w hw).1
    · intro d hd
      refine (h.had_or_awaits hmoved hd).resolve_right fun hd' => ?_
      rw [hphase] at hd'
      exact nomatch hd'
  | fetches hphase hcache =>
    refine h.kept hmoved hcache hasked rfl ?_ ?_ fun f hf => (nomatch hf)
    · rw [hphase]
      exact fun d hd => hd
    · rw [hphase]
      exact fun d hd => Or.inl hd
  | @fails w content f _ hphase htext hcache =>
    rw [hphase] at hstage
    obtain ⟨-, rfl⟩ := hstage
    -- the file that came is the one that the template had all the time
    have hload : s₁.load w.id = .error f := by
      rw [← hgrows.load]
      exact htext
    refine h.kept hmoved hcache hasked rfl (fun d hd => nomatch hd) ?_ ?_
    · intro d hd
      rw [hphase] at hd
      rw [List.mem_singleton.1 hd]
      exact Or.inr ⟨f, rfl, hload⟩
    · rintro g ⟨⟩
      rw [hphase]
      exact ⟨w.id, List.mem_singleton_self _, hload⟩
  | resumes hphase htext hadvanced =>
    rw [hphase] at hstage
    refine h.resumed hmoved hgrows hstage.1 (by rw [hphase]; rfl) hadvanced hasked fun w' hw' => ?_
    exact ((Reading.leaves_resume _ _ _ _).waits w' hw').1

theorem nodup_asks (phase : Phase) : phase.asks.Nodup := by
  cases phase with
  | fetching w => exact List.pairwise_singleton _ _
  | starting => exact .nil
  | fetched w content => exact .nil
  | finished result => exact .nil

/-- A task asks for nothing that it has asked for before. -/
theorem Account.not_asked (h : Account s₁ t new s) (hmoves : s.Moves k t e t' s') (hgrows : Grows s s')
    (hstage : s.Stage job t.phase) (hstage' : s'.Stage job t'.phase) {d : String}
    (hd : d ∈ t'.phase.asks) : d ∉ new := by
  intro hmem
  -- what is asked for has no text, but what the task has asked for before has come when it goes on
  have habsent : s'.cache.sources.get? d = none := by
    cases hphase : t'.phase with
    | fetching w =>
      rw [hphase] at hd hstage'
      rw [List.mem_singleton.1 hd]
      exact hstage'.absent
    | starting =>
      rw [hphase] at hd
      exact nomatch hd
    | fetched w content =>
      rw [hphase] at hd
      exact nomatch hd
    | finished result =>
      rw [hphase] at hd
      exact nomatch hd
  have hnone : s.cache.sources.get? d = none := by
    refine Option.eq_none_iff_forall_ne_some.2 fun text htext => ?_
    exact nomatch habsent.symm.trans (hgrows.keeps d text htext)
  have hawaits : d ∈ t.phase.awaits := by
    refine (h.had_or_awaits hmoves hmem).resolve_left fun hsome => ?_
    rw [hnone] at hsome
    exact nomatch hsome
  cases hmoves with
  | starts hphase _ =>
    rw [hphase] at hawaits
    exact nomatch hawaits
  | fetches => exact nomatch hd
  | fails => exact nomatch hd
  | @resumes w content text _ _ hphase _ hadvanced =>
    rw [hphase] at hawaits hstage
    obtain rfl := List.mem_singleton.1 hawaits
    rw [hadvanced.sources, hstage.1.sources_receive, if_pos rfl] at habsent
    exact nomatch habsent

/-! ### Carried to the end -/

/-- The `k`-th task has an account of what it has asked for, nothing of it twice. -/
def Accounted (s₁ : Session) (k : Nat) (s : Session) : Prop :=
  ∃ t new, s.tasks[k]? = some t ∧ Account s₁ t new s ∧ new.Nodup

theorem Accounted.step (h : Accounted s₁ k s) (hunderway : Underway s₁ k job s)
    (he : s.nextEvent k = some e) : Accounted s₁ k (s.step e) := by
  obtain ⟨t, new, hk, haccount, hnodup⟩ := h
  obtain ⟨t₁, t', hk₁, hk', -, hstage, hmoves, hsteady⟩ := hunderway.moves he
  obtain ⟨t₂, hk₂, -, -, hstage₂⟩ := (hunderway.step he).task
  obtain rfl : t = t₁ := Option.some.inj (hk.symm.trans hk₁)
  obtain rfl : t' = t₂ := Option.some.inj (hk'.symm.trans hk₂)
  have hgrows := hmoves.grows hsteady hstage
  refine ⟨t', new ++ t'.phase.asks, hk', ?_, ?_⟩
  · exact haccount.step hmoves (asked_step_of_moves hk hmoves) hunderway.grows hstage
  · refine List.nodup_append.2 ⟨hnodup, nodup_asks _, ?_⟩
    rintro d hd _ hasks rfl
    exact haccount.not_asked hmoves hgrows hstage hstage₂ hasks hd

/-- A task under way keeps its account however far it is carried. -/
theorem accounted_runTask (fuel : Nat) (h : Accounted s₁ k s) (hunderway : Underway s₁ k job s) :
    Accounted s₁ k (runTask (fun _ => false) k fuel s) :=
  hunderway.carried (fun _ _ hunderway he h => h.step hunderway he) fuel h

/-- What a call that has been answered has asked for, and what has come of that: the session was `s` before and
is `s'` now. -/
structure Answered (s : Session) (answer : Except Fault Artifact) (new : List String) (s' : Session) :
    Prop where
  asked : s'.asked = s.asked ++ new
  absent : ∀ d ∈ new, s.cache.sources.get? d = none
  comes : ∀ d text, s'.cache.sources.get? d = some text →
    s.cache.sources.get? d = some text ∨ d ∈ new
  had : ∀ d ∈ new, (s'.cache.sources.get? d).isSome ∨ ∃ f, answer = .error f ∧ s.load d = .error f
  fault : ∀ f, answer = .error f → (∃ d ∈ new, s.load d = .error f) ∨ s.InTexts f
  compiled : ∀ f, answer = .error f → s'.cache.compiled = s.cache.compiled

/-- A call that is answered at once asks for nothing. -/
theorem answered_at_once {answer : Except Fault Artifact}
    (h : ∀ f, answer = .error f → s.InTexts f) : Answered s answer [] s := by
  refine ⟨(List.append_nil _).symm, ?_, fun d text hd => Or.inl hd, ?_, ?_, fun _ _ => rfl⟩
  · exact fun d hd => nomatch hd
  · exact fun d hd => nomatch hd
  · exact fun f hf => Or.inr (h f hf)

/-- A call in a session at rest is answered for. -/
theorem compile_answered (hrest : s.AtRest) (name : String) :
    ∃ new, Answered s (s.compile name).1 new (s.compile name).2 := by
  rcases s.compile_cases name with ⟨f, -, hcompile⟩ | ⟨X, hname, ⟨a, -, hcompile⟩ | hnone⟩
  · rw [hcompile]
    refine ⟨[], answered_at_once ?_⟩
    rintro g ⟨⟩
    exact Or.inl ⟨.name f, rfl⟩
  · rw [hcompile]
    exact ⟨[], answered_at_once fun g hg => nomatch hg⟩
  -- the call makes a task, which goes on alone until it has ended
  have hgrows : Grows s (s.withCompile X) := .of_cache rfl rfl rfl rfl
  have hk := s.task_withCompile X
  obtain ⟨hunderway, hfinished⟩ := runTask_new hk
  obtain ⟨t, new, hk', haccount, -⟩ :=
    accounted_runTask (s.withCompile X).patience ⟨_, [], hk, account_new _ _, .nil⟩ (underway_new hk)
  obtain ⟨t', result, hk'', hphase⟩ := finished_of_isFinished hfinished
  obtain rfl : t' = t := Option.some.inj (hk''.symm.trans hk')
  have hne := compile_ne_unfinished hrest name
  rw [compile_of_none hrest hname hnone] at hne ⊢
  have hcomplete : (s.withCompile X).complete s.tasks.length = _ := settle_of_isFinished hfinished
  generalize runTask _ s.tasks.length (s.withCompile X).patience (s.withCompile X) = s₂
    at hunderway hk' haccount hcomplete
  rw [hcomplete] at hne ⊢
  have hanswer : ∀ f, s₂.artifact s.tasks.length = .error f ↔ result = .error f := by
    intro f
    have hne' : s₂.artifact s.tasks.length ≠ .error .unfinished := hne
    rw [artifact, result_of_finished hk' hphase] at hne' ⊢
    rcases result with g | (a | ⟨text, taken⟩)
    · constructor
      · rintro ⟨⟩
        rfl
      · rintro ⟨⟩
        rfl
    · exact ⟨fun h => (nomatch h), fun h => (nomatch h)⟩
    · exact absurd rfl hne'
  refine ⟨new, haccount.asked, haccount.absent, haccount.comes, ?_, ?_, ?_⟩
  · intro d hd
    rcases haccount.had d hd with hd | hd | ⟨f, hf, hload⟩
    · exact Or.inl hd
    · rw [hphase] at hd
      exact nomatch hd
    · rw [hphase, Phase.finished.injEq] at hf
      rw [hgrows.load] at hload
      exact Or.inr ⟨f, (hanswer f).2 hf, hload⟩
  · intro f hf
    have hfault := haccount.fault f (by rw [hphase, (hanswer f).1 hf])
    rw [InTexts, hgrows.load, hgrows.build] at hfault
    exact hfault
  · intro f hf
    refine haccount.compiled fun a ha => ?_
    rw [hphase, (hanswer f).1 hf] at ha
    exact nomatch ha

end Session

end Stencil
