import Stencil.Proofs.Reading.Flatten
import Stencil.Proofs.Session.Alone

/-!
# Tasks end

A task on its own asks for a file only while it is not in the cache, and keeps what it is given. The
templates that it can ask for are its own and those whose names stand in the texts of the cache and in the
files, so with every file that it is given there is one template less to ask for. That is a measure of the
events ahead (`eventsAhead`), and the patience of a call exceeds it: a task that is made is carried through
to its end (`complete_new`). So a compile that meets no other task is answered (`compile_spec`), and the
session is at rest again.
-/

namespace Stencil

namespace Session

variable {s s₁ s' : Session} {k : Nat} {X : String} {job : Job}

/-! ### Names ahead -/

/-- The templates that a task for a template can ask for. -/
def ahead (s : Session) (X : String) : List String :=
  X :: s.namesAhead.filterMap fun name => (s.normalize (String.ofList name)).toOption

theorem names_of_source {d text : String} {name : List Char} (h : s.cache.sources.get? d = some text)
    (hname : Segment.include name ∈ segmentsOf d text) : name ∈ s.namesAhead := by
  rw [segmentsOf] at hname
  split at hname
  · refine List.mem_append_left _ (List.mem_append_left _ (List.mem_flatMap.2 ⟨(d, text), ?_, ?_⟩))
    · exact Store.mem_of_lookup h
    · exact mem_includeNames.2 hname
  · cases List.mem_singleton.1 hname

/-- What a session loads is what its files hold. -/
theorem load_eq (s : Session) (d : String) : s.load d = s.tree.load s.shrinkers s.root d := by
  unfold load textOf Files.Tree.load path
  cases s.tree.read (Files.under s.root d) <;> rfl

theorem names_of_load {d text : String} {name : List Char} (h : s.load d = .ok text)
    (hname : Segment.include name ∈ segmentsOf d text) : name ∈ s.namesAhead := by
  rw [load_eq] at h
  exact List.mem_append_left _ (List.mem_append_right _ (Files.Tree.mem_includes h hname))

/-- What a task waits for is among what it can ask for. -/
theorem StopsAt.mem_ahead {w : Reading.Wait} (h : s.StopsAt X w) (hgrows : Grows s₁ s) :
    w.id ∈ s₁.ahead X := by
  obtain ⟨-, -, hframes⟩ := h
  obtain ⟨id, version, frames⟩ := w
  cases frames with
  | nil =>
    rw [Reading.FramesFit] at hframes
    exact hframes ▸ List.mem_cons_self
  -- its name stands in the text of the innermost frame
  | cons f rest =>
    obtain ⟨text, before, name, ⟨_, ⟨⟩, hsource⟩, hsegments, -, hname⟩ := hframes.1.at_include
    have hmem : Segment.include name ∈ segmentsOf f.id text := by
      rw [hsegments]
      exact List.mem_append_right _ List.mem_cons_self
    refine List.mem_cons_of_mem _ (List.mem_filterMap.2 ⟨name, ?_, ?_⟩)
    · rcases hgrows.loads _ _ hsource with hold | hload
      · exact names_of_source hold hmem
      · exact names_of_load hload hmem
    · have hname' : s.normalize (String.ofList name) = .ok id := hname
      rw [← hgrows.normalize, hname']
      rfl

/-! ### A measure of the events ahead -/

/-- How many of the templates that can be asked for are not in the cache. -/
def missing (s : Session) (ids : List String) : Nat :=
  (ids.filter fun d => (s.cache.sources.get? d).isNone).length

/-- At most so many events are ahead of a task. -/
def eventsAhead (missing : Nat) : Phase → Nat
  | .starting => 2 * missing + 1
  | .fetching _ => 2 * missing
  | .fetched .. => 2 * missing - 1
  | .finished _ => 0

/-- What is missing later was missing before. -/
theorem filter_missing (hgrows : Grows s s') (ids : List String) :
    (ids.filter fun d => (s'.cache.sources.get? d).isNone) =
      (ids.filter fun d => (s.cache.sources.get? d).isNone).filter fun d =>
        (s'.cache.sources.get? d).isNone := by
  rw [List.filter_filter]
  refine List.filter_congr fun d _ => ?_
  cases hs : s.cache.sources.get? d with
  | none => simp
  | some text => simp [hgrows.keeps d text hs]

theorem missing_le (hgrows : Grows s s') (ids : List String) : s'.missing ids ≤ s.missing ids := by
  rw [missing, missing, filter_missing hgrows]
  exact List.length_filter_le _ _

theorem missing_pos {ids : List String} {d : String} (hmem : d ∈ ids)
    (hd : s.cache.sources.get? d = none) : 0 < s.missing ids :=
  List.length_pos_of_mem (List.mem_filter.2 ⟨hmem, by rw [hd]; rfl⟩)

/-- A text that comes is one that is missing no more. -/
theorem missing_lt (hgrows : Grows s s') {ids : List String} {d : String} (hmem : d ∈ ids)
    (hd : s.cache.sources.get? d = none) (hd' : (s'.cache.sources.get? d).isSome) :
    s'.missing ids < s.missing ids := by
  rw [missing, missing, filter_missing hgrows, List.length_filter_lt_length_iff_exists]
  refine ⟨d, List.mem_filter.2 ⟨hmem, by rw [hd]; rfl⟩, ?_⟩
  rw [Option.isNone_eq_false_iff.2 hd']
  exact Bool.false_ne_true

/-- A reading leads a task to wait or to end. -/
theorem Arrives.waits_or_ends {taken : Snapshot} {job : Job} {outcome : Reading.Outcome}
    {phase : Phase} {compiled : Store Artifact} (h : s.Arrives taken job outcome phase compiled)
    (missing : Nat) : eventsAhead missing phase ≤ 2 * missing := by
  cases h with
  | waits => exact le_rfl
  | failed => exact Nat.zero_le _
  | read => exact Nat.zero_le _
  | rejected => exact Nat.zero_le _
  | stored => exact Nat.zero_le _
  | passed => exact Nat.zero_le _

/-- Every move of a task takes at least one of the events ahead. -/
theorem eventsAhead_lt {e : Event} {t t' : Task} (h : s.Moves k t e t' s') (hgrows₁ : Grows s₁ s)
    (hgrows : Grows s s') (hstage : s.Stage job t.phase) :
    eventsAhead (s'.missing (s₁.ahead job.id)) t'.phase <
      eventsAhead (s.missing (s₁.ahead job.id)) t.phase := by
  have hle := missing_le hgrows (s₁.ahead job.id)
  have hpos : ∀ w, s.StopsAt job.id w → 0 < s.missing (s₁.ahead job.id) :=
    fun w hstops => missing_pos (hstops.mem_ahead hgrows₁) hstops.absent
  cases h with
  -- a read and a resumption for each text that is missing, and the start
  | starts hphase h =>
    have hahead := h.arrives.waits_or_ends (s'.missing (s₁.ahead job.id))
    rw [hphase, eventsAhead]
    omega
  | fetches hphase _ =>
    rw [hphase] at hstage ⊢
    have hpos := hpos _ hstage
    rw [eventsAhead, eventsAhead]
    omega
  | fails hphase _ _ =>
    rw [hphase] at hstage ⊢
    have hpos := hpos _ hstage.1
    rw [eventsAhead, eventsAhead]
    omega
  | @resumes w _ text _ _ hphase _ h =>
    rw [hphase] at hstage ⊢
    have hstops := hstage.1
    have hahead := h.arrives.waits_or_ends (s'.missing (s₁.ahead job.id))
    have hsource : (s'.cache.sources.get? w.id).isSome := by
      rw [h.sources, hstops.sources_receive, if_pos rfl]
      rfl
    have hlt := missing_lt hgrows (hstops.mem_ahead hgrows₁) hstops.absent hsource
    rw [eventsAhead]
    omega

/-! ### The end -/

/-- The next event of a task under way moves it on from where its stage says. -/
theorem Underway.moves {e : Event} (h : Underway s₁ k job s) (he : s.nextEvent k = some e) :
    ∃ t t', s.tasks[k]? = some t ∧ (s.step e).tasks[k]? = some t' ∧ t.job = job ∧ s.Stage job t.phase ∧
      s.Moves k t e t' (s.step e) ∧ Steady s (s.step e) := by
  obtain ⟨t₀, hk₀, hjob, -, hstage⟩ := h.task
  obtain ⟨t, t', hk, htasks, hmoves, hsteady⟩ := moves_of_next he
  obtain rfl : t₀ = t := Option.some.inj (hk₀.symm.trans hk)
  refine ⟨t₀, t', hk, ?_, hjob, hstage, hmoves, hsteady⟩
  rw [htasks, List.getElem?_set_self (List.getElem?_eq_some_iff.1 hk).1]

/-- A task that goes on takes its next event. -/
theorem runTask_next {e : Event} (fuel : Nat) (he : s.nextEvent k = some e) :
    runTask (fun _ => false) k (fuel + 1) s = runTask (fun _ => false) k fuel (s.step e) := by
  obtain ⟨t, -, hk, -⟩ := moves_of_next he
  simp only [runTask, hk, he, Bool.false_eq_true, if_false]

/-- A task that has no next event stays as it is, whatever its patience is. -/
theorem runTask_none (fuel : Nat) (he : s.nextEvent k = none) :
    runTask (fun _ => false) k fuel s = s := by
  cases fuel with
  | zero => rfl
  | succ fuel =>
    unfold runTask
    rw [he]
    split <;> rfl

/-- What each move of a task under way keeps is kept however far the task is carried. -/
theorem Underway.carried {P : Session → Prop}
    (step : ∀ s e, Underway s₁ k job s → s.nextEvent k = some e → P s → P (s.step e)) (fuel : Nat)
    (hunderway : Underway s₁ k job s) (h : P s) : P (runTask (fun _ => false) k fuel s) := by
  induction fuel generalizing s with
  | zero => exact h
  | succ fuel ih =>
    cases he : s.nextEvent k with
    | none =>
      rw [runTask_none _ he]
      exact h
    | some e =>
      rw [runTask_next fuel he]
      exact ih (hunderway.step he) (step s e hunderway he h)

/-- A task under way that has enough events comes to its end. -/
theorem runTask_ends (fuel : Nat) (h : Underway s₁ k job s)
    (hfuel : ∀ t, s.tasks[k]? = some t → eventsAhead (s.missing (s₁.ahead job.id)) t.phase < fuel) :
    Underway s₁ k job (runTask (fun _ => false) k fuel s) ∧
      (runTask (fun _ => false) k fuel s).isFinished k = true := by
  induction fuel generalizing s with
  | zero =>
    obtain ⟨t, hk, -⟩ := h.task
    exact absurd (hfuel t hk) (Nat.not_lt_zero _)
  | succ fuel ih =>
    cases he : s.nextEvent k with
    | some e =>
      rw [runTask_next fuel he]
      refine ih (h.step he) fun t' hk' => ?_
      obtain ⟨t₀, t₁, hk₀, hk₁, -, hstage, hmoves, hsteady⟩ := h.moves he
      obtain rfl : t' = t₁ := Option.some.inj (hk'.symm.trans hk₁)
      have hgrows := hmoves.grows hsteady hstage
      have hlt := eventsAhead_lt hmoves h.grows hgrows hstage
      exact Nat.lt_of_lt_of_le hlt (Nat.le_of_lt_succ (hfuel t₀ hk₀))
    | none =>
      obtain ⟨t, hk, -⟩ := h.task
      rw [runTask_none _ he]
      refine ⟨h, ?_⟩
      unfold nextEvent at he
      rw [hk] at he
      unfold isFinished
      rw [hk]
      obtain ⟨job, phase, taken⟩ := t
      cases phase with
      | finished result => rfl
      | starting => exact nomatch he
      | fetching w => exact nomatch he
      | fetched w content => exact nomatch he

/-- The patience of a session exceeds the events ahead of a task that has just been made. -/
theorem eventsAhead_lt_patience (s : Session) (X : String) :
    eventsAhead (s.missing (s.ahead X)) .starting < s.patience := by
  have hmissing : s.missing (s.ahead X) ≤ (s.ahead X).length := List.length_filter_le _ _
  have hahead : (s.ahead X).length ≤ s.namesAhead.length + 1 := by
    rw [ahead, List.length_cons]
    exact Nat.succ_le_succ (List.length_filterMap_le _ _)
  rw [eventsAhead, patience]
  omega

/-- A task that has just been made is under way on its own. -/
theorem underway_new (hk : s.tasks[k]? = some { job }) : Underway s k job s :=
  ⟨.refl s, fun _ _ h => Or.inl h, rfl, fun _ _ => rfl, fun _ _ h => Or.inl h, { job }, hk, rfl,
    fun _ hp => absurd hp List.not_mem_nil, trivial⟩

/-- A task that has just been made has ended when the patience of the session does. -/
theorem runTask_new (hk : s.tasks[k]? = some { job }) :
    Underway s k job (runTask (fun _ => false) k s.patience s) ∧
      (runTask (fun _ => false) k s.patience s).isFinished k = true := by
  refine runTask_ends _ (underway_new hk) fun t ht => ?_
  obtain rfl : { job } = t := Option.some.inj (hk.symm.trans ht)
  exact eventsAhead_lt_patience s job.id

/-- A task that has just been made is carried through to its end, and then it can no longer be joined. -/
theorem complete_new (hk : s.tasks[k]? = some { job }) :
    ∃ s', Underway s k job s' ∧ s'.isFinished k = true ∧
      s.complete k = { s' with inflight := s'.inflight.filter (·.2 != k) } := by
  obtain ⟨hunderway, hfinished⟩ := runTask_new hk
  exact ⟨_, hunderway, hfinished, settle_of_isFinished hfinished⟩

theorem result_of_finished {t : Task} {result : Except Fault Product} (hk : s.tasks[k]? = some t)
    (hphase : t.phase = .finished result) : s.result k = result := by
  unfold Session.result
  rw [hk]
  dsimp only
  rw [hphase]

/-- A task on its own that has ended has made its result of what its template comes to. -/
theorem Underway.ends (h : Underway s₁ k job s) (hfinished : s.isFinished k = true) :
    s.EndsWith job (s.result k) := by
  obtain ⟨t, hk, -, -, hstage⟩ := h.task
  obtain ⟨t', result, hk', hphase⟩ := finished_of_isFinished hfinished
  obtain rfl : t' = t := Option.some.inj (hk'.symm.trans hk)
  rw [hphase] at hstage
  rw [result_of_finished hk hphase]
  exact hstage

/-! ### Compiles -/

/-- No task is under way. -/
structure AtRest (s : Session) : Prop where
  ended : ∀ (k : Nat) (t : Task), s.tasks[k]? = some t → ∃ result, t.phase = .finished result
  inflight : s.inflight = []

/-- A call for a template that is not compiled makes a task for it and carries it through. -/
theorem compile_of_none (hrest : s.AtRest) {name : String} (hname : s.normalize name = .ok X)
    (hnone : s.cache.compiled.get? X = none) :
    s.compile name = (((s.withCompile X).complete s.tasks.length).artifact s.tasks.length,
      (s.withCompile X).complete s.tasks.length) := by
  have hcall : s.call name = (.pending s.tasks.length, s.withCompile X) :=
    call_of_none hname hnone (by rw [hrest.inflight]; rfl)
  unfold compile
  rw [hcall]

/-- When the only task under way has ended, the one that was made last, the session is at rest. -/
theorem Underway.atRest {s₂ : Session} {made : Task} (h : Underway s₁ s.tasks.length job s₂)
    (htasks : s₁.tasks = s.tasks ++ [made]) (hinflight : ∀ p ∈ s₁.inflight, p.2 = s.tasks.length)
    (hfinished : s₂.isFinished s.tasks.length = true) (hrest : s.AtRest) :
    AtRest { s₂ with inflight := s₂.inflight.filter (·.2 != s.tasks.length) } := by
  constructor
  · intro j t hj
    have hj' : s₂.tasks[j]? = some t := hj
    by_cases hjk : j = s.tasks.length
    · obtain ⟨t', result, hk, hphase⟩ := finished_of_isFinished hfinished
      subst hjk
      obtain rfl := Option.some.inj (hk.symm.trans hj')
      exact ⟨result, hphase⟩
    · rw [h.others j hjk, htasks] at hj'
      rcases Nat.lt_or_ge j s.tasks.length with hlt | hge
      · exact hrest.ended j t ((List.getElem?_append_left hlt).symm.trans hj')
      · have hlen : (s.tasks ++ [made]).length = s.tasks.length + 1 := List.length_append
        rw [List.getElem?_eq_none (by omega)] at hj'
        exact nomatch hj'
  · show s₂.inflight.filter _ = []
    rw [h.inflight, List.filter_eq_nil_iff]
    intro p hp
    simp [hinflight p hp]

/-- What a task that compiles has come to is what its template comes to, compiled. -/
theorem Makes.artifact {r : Except Fault String} (h : s.Makes (.compile X) r (s'.result k)) :
    (s'.artifact k).map (·.template) = r.bind (s.build X) := by
  unfold Session.artifact
  generalize s'.result k = result at h
  cases h with
  | failed => rfl
  | rejected hbuild => exact hbuild.symm
  | compiled hbuild => exact hbuild.symm

/-- What a compile in a session at rest comes to: what the cache and the files give for its template,
compiled. The session is at rest again, its cache has only grown, and what is compiled is kept. -/
theorem compile_spec (hrest : s.AtRest) {name : String} (hname : s.normalize name = .ok X)
    (hnone : s.cache.compiled.get? X = none) :
    (s.compile name).2.AtRest ∧ GrowsNamed s (s.compile name).2 ∧
      (∀ Y a, (s.compile name).2.cache.compiled.get? Y = some a →
        s.cache.compiled.get? Y = some a ∨ (Y = X ∧ (s.compile name).2.Built X a)) ∧
      (∀ a, (s.compile name).1 = .ok a → (s.compile name).2.cache.compiled.get? X = some a) ∧
      ∃ r, Gives (s.compile name).2.world [] X r ∧
        (s.compile name).1.map (·.template) = r.bind (s.build X) := by
  have hgrows₁ : GrowsNamed s (s.withCompile X) := .of_cache rfl rfl rfl rfl
  have hk := s.task_withCompile X
  obtain ⟨s₂, hunderway, hfinished, hcomplete⟩ := complete_new hk
  have hgrows₂ : GrowsNamed (s.withCompile X) s₂ := by
    refine ⟨hunderway.grows, fun d text hd => ?_⟩
    rcases hunderway.names d text hd with hd | rfl | hd
    · exact Or.inl hd
    · exact Or.inr ⟨name, hname⟩
    · exact Or.inr hd
  have hgrows₃ : GrowsNamed s₂ { s₂ with inflight := s₂.inflight.filter (·.2 != s.tasks.length) } :=
    .of_cache rfl rfl rfl rfl
  rw [compile_of_none hrest hname hnone, hcomplete]
  obtain ⟨⟨r, hgives, hmakes⟩, hstored⟩ := hunderway.ends hfinished
  have hmade := Makes.artifact hmakes
  rw [hgrows₂.build, hgrows₁.build] at hmade
  refine ⟨hunderway.atRest rfl ?_ hfinished hrest, (hgrows₁.trans hgrows₂).trans hgrows₃, ?_, ?_,
    r, hgives.of_le hgrows₃.world_le, hmade⟩
  · intro p hp
    have hp' : p ∈ (X, s.tasks.length) :: s.inflight := hp
    rw [hrest.inflight, List.mem_singleton] at hp'
    rw [hp']
  · intro Y a hY
    rcases hunderway.compiles Y a hY with hY | ⟨⟨⟩, hbuilt⟩
    · exact Or.inl hY
    · exact Or.inr ⟨rfl, hgrows₃.built hbuilt⟩
  · intro a ha
    have ha' : s₂.artifact s.tasks.length = .ok a := ha
    unfold artifact at ha'
    cases hresult : s₂.result s.tasks.length with
    | error f =>
      rw [hresult] at ha'
      exact nomatch ha'
    | ok product =>
      rw [hresult] at ha' hstored
      cases product with
      | text text taken => exact nomatch ha'
      | compiled b =>
        cases ha'
        exact hstored a rfl

/-- A name that is refused is refused at once. -/
theorem compile_of_error {name : String} {f : NameFault} (hname : s.normalize name = .error f) :
    s.compile name = (.error (.name f), s) := by
  have hcall : s.call name = (.refused (.name f), s) := by
    unfold call
    rw [hname]
  unfold compile
  rw [hcall]

/-- A template that is compiled is not compiled again. -/
theorem compile_of_some {name : String} {a : Artifact} (hname : s.normalize name = .ok X)
    (ha : s.cache.compiled.get? X = some a) : s.compile name = (.ok a, s) := by
  have hcall : s.call name = (.ready a, s) := by
    unfold call
    rw [hname]
    dsimp only
    rw [ha]
  unfold compile
  rw [hcall]

/-- How a compile begins. -/
theorem compile_cases (s : Session) (name : String) :
    (∃ f, s.normalize name = .error f ∧ s.compile name = (.error (.name f), s)) ∨
      ∃ X, s.normalize name = .ok X ∧
        ((∃ a, s.cache.compiled.get? X = some a ∧ s.compile name = (.ok a, s)) ∨
          s.cache.compiled.get? X = none) := by
  cases hname : s.normalize name with
  | error f => exact Or.inl ⟨f, rfl, compile_of_error hname⟩
  | ok X =>
    refine Or.inr ⟨X, rfl, ?_⟩
    cases hcompiled : s.cache.compiled.get? X with
    | some a => exact Or.inl ⟨a, rfl, compile_of_some hname hcompiled⟩
    | none => exact Or.inr rfl

/-- A compile leaves a session at rest, and the cache only grows. -/
theorem AtRest.compile (hrest : s.AtRest) (name : String) :
    (s.compile name).2.AtRest ∧ GrowsNamed s (s.compile name).2 := by
  rcases s.compile_cases name with ⟨f, -, hcompile⟩ | ⟨X, hname, ⟨a, -, hcompile⟩ | hnone⟩
  · rw [hcompile]
    exact ⟨hrest, .refl s⟩
  · rw [hcompile]
    exact ⟨hrest, .refl s⟩
  · obtain ⟨hrest', hgrows, -⟩ := compile_spec hrest hname hnone
    exact ⟨hrest', hgrows⟩

/-- A text cannot be had because its file cannot be read, or holds no text, or one of a stylesheet that cannot be
shrunk. -/
theorem fault_of_load {d : String} {f : Fault} (h : s.load d = .error f) :
    (∃ g, s.tree.read (s.path d) = .error g ∧ f = .ofFile d (s.path d) g) ∨
      (∃ bytes g, s.tree.read (s.path d) = .ok bytes ∧ Text.decode bytes = .error g ∧ f = .notText g) ∨
      ∃ text g, s.shrinkers.stylesheet text = .error g ∧ f = .shrink g := by
  unfold load textOf at h
  cases hread : s.tree.read (s.path d) with
  | error g =>
    rw [hread] at h
    cases h
    exact Or.inl ⟨g, rfl, rfl⟩
  | ok bytes =>
    rw [hread] at h
    dsimp only at h
    unfold Reading.ofBytes at h
    cases hdecode : Text.decode bytes with
    | error g =>
      rw [hdecode] at h
      cases h
      exact Or.inr (Or.inl ⟨bytes, g, rfl, hdecode, rfl⟩)
    | ok text =>
      rw [hdecode] at h
      dsimp only at h
      split at h
      · cases hshrunk : s.shrinkers.stylesheet text with
        | error g =>
          rw [hshrunk] at h
          cases h
          exact Or.inr (Or.inr ⟨text, g, hshrunk, rfl⟩)
        | ok shrunk =>
          rw [hshrunk] at h
          cases h
      · cases h

/-- A flattened template is not compiled because it cannot be shrunk, or since the template language does not
take it. -/
theorem fault_of_build {source : String} {f : Fault} (h : s.build X source = .error f) :
    (∃ g, f = .shrink g) ∨
      (∃ r assertion note, f = .engine (.rejected r assertion note) ∧ r.kind = .templateCompile) ∨
      f = .engine .malformed := by
  unfold build at h
  split at h
  · next g hshrink =>
    obtain rfl : g = f := Except.error.inj h
    unfold shrink at hshrink
    split at hshrink
    · exact nomatch hshrink
    · dsimp only at hshrink
      split at hshrink
      · cases hshrink
        exact Or.inl ⟨_, rfl⟩
      · exact nomatch hshrink
  · next text notes hshrink =>
    unfold CompiledTemplate.compile at h
    cases hcompile : Language.Template.compile options text with
    | ok template =>
      rw [hcompile] at h
      exact nomatch h
    | error g =>
      rw [hcompile] at h
      cases g with
      | malformed =>
        cases h
        exact Or.inr (Or.inr rfl)
      | fault g =>
        cases h
        exact Or.inr (Or.inl ⟨_, _, _, rfl, rfl⟩)

theorem load_ne_unfinished (d : String) : s.load d ≠ .error .unfinished := by
  intro h
  rcases fault_of_load h with ⟨g, -, hg⟩ | ⟨bytes, g, -, -, hg⟩ | ⟨text, g, -, hg⟩
  · cases g <;> exact nomatch hg
  · exact nomatch hg
  · exact nomatch hg

theorem build_ne_unfinished (X source : String) : s.build X source ≠ .error .unfinished := by
  intro h
  rcases fault_of_build h with ⟨g, hf⟩ | ⟨r, assertion, note, hf, -⟩ | hf
  · exact nomatch hf
  · exact nomatch hf
  · exact nomatch hf

/-- A compile in a session at rest is answered. -/
theorem compile_ne_unfinished (hrest : s.AtRest) (name : String) :
    (s.compile name).1 ≠ .error .unfinished := by
  intro h
  rcases s.compile_cases name with ⟨f, -, hcompile⟩ | ⟨X, hname, ⟨a, -, hcompile⟩ | hnone⟩
  · rw [hcompile] at h
    exact nomatch h
  · rw [hcompile] at h
    exact nomatch h
  · obtain ⟨-, -, -, -, r, hgives, hresult⟩ := compile_spec hrest hname hnone
    rw [h] at hresult
    rcases r with e | flat
    · obtain rfl : .unfinished = e := Except.error.inj hresult
      rcases hgives.fault with
          ⟨f, hf⟩ | ⟨circle, hcircle⟩ | ⟨c, ⟨text, htext, -⟩ | ⟨e', herror, -, hload⟩⟩
      · exact nomatch hf
      · exact nomatch hcircle
      · exact nomatch htext
      · cases herror
        exact load_ne_unfinished c hload
    · exact build_ne_unfinished X flat hresult.symm

end Session

end Stencil
