import Stencil.Proofs.Cache.Invalidation
import Stencil.Session

/-!
# What an event does

Everything that an event can change, said once: `Change s e s'` lists the ways in which a session `s`
becomes `s'` with the event `e`, and `change_step` says that a step is one of them. The properties of
runs are proved along these cases; none of them looks at the step itself again.

A task that goes on with its reading (`Advanced`) takes the relations and the versions of its trail,
comes to a phase that fits to how far the reading came (`Arrives`), and stores at most one compiled
template, the one of its own job. The files, the settings and the calls that can be joined are not
touched by tasks at all (`Steady`).
-/

namespace Stencil

namespace Session

/-- A flattened template is compiled: it is shrunk and given to the templating engine. -/
def build (s : Session) (id source : String) : Except Fault CompiledTemplate :=
  match s.shrink id source with
  | .error f => .error f
  | .ok (text, _) => (CompiledTemplate.compile options text (some id)).mapError .engine

/-- The text of a template from what reading its file has given. -/
def textOf (s : Session) (id : String) (content : Except Files.Fault (List UInt8)) :
    Except Fault String :=
  match content with
  | .error f => .error (.ofFile id (s.path id) f)
  | .ok bytes => (Reading.ofBytes s.shrinkers.stylesheet id bytes).mapError .ofLoad

/-- The session after a text that was waited for has come. -/
def receive (s : Session) (w : Reading.Wait) (text : String) : Session :=
  (s.note [.loaded w.id text.length]).keepText w text

/-- An event invalidates a template. -/
def Invalidates (s : Session) (e : Event) (d : String) : Prop :=
  match e with
  | .invalidate name => s.normalize name = .ok d
  | .invalidateAll | .clear => True
  | _ => False

/-! ### What tasks leave alone -/

/-- The files, the settings and the calls that can be joined are the same. -/
structure Steady (s s' : Session) : Prop where
  settings : s'.settings = s.settings
  shrinkers : s'.shrinkers = s.shrinkers
  tree : s'.tree = s.tree
  inflight : s'.inflight = s.inflight

namespace Steady

variable (s : Session) (k : Nat) (t : Task)

theorem refl : Steady s s := ⟨rfl, rfl, rfl, rfl⟩

theorem trans {s s' s'' : Session} (h : Steady s s') (h' : Steady s' s'') : Steady s s'' :=
  ⟨h'.settings.trans h.settings, h'.shrinkers.trans h.shrinkers, h'.tree.trans h.tree,
    h'.inflight.trans h.inflight⟩

theorem compileSource (id source : String) : Steady s (s.compileSource k t id source) := by
  unfold Session.compileSource
  split
  · exact ⟨rfl, rfl, rfl, rfl⟩
  · dsimp only
    split
    · exact ⟨rfl, rfl, rfl, rfl⟩
    · exact ⟨rfl, rfl, rfl, rfl⟩
    · split <;> exact ⟨rfl, rfl, rfl, rfl⟩

theorem advance (read : Reading.Outcome × Trail) : Steady s (s.advance k t read) := by
  obtain ⟨outcome, trail⟩ := read
  cases outcome with
  | waits w => exact ⟨rfl, rfl, rfl, rfl⟩
  | failed f => exact ⟨rfl, rfl, rfl, rfl⟩
  | done text =>
    unfold Session.advance
    dsimp only
    split
    · next id _ =>
      obtain ⟨h₁, h₂, h₃, h₄⟩ := compileSource (s.setCache { s.cache with relations := trail.relations })
        k { t with taken := trail.taken } id text
      exact ⟨h₁, h₂, h₃, h₄⟩
    · exact ⟨rfl, rfl, rfl, rfl⟩

theorem receive (w : Reading.Wait) (text : String) : Steady s (s.receive w text) := by
  unfold Session.receive keepText
  split <;> exact ⟨rfl, rfl, rfl, rfl⟩

theorem start : Steady s (s.start k) := by
  unfold Session.start
  split
  · split
    · refine Steady.trans ?_ (advance _ _ _ _)
      split <;> exact ⟨rfl, rfl, rfl, rfl⟩
    · exact refl s
  · exact refl s

theorem fetch : Steady s (s.fetch k) := by
  unfold Session.fetch
  split
  · split <;> exact ⟨rfl, rfl, rfl, rfl⟩
  · exact refl s

theorem resume : Steady s (s.resume k) := by
  unfold Session.resume
  split
  · split
    · exact ⟨rfl, rfl, rfl, rfl⟩
    · split
      · exact ⟨rfl, rfl, rfl, rfl⟩
      · exact (receive s _ _).trans (advance _ _ _ _)
    · exact refl s
  · exact refl s

end Steady

/-- The session with a task for a template, which calls can join. -/
def withCompile (s : Session) (id : String) : Session :=
  { s with tasks := s.tasks ++ [{ job := .compile id }], inflight := (id, s.tasks.length) :: s.inflight }

theorem task_withCompile (s : Session) (id : String) :
    (s.withCompile id).tasks[s.tasks.length]? = some { job := .compile id } :=
  List.getElem?_concat_length

theorem task_callRead (s : Session) (id : String) (parent : Option String) :
    (s.callRead id parent).2.tasks[s.tasks.length]? = some { job := .read id parent } :=
  List.getElem?_concat_length

/-- The ways in which a call can be answered. -/
theorem call_cases (s : Session) (name : String) :
    (∃ f, s.normalize name = .error f ∧ s.call name = (.refused (.name f), s)) ∨
      ∃ id, s.normalize name = .ok id ∧
        ((∃ a, s.cache.compiled.get? id = some a ∧ s.call name = (.ready a, s)) ∨
          s.cache.compiled.get? id = none ∧
            ((∃ k, s.inflight.lookup id = some k ∧ s.call name = (.pending k, s)) ∨
              s.inflight.lookup id = none ∧
                s.call name = (.pending s.tasks.length, s.withCompile id))) := by
  cases hn : s.normalize name with
  | error f =>
    refine Or.inl ⟨f, rfl, ?_⟩
    unfold call
    rw [hn]
  | ok id =>
    refine Or.inr ⟨id, rfl, ?_⟩
    unfold call
    rw [hn]
    dsimp only
    cases s.cache.compiled.get? id with
    | some a => exact Or.inl ⟨a, rfl, rfl⟩
    | none =>
      refine Or.inr ⟨rfl, ?_⟩
      cases s.inflight.lookup id with
      | some k => exact Or.inl ⟨k, rfl, rfl⟩
      | none => exact Or.inr ⟨rfl, rfl⟩

/-- A call for a template that is neither compiled nor being compiled makes a task for it. -/
theorem call_of_none {s : Session} {name X : String} (hname : s.normalize name = .ok X)
    (hcompiled : s.cache.compiled.get? X = none) (hinflight : s.inflight.lookup X = none) :
    s.call name = (.pending s.tasks.length, s.withCompile X) := by
  unfold call
  rw [hname]
  dsimp only
  rw [hcompiled, hinflight]
  rfl

theorem step_invalidate_ok {s : Session} {name id : String} (h : s.normalize name = .ok id) :
    s.step (.invalidate name) =
      (s.note (s.cache.invalidateNotes id ++ [.invalidated id])).setCache (s.cache.invalidate id) := by
  have hok : s.invalidate name = .ok
      ((s.note (s.cache.invalidateNotes id ++ [.invalidated id])).setCache (s.cache.invalidate id)) := by
    unfold invalidate
    rw [h]
  unfold step
  dsimp only
  rw [hok]

theorem step_invalidate_error {s : Session} {name : String} {f : NameFault}
    (h : s.normalize name = .error f) : s.step (.invalidate name) = s := by
  have herror : s.invalidate name = .error (.name f) := by
    unfold invalidate
    rw [h]
  unfold step
  dsimp only
  rw [herror]

theorem finished_of_isFinished {s : Session} {k : Nat} (h : s.isFinished k = true) :
    ∃ t result, s.tasks[k]? = some t ∧ t.phase = .finished result := by
  unfold isFinished at h
  split at h
  · next job result taken hk => exact ⟨_, result, hk, rfl⟩
  · exact nomatch h

theorem settle_of_isFinished {s : Session} {k : Nat} (h : s.isFinished k = true) :
    s.settle k = { s with inflight := s.inflight.filter (·.2 != k) } := by
  unfold settle
  rw [if_pos h]

/-- No event changes the settings. -/
theorem settings_step (s : Session) (e : Event) :
    (s.step e).settings = s.settings ∧ (s.step e).shrinkers = s.shrinkers := by
  cases e with
  | call name =>
    unfold step
    dsimp only
    rcases s.call_cases name with ⟨f, -, h⟩ | ⟨id, -, ⟨a, -, h⟩ | ⟨-, ⟨k, -, h⟩ | ⟨-, h⟩⟩⟩ <;> rw [h] <;>
      exact ⟨rfl, rfl⟩
  | read id parent => exact ⟨rfl, rfl⟩
  | start k => exact ⟨(Steady.start s k).settings, (Steady.start s k).shrinkers⟩
  | fetch k => exact ⟨(Steady.fetch s k).settings, (Steady.fetch s k).shrinkers⟩
  | resume k => exact ⟨(Steady.resume s k).settings, (Steady.resume s k).shrinkers⟩
  | settle k =>
    have h : (s.settle k).settings = s.settings ∧ (s.settle k).shrinkers = s.shrinkers := by
      unfold settle
      split <;> exact ⟨rfl, rfl⟩
    exact h
  | invalidate name =>
    cases h : s.normalize name with
    | error f =>
      rw [step_invalidate_error h]
      exact ⟨rfl, rfl⟩
    | ok id =>
      rw [step_invalidate_ok h]
      exact ⟨rfl, rfl⟩
  | invalidateAll => exact ⟨rfl, rfl⟩
  | clear => exact ⟨rfl, rfl⟩
  | change tree => exact ⟨rfl, rfl⟩

/-! ### A task goes on -/

/-- What a task comes to when its reading has come to some outcome, and what is compiled then. -/
inductive Arrives (s : Session) (taken : Snapshot) :
    Job → Reading.Outcome → Phase → Store Artifact → Prop
  | waits {job : Job} {w : Reading.Wait} :
      Arrives s taken job (.waits w) (.fetching w) s.cache.compiled
  | failed {job : Job} {f : Reading.Fault} :
      Arrives s taken job (.failed f) (.finished (.error (.ofReading f))) s.cache.compiled
  | read {id text : String} {parent : Option String} :
      Arrives s taken (.read id parent) (.done text) (.finished (.ok (.text text taken)))
        s.cache.compiled
  | rejected {id text : String} {f : Fault} : s.build id text = .error f →
      Arrives s taken (.compile id) (.done text) (.finished (.error f)) s.cache.compiled
  | stored {id text : String} {a : Artifact} : s.build id text = .ok a.template →
      s.cache.isCurrent taken = true →
      Arrives s taken (.compile id) (.done text) (.finished (.ok (.compiled a)))
        (s.cache.compiled.put id a)
  | passed {id text : String} {a : Artifact} : s.build id text = .ok a.template →
      s.cache.isCurrent taken = false →
      Arrives s taken (.compile id) (.done text) (.finished (.ok (.compiled a))) s.cache.compiled

/-- A task, `t`, has gone on with its reading and become `t'`, and the session has become `s'`. -/
structure Advanced (s : Session) (t : Task) (read : Reading.Outcome × Trail) (t' : Task)
    (s' : Session) : Prop where
  sources : s'.cache.sources = s.cache.sources
  version : s'.cache.version = s.cache.version
  relations : s'.cache.relations = read.2.relations
  job : t'.job = t.job
  taken : t'.taken = read.2.taken
  arrives : s.Arrives t'.taken t'.job read.1 t'.phase s'.cache.compiled

theorem Arrives.congr {s s₀ : Session} {taken : Snapshot} {job : Job} {outcome : Reading.Outcome}
    {phase : Phase} {compiled : Store Artifact} (h : s₀.Arrives taken job outcome phase compiled)
    (hbuild : s₀.build = s.build) (hcurrent : s₀.cache.isCurrent taken = s.cache.isCurrent taken)
    (hcompiled : s₀.cache.compiled = s.cache.compiled) : s.Arrives taken job outcome phase compiled := by
  cases h with
  | waits => exact hcompiled ▸ .waits
  | failed => exact hcompiled ▸ .failed
  | read => exact hcompiled ▸ .read
  | rejected h => exact hcompiled ▸ .rejected (hbuild ▸ h)
  | stored h hc => exact hcompiled ▸ .stored (hbuild ▸ h) (hcurrent ▸ hc)
  | passed h hc => exact hcompiled ▸ .passed (hbuild ▸ h) (hcurrent ▸ hc)

/-- A session that differs in its notes only goes on in the same way. -/
theorem Advanced.congr {s s₀ s' : Session} {t t' : Task} {read : Reading.Outcome × Trail}
    (h : s₀.Advanced t read t' s') (hcache : s₀.cache = s.cache) (hbuild : s₀.build = s.build) :
    s.Advanced t read t' s' := by
  refine ⟨hcache ▸ h.sources, hcache ▸ h.version, h.relations, h.job, h.taken, ?_⟩
  exact h.arrives.congr hbuild (by rw [hcache]) (by rw [hcache])

theorem advanced_compileSource (s : Session) (k : Nat) (id source : String) (phase : Phase)
    (taken : Snapshot) :
    ∃ t', (s.compileSource k ⟨.compile id, phase, taken⟩ id source).tasks = s.tasks.set k t' ∧
      s.Advanced ⟨.compile id, phase, taken⟩ (.done source, ⟨s.cache.relations, taken⟩) t'
        (s.compileSource k ⟨.compile id, phase, taken⟩ id source) := by
  have hbuild : ∀ text notes, s.shrink id source = .ok (text, notes) →
      s.build id source = (CompiledTemplate.compile options text (some id)).mapError .engine := by
    intro text notes hs
    rw [build, hs]
  unfold compileSource
  split
  · next f hf =>
    refine ⟨_, rfl, rfl, rfl, rfl, rfl, rfl, ?_⟩
    exact .rejected (by rw [build, hf])
  · next text notes hs =>
    dsimp only
    split
    · next r b n hc =>
      refine ⟨_, rfl, rfl, rfl, rfl, rfl, rfl, ?_⟩
      exact .rejected (by rw [hbuild _ _ hs, hc]; rfl)
    · next hc =>
      refine ⟨_, rfl, rfl, rfl, rfl, rfl, rfl, ?_⟩
      exact .rejected (by rw [hbuild _ _ hs, hc]; rfl)
    · next template hc =>
      split
      · next hcurrent =>
        refine ⟨_, rfl, rfl, rfl, rfl, rfl, rfl, ?_⟩
        exact .stored (by rw [hbuild _ _ hs, hc]; rfl) hcurrent
      · next hcurrent =>
        refine ⟨_, rfl, rfl, rfl, rfl, rfl, rfl, ?_⟩
        exact .passed (by rw [hbuild _ _ hs, hc]; rfl) (Bool.eq_false_iff.2 hcurrent)

theorem advanced_advance (s : Session) (k : Nat) (t : Task) (read : Reading.Outcome × Trail) :
    ∃ t', (s.advance k t read).tasks = s.tasks.set k t' ∧ s.Advanced t read t' (s.advance k t read) := by
  obtain ⟨outcome, trail⟩ := read
  cases outcome with
  | waits w => exact ⟨_, rfl, rfl, rfl, rfl, rfl, rfl, .waits⟩
  | failed f => exact ⟨_, rfl, rfl, rfl, rfl, rfl, rfl, .failed⟩
  | done text =>
    obtain ⟨job, phase, taken⟩ := t
    cases job with
    | read id parent => exact ⟨_, rfl, rfl, rfl, rfl, rfl, rfl, .read⟩
    | compile id =>
      obtain ⟨t', htasks, h⟩ := advanced_compileSource
        (s.setCache { s.cache with relations := trail.relations }) k id text phase trail.taken
      exact ⟨t', htasks, h.sources, h.version, h.relations, h.job, h.taken, h.arrives.congr rfl rfl rfl⟩

/-! ### All that an event can do -/

/-- The ways in which a task, the `k`-th one, becomes another with an event. -/
inductive Moves (s : Session) (k : Nat) (t : Task) : Event → Task → Session → Prop
  | starts {t' : Task} {s' : Session} : t.phase = .starting →
      s.Advanced t (Reading.readTemplate s.desk [] t.job.parent t.job.id (s.trail t)) t' s' →
      Moves s k t (.start k) t' s'
  | fetches {w : Reading.Wait} {s' : Session} : t.phase = .fetching w → s'.cache = s.cache →
      Moves s k t (.fetch k) { t with phase := .fetched w (s.tree.read (s.path w.id)) } s'
  /-- What was fetched is not taken as a text. -/
  | fails {w : Reading.Wait} {content : Except Files.Fault (List UInt8)} {f : Fault} {s' : Session} :
      t.phase = .fetched w content → s.textOf w.id content = .error f → s'.cache = s.cache →
      Moves s k t (.resume k) { t with phase := .finished (.error f) } s'
  | resumes {w : Reading.Wait} {content : Except Files.Fault (List UInt8)} {text : String}
      {t' : Task} {s' : Session} : t.phase = .fetched w content →
      s.textOf w.id content = .ok text →
      (s.receive w text).Advanced t
        (Reading.resume (s.receive w text).desk w text ((s.receive w text).trail t)) t' s' →
      Moves s k t (.resume k) t' s'

/-- The ways in which a session becomes another one with an event. -/
inductive Change (s : Session) : Event → Session → Prop
  /-- Nothing that is known of templates changes. -/
  | idle {e : Event} {s' : Session} : s'.cache = s.cache → s'.tasks = s.tasks →
      (∀ d, ¬ s.Invalidates e d) → Change s e s'
  /-- A task is made, which has not started yet. -/
  | begins {e : Event} {s' : Session} {job : Job} : s'.cache = s.cache →
      s'.tasks = s.tasks ++ [({ job } : Task)] →
      (∀ id, job = .compile id → ∃ name, s.normalize name = .ok id) →
      (∀ d, ¬ s.Invalidates e d) → Change s e s'
  | moves {k : Nat} {t t' : Task} {e : Event} {s' : Session} : s.tasks[k]? = some t →
      s'.tasks = s.tasks.set k t' → s.Moves k t e t' s' → Change s e s'
  | invalidates {name d : String} {s' : Session} : s.normalize name = .ok d →
      s'.cache = s.cache.invalidate d → s'.tasks = s.tasks → Change s (.invalidate name) s'
  | invalidatesAll {s' : Session} : s'.cache = s.cache.invalidateAll → s'.tasks = s.tasks →
      Change s .invalidateAll s'
  | clears {s' : Session} : s'.cache = s.cache.clear → s'.tasks = s.tasks → Change s .clear s'

section Task

variable {s : Session} {k : Nat} {t : Task}

/-- A task that has not started moves when it starts. -/
theorem moves_start (hk : s.tasks[k]? = some t) (hphase : t.phase = .starting) :
    ∃ t', (s.start k).tasks = s.tasks.set k t' ∧ s.Moves k t (.start k) t' (s.start k) := by
  obtain ⟨job, phase, taken⟩ := t
  subst hphase
  unfold start
  rw [hk]
  dsimp only
  cases job with
  | compile id =>
    obtain ⟨t', htasks, h⟩ := advanced_advance (s.note [.compiling id]) k ⟨.compile id, .starting, taken⟩
      (Reading.readTemplate s.desk [] none id ⟨s.cache.relations, taken⟩)
    exact ⟨t', htasks, .starts rfl (h.congr rfl rfl)⟩
  | read id parent =>
    obtain ⟨t', htasks, h⟩ := advanced_advance s k ⟨.read id parent, .starting, taken⟩
      (Reading.readTemplate s.desk [] parent id ⟨s.cache.relations, taken⟩)
    exact ⟨t', htasks, .starts rfl h⟩

/-- A task that waits for a file moves when the file is read. -/
theorem moves_fetch {w : Reading.Wait} (hk : s.tasks[k]? = some t) (hphase : t.phase = .fetching w) :
    ∃ t', (s.fetch k).tasks = s.tasks.set k t' ∧ s.Moves k t (.fetch k) t' (s.fetch k) := by
  unfold fetch
  rw [hk]
  dsimp only
  rw [hphase]
  exact ⟨_, rfl, .fetches hphase rfl⟩

theorem tasks_receive (s : Session) (w : Reading.Wait) (text : String) :
    (s.receive w text).tasks = s.tasks := by
  unfold receive keepText
  split <;> rfl

/-- A task whose file has been read fails, or it goes on with the text. -/
theorem resume_eq {w : Reading.Wait} {content : Except Files.Fault (List UInt8)}
    (hk : s.tasks[k]? = some t) (hphase : t.phase = .fetched w content) :
    s.resume k =
      match s.textOf w.id content with
      | .error f => s.finish k t (.error f)
      | .ok text => (s.receive w text).advance k t
          (Reading.resume (s.receive w text).desk w text ((s.receive w text).trail t)) := by
  unfold resume
  rw [hk]
  dsimp only
  rw [hphase]
  cases content with
  | error f => rfl
  | ok bytes =>
    unfold textOf
    dsimp only
    cases Reading.ofBytes s.shrinkers.stylesheet w.id bytes with
    | error f => rfl
    | ok text => rfl

/-- A task whose file has been read moves when it goes on. -/
theorem moves_resume {w : Reading.Wait} {content : Except Files.Fault (List UInt8)}
    (hk : s.tasks[k]? = some t) (hphase : t.phase = .fetched w content) :
    ∃ t', (s.resume k).tasks = s.tasks.set k t' ∧ s.Moves k t (.resume k) t' (s.resume k) := by
  rw [resume_eq hk hphase]
  cases htext : s.textOf w.id content with
  | error f => exact ⟨_, rfl, .fails hphase htext rfl⟩
  | ok text =>
    obtain ⟨t', htasks, h⟩ := advanced_advance (s.receive w text) k t
      (Reading.resume (s.receive w text).desk w text ((s.receive w text).trail t))
    rw [tasks_receive] at htasks
    exact ⟨t', htasks, .resumes hphase htext h⟩

end Task

/-! ### What an event does to the tasks -/

/-- An event of a task does nothing, or it moves the task. -/
def Rests (s : Session) (k : Nat) (e : Event) : Prop :=
  s.step e = s ∨ ∃ t t', s.tasks[k]? = some t ∧ (s.step e).tasks = s.tasks.set k t' ∧
    s.Moves k t e t' (s.step e)

theorem rests_start (s : Session) (k : Nat) : s.Rests k (.start k) := by
  by_cases h : ∃ t, s.tasks[k]? = some t ∧ t.phase = .starting
  · obtain ⟨t, hk, hphase⟩ := h
    obtain ⟨t', htasks, hmoves⟩ := moves_start hk hphase
    exact Or.inr ⟨t, t', hk, htasks, hmoves⟩
  · refine Or.inl ?_
    show s.start k = s
    unfold start
    split
    · next t hk =>
      split
      · next hphase => exact absurd ⟨t, hk, hphase⟩ h
      · rfl
    · rfl

theorem rests_fetch (s : Session) (k : Nat) : s.Rests k (.fetch k) := by
  by_cases h : ∃ t w, s.tasks[k]? = some t ∧ t.phase = .fetching w
  · obtain ⟨t, w, hk, hphase⟩ := h
    obtain ⟨t', htasks, hmoves⟩ := moves_fetch hk hphase
    exact Or.inr ⟨t, t', hk, htasks, hmoves⟩
  · refine Or.inl ?_
    show s.fetch k = s
    unfold fetch
    split
    · next t hk =>
      split
      · next w hphase => exact absurd ⟨t, w, hk, hphase⟩ h
      · rfl
    · rfl

theorem rests_resume (s : Session) (k : Nat) : s.Rests k (.resume k) := by
  by_cases h : ∃ t w content, s.tasks[k]? = some t ∧ t.phase = .fetched w content
  · obtain ⟨t, w, content, hk, hphase⟩ := h
    obtain ⟨t', htasks, hmoves⟩ := moves_resume hk hphase
    exact Or.inr ⟨t, t', hk, htasks, hmoves⟩
  · refine Or.inl ?_
    show s.resume k = s
    unfold resume
    split
    · next t hk =>
      split
      · next w f hphase => exact absurd ⟨t, w, _, hk, hphase⟩ h
      · next w bytes hphase => exact absurd ⟨t, w, _, hk, hphase⟩ h
      · rfl
    · rfl

theorem Rests.change {s : Session} {k : Nat} {e : Event} (h : s.Rests k e)
    (hno : ∀ d, ¬ s.Invalidates e d) : s.Change e (s.step e) := by
  rcases h with h | ⟨t, t', hk, htasks, hmoves⟩
  · rw [h]
    exact .idle rfl rfl hno
  · exact .moves hk htasks hmoves

/-- A step is one of the changes. -/
theorem change_step (s : Session) (e : Event) : s.Change e (s.step e) := by
  cases e with
  | call name =>
    unfold step
    dsimp only
    have hidle : ∀ d, ¬ s.Invalidates (.call name) d := fun _ h => h
    rcases s.call_cases name with ⟨f, -, h⟩ | ⟨id, hname, ⟨a, -, h⟩ | ⟨-, ⟨k, -, h⟩ | ⟨-, h⟩⟩⟩
    · rw [h]
      exact .idle rfl rfl hidle
    · rw [h]
      exact .idle rfl rfl hidle
    · rw [h]
      exact .idle rfl rfl hidle
    · rw [h]
      refine .begins rfl rfl ?_ hidle
      rintro _ ⟨⟩
      exact ⟨name, hname⟩
  | read id parent =>
    refine .begins rfl rfl ?_ fun _ h => h
    rintro _ ⟨⟩
  | start k => exact (s.rests_start k).change fun _ h => h
  | fetch k => exact (s.rests_fetch k).change fun _ h => h
  | resume k => exact (s.rests_resume k).change fun _ h => h
  | settle k =>
    have h : (s.settle k).cache = s.cache ∧ (s.settle k).tasks = s.tasks := by
      unfold settle
      split <;> exact ⟨rfl, rfl⟩
    exact .idle h.1 h.2 fun _ h => h
  | invalidate name =>
    cases h : s.normalize name with
    | error f =>
      rw [step_invalidate_error h]
      refine .idle rfl rfl fun d hd => ?_
      rw [Invalidates, h] at hd
      exact nomatch hd
    | ok id =>
      rw [step_invalidate_ok h]
      exact .invalidates h rfl rfl
  | invalidateAll => exact .invalidatesAll rfl rfl
  | clear => exact .clears rfl rfl
  | change tree => exact .idle rfl rfl fun _ h => h

end Session

end Stencil
