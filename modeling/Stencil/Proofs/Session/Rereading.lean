import Stencil.Proofs.Session.Coherence

/-!
# Reading a compiled template again

A settled session has in its cache every text that a compiled template is made of, and every relation
along which it was put together. So when a compiled template is read again nothing stops the reading: it is
answered by the start of its task, no file is asked for and nothing is added to the cache, and what is read
is what was compiled (`Settled.read_compiled`).

It is so after every sequence of actions (`compiled_is_read`), however the files change meanwhile, as long
as names lead where they led before. A link that is changed can lead them elsewhere, and then a template is
still compiled that cannot be read again (`Linked`).
-/

namespace Stencil

namespace Session

variable {s : Session}

/-- A task that only reads ends with the text and its versions. -/
theorem advance_done {k : Nat} {t : Task} {X flat : String} {parent : Option String} {trail : Trail}
    (hjob : t.job = .read X parent) :
    s.advance k t (.done flat, trail) =
      { s with
        cache := { s.cache with relations := trail.relations }
        tasks := s.tasks.set k
          { t with phase := .finished (.ok (.text flat trail.taken)), taken := trail.taken } } := by
  unfold advance
  dsimp only
  rw [hjob]
  rfl

/-- A task that reads starts with what is related, and with no version taken. -/
theorem start_callRead (X : String) :
    (s.callRead X none).2.start s.tasks.length =
      (s.callRead X none).2.advance s.tasks.length { job := .read X none }
        (Reading.readTemplate s.desk [] none X ⟨s.cache.relations, []⟩) := by
  have hk := s.task_callRead X none
  have hdesk : (s.callRead X none).2.desk = s.desk := rfl
  have htrail : (s.callRead X none).2.trail { job := .read X none } = ⟨s.cache.relations, []⟩ := rfl
  unfold start
  rw [hk]
  dsimp only [Job.id, Job.parent]
  rw [hdesk, htrail]

/-- What the cache holds whole is read when the task starts, and the cache stays as it is. -/
theorem start_read {X flat : String} (h : Enters s.cached [] X (.ok flat)) :
    ∃ taken, (s.callRead X none).2.start s.tasks.length =
      { s with tasks := s.tasks ++
          [{ job := .read X none, phase := .finished (.ok (.text flat taken)), taken }] } := by
  have hname : ∀ n x, s.cached.name n x → s.desk.normalize (String.ofList n) = x := by
    intro n x hn
    rw [normalize_desk]
    exact hn
  have htext : ∀ c text, s.cached.text c (.ok text) → s.desk.sources.get? c = some text := by
    rintro c _ ⟨text, ⟨⟩, hsource⟩
    exact hsource
  have hrelations : Trail.relations ⟨s.cache.relations, []⟩ = s.cache.relations := rfl
  obtain ⟨taken, hread⟩ :=
    Reading.readTemplate_of_enters s.desk hname htext (fun _ _ he => he) h hrelations
  refine ⟨taken, ?_⟩
  rw [start_callRead, hread, advance_done rfl]
  have htasks : (s.callRead X none).2.tasks = s.tasks ++ [{ job := .read X none }] := rfl
  rw [htasks, List.set_append_right _ _ le_rfl, Nat.sub_self, List.set_cons_zero]
  rfl

/-- A reading that fails when its task starts ends the task. -/
theorem start_failed {X : String} {f : Reading.Fault}
    (h : (Reading.readTemplate s.desk [] none X ⟨s.cache.relations, []⟩).1 = .failed f) :
    ∃ t ended, (s.callRead X none).2.start s.tasks.length = ended ∧
      ended.tasks[s.tasks.length]? = some t ∧ t.phase = .finished (.error (.ofReading f)) := by
  rw [start_callRead]
  generalize Reading.readTemplate s.desk [] none X ⟨s.cache.relations, []⟩ = read at h
  obtain ⟨outcome, trail⟩ := read
  obtain rfl : outcome = .failed f := h
  refine ⟨{ job := .read X none, phase := .finished (.error (.ofReading f)), taken := trail.taken }, _,
    rfl, ?_, rfl⟩
  have hlength : s.tasks.length < (s.callRead X none).2.tasks.length := by
    show s.tasks.length < (s.tasks ++ [_]).length
    simp
  exact List.getElem?_set_self hlength

/-- The answer to a task that reads. -/
def answer : Except Fault Product → Except Fault (String × Snapshot)
  | .ok (.text text taken) => .ok (text, taken)
  | .ok (.compiled _) => .error .unfinished
  | .error f => .error f

/-- A reading that ends when its task starts is answered then. -/
theorem readFlat_of_start {X : String} {ended : Session} {t : Task} {result : Except Fault Product}
    (hstart : (s.callRead X none).2.start s.tasks.length = ended)
    (hk : ended.tasks[s.tasks.length]? = some t) (hphase : t.phase = .finished result) :
    s.readFlat X none =
      (answer result, { ended with inflight := ended.inflight.filter (·.2 != s.tasks.length) }) := by
  have hstarting : (s.callRead X none).2.nextEvent s.tasks.length = some (.start s.tasks.length) := by
    unfold nextEvent
    rw [s.task_callRead X none]
  have hnone : ended.nextEvent s.tasks.length = none := by
    unfold nextEvent
    rw [hk]
    dsimp only
    rw [hphase]
  -- the patience is positive, so there is an event for the start
  have hcomplete : (s.callRead X none).2.complete s.tasks.length = ended.settle s.tasks.length := by
    unfold complete patience
    rw [runTask_next _ hstarting]
    show (runTask _ _ _ ((s.callRead X none).2.start s.tasks.length)).settle _ = _
    rw [hstart, runTask_none _ hnone]
  have hfinished : ended.isFinished s.tasks.length = true := by
    unfold isFinished
    rw [hk]
    obtain ⟨job, phase, taken⟩ := t
    cases hphase
    rfl
  have hresult : (ended.settle s.tasks.length).result s.tasks.length = result := by
    rw [settle_of_isFinished hfinished]
    exact result_of_finished hk hphase
  have hcall : s.callRead X none = (s.tasks.length, (s.callRead X none).2) := rfl
  unfold readFlat
  rw [hcall]
  dsimp only
  rw [hcomplete, hresult, settle_of_isFinished hfinished]
  rcases result with f | (a | ⟨text, taken⟩) <;> rfl

/-- What the cache holds whole is read at once: no file is asked for, and the cache stays as it is. -/
theorem readFlat_of_enters {X flat : String} (h : Enters s.cached [] X (.ok flat)) :
    ∃ taken, (s.readFlat X none).1 = .ok (flat, taken) ∧
      (s.readFlat X none).2.asked = s.asked ∧ (s.readFlat X none).2.cache = s.cache := by
  obtain ⟨taken, hstart⟩ := start_read h
  have hread := readFlat_of_start hstart List.getElem?_concat_length rfl
  rw [hread]
  exact ⟨taken, rfl, rfl, rfl⟩

theorem source_of_build {X flat : String} {template : CompiledTemplate}
    (h : s.build X flat = .ok template) : ∃ notes, s.shrink X flat = .ok (template.source, notes) := by
  unfold build at h
  cases hshrink : s.shrink X flat with
  | error f =>
    rw [hshrink] at h
    exact nomatch h
  | ok p =>
    obtain ⟨text, notes⟩ := p
    rw [hshrink] at h
    dsimp only at h
    unfold CompiledTemplate.compile at h
    cases hcompile : Language.Template.compile options text with
    | ok compiled =>
      rw [hcompile] at h
      cases h
      exact ⟨notes, rfl⟩
    | error f =>
      rw [hcompile] at h
      cases f <;> exact nomatch h

/-- A text that the template language takes is compiled where nothing is shrunk. -/
theorem exists_build {X text : String} (hcompress : s.settings.compress = false)
    (hlanguage : (Language.Template.compile options text).toOption.isSome = true) :
    ∃ template, s.build X text = .ok template := by
  have hshrink : s.shrink X text = .ok (text, []) := by
    unfold shrink
    rw [hcompress]
    rfl
  unfold build CompiledTemplate.compile
  rw [hshrink]
  dsimp only
  cases h : Language.Template.compile options text with
  | ok template => exact ⟨_, rfl⟩
  | error f =>
    rw [h] at hlanguage
    exact nomatch hlanguage

/-- A template that comes to a text which is compiled has a compiled form after its compile. -/
theorem Settled.exists_compiled (h : s.Settled)
    (hcurrent : ∀ d text, s.cache.sources.get? d = some text → s.load d = .ok text) {name X flat : String}
    (hname : s.normalize name = .ok X) (hnone : s.cache.compiled.get? X = none)
    (hgives : Gives s.onDisk [] X (.ok flat)) (hbuild : ∃ template, s.build X flat = .ok template) :
    ∃ a, (s.compile name).2.cache.compiled.get? X = some a := by
  obtain ⟨-, -, -, hstored, -⟩ := compile_spec h.toAtRest hname hnone
  obtain ⟨r, hgives', hresult⟩ := h.compile_onDisk hcurrent hname
  obtain rfl := onDisk_det hgives' hgives
  obtain ⟨template, hbuild⟩ := hbuild
  have hok : (s.compile name).1.map (·.template) = .ok template := hresult.trans hbuild
  cases hcompile : (s.compile name).1 with
  | error f =>
    rw [hcompile] at hok
    exact nomatch hok
  | ok a => exact ⟨a, hstored a hcompile⟩

/-- Reading what is compiled asks for no file and leaves the cache as it is, and what is read is what was
compiled. -/
theorem Settled.read_compiled (h : s.Settled) {X : String} {a : Artifact}
    (hX : s.cache.compiled.get? X = some a) :
    ∃ flat taken notes, (s.readFlat X none).1 = .ok (flat, taken) ∧
      (s.readFlat X none).2.asked = s.asked ∧ (s.readFlat X none).2.cache = s.cache ∧
      s.shrink X flat = .ok (a.template.source, notes) := by
  obtain ⟨flat, henters, hbuild⟩ := (h.built X a hX).2
  obtain ⟨taken, hread, hasked, hcache⟩ := readFlat_of_enters henters
  obtain ⟨notes, hshrink⟩ := source_of_build hbuild
  exact ⟨flat, taken, notes, hread, hasked, hcache, hshrink⟩

end Session

/-- After every sequence of actions, in which files may change as they like, each compiled template can be
read again from the cache: no file is asked for, the texts, the compiled templates and the relations stay as
they are, and what is read is, shrunk, the source of what is compiled. Only what names are brought to must
not change with the files. -/
theorem compiled_is_read (settings : Config.Settings) (shrinkers : Shrinkers) (tree : Files.Tree)
    {actions : List Action}
    (hchange : ∀ t name, .change t ∈ actions →
      Identifier.normalize t settings.root settings.root name =
        Identifier.normalize tree settings.root settings.root name)
    {X : String} {a : Artifact}
    (hX : (Session.performAll { settings, shrinkers, tree } actions).cache.compiled.get? X = some a) :
    let s := Session.performAll { settings, shrinkers, tree } actions
    ∃ flat taken notes, (s.readFlat X none).1 = .ok (flat, taken) ∧
      (s.readFlat X none).2.asked = s.asked ∧ (s.readFlat X none).2.cache = s.cache ∧
      s.shrink X flat = .ok (a.template.source, notes) := by
  have hnew : Session.Settled { settings, shrinkers, tree } := Session.settled_new settings shrinkers tree
  exact (Session.settled_performAll hnew actions hchange).read_compiled hX

/-! ### A name that leads over a link -/

namespace Linked

/-- The bytes of a text in one byte each. -/
def bytes (text : String) : List UInt8 := text.toList.map fun c => c.toNat.toUInt8

/-- A template that includes another one by a link outside of the root. -/
def tree : Files.Tree :=
  { entries := [(["l"], .link "/v/b.mjs"), (["v"], .directory),
      (["v", "a.mjs"], .file (bytes "<%include '/l'%>")), (["v", "b.mjs"], .file (bytes "b"))] }

def settings : Config.Settings := { root := "/v", compress := false }

/-- A compiler of these templates that has not been used. -/
def session : Session := { settings, tree }

theorem settled_session : session.Settled := Session.settled_new settings {} tree

theorem realPath_link : tree.realPath "/l" = "/v/b.mjs" := by
  have hl : Files.components "/l" = ["l"] := by decide
  have hb : Files.components "/v/b.mjs" = ["v", "b.mjs"] := by decide
  have hstart : Files.Tree.startOf [] "/v/b.mjs" = [] := by decide
  have hlink : tree.glimpse? ([] ++ ["l"]) = some (.link "/v/b.mjs") := by decide
  have hdirectory : tree.glimpse? ["v"] = some .directory := by decide
  have hfile : tree.glimpse? ["v", "b.mjs"] = some (.file (bytes "b")) := by decide
  rw [Files.Tree.realPath, hl, Files.Tree.settle_link (by decide) hlink List.not_mem_nil, hb, hstart]
  simp [Files.Tree.settle, hdirectory, hfile]
  decide

theorem realPath_root {t : Files.Tree} (h : t.entry? ["v"] = some .directory) :
    t.realPath "/v" = "/v" := by
  have hv : Files.components "/v" = ["v"] := by decide
  have hno : ∀ target, t.glimpse? ([] ++ ["v"]) ≠ some (.link target) := by
    intro target hlink
    exact nomatch h.symm.trans (Files.Tree.entry?_of_glimpse? hlink)
  rw [Files.Tree.realPath, hv, Files.Tree.settle_plain (by decide) hno, Files.Tree.settle_nil]
  decide

/-- A name outside of the root is brought to what its real path is below it. -/
theorem normalize_l {t : Files.Tree} (h : t.entry? ["v"] = some .directory) :
    Identifier.normalize t "/v" "/v" "/l" =
      (Identifier.relative? "/v" (t.realPath "/l")).elim (.error (.outside "/l" "/v"))
        fun names => .ok (Files.joinNames names) := by
  have hroot : Files.absolute "/v" "/v" = "/v" := by decide
  have hfull : Files.tidy (Files.join "/v" "/l") = "/l" := by decide
  have houtside : Identifier.relative? "/v" "/l" = none := by decide
  have habsolute : Files.isAbsolute "/l" = true := by decide
  unfold Identifier.normalize
  dsimp only
  rw [hroot, hfull, houtside, realPath_root h]
  cases Identifier.relative? "/v" (t.realPath "/l") <;> simp [habsolute]

/-- With the link the name leads to a template. -/
theorem normalize_link : Identifier.normalize tree "/v" "/v" "/l" = .ok "b.mjs" := by
  rw [normalize_l rfl, realPath_link]
  decide

/-- Without the link the name leads out of the root. -/
theorem normalize_unlinked :
    Identifier.normalize (tree.remove ["l"]) "/v" "/v" "/l" = .error (.outside "/l" "/v") := by
  have hl : Files.components "/l" = ["l"] := by decide
  have hreal : (tree.remove ["l"]).realPath "/l" = "/l" := by
    rw [Files.Tree.realPath, hl]
    simp [Files.Tree.settle, Files.Tree.glimpse?, Files.Tree.shut, Files.Tree.entry?, Files.Tree.remove,
      Files.Tree.below, tree]
    decide
  rw [normalize_l rfl, hreal]
  decide

theorem load_a : session.load "a.mjs" = .ok "<%include '/l'%>" := by
  have hpath : Files.components (session.path "a.mjs") = ["v", "a.mjs"] := by decide
  have hentry : session.tree.entry? ["v", "a.mjs"] = some (.file (bytes "<%include '/l'%>")) := by decide
  exact Session.load_of_entries hpath (by decide) (by decide) (by decide) (by decide) hentry (by decide) (by decide)

theorem load_b : session.load "b.mjs" = .ok "b" := by
  have hpath : Files.components (session.path "b.mjs") = ["v", "b.mjs"] := by decide
  have hentry : session.tree.entry? ["v", "b.mjs"] = some (.file (bytes "b")) := by decide
  exact Session.load_of_entries hpath (by decide) (by decide) (by decide) (by decide) hentry (by decide) (by decide)

/-- The first template is nothing but an include. -/
theorem segments_a :
    segmentsOf "a.mjs" "<%include '/l'%>" = [.literal [], .include ['/', 'l'], .literal []] := by
  have htemplate : Identifier.isTemplate "a.mjs" = true := by decide
  have hinclude : include? "<%include '/l'%>".toList = some (['/', 'l'], []) := by decide
  rw [segmentsOf, if_pos htemplate, segments, segmentsAfter_include hinclude, segmentsAfter_nil]
  rfl

/-- The other one is nothing but text. -/
theorem segments_b : segmentsOf "b.mjs" "b" = [.literal ['b']] :=
  segmentsOf_single (by decide) (by decide) (by decide)

/-- On disk, the first template comes to the text of the other one. -/
theorem gives_a : Gives session.onDisk [] "a.mjs" (.ok "b") := by
  have hname : session.onDisk.name ['/', 'l'] (.ok "b.mjs") := normalize_link
  have hb : Reads session.onDisk ["b.mjs", "a.mjs"] (segmentsOf "b.mjs" "b") (.ok "b") := by
    rw [segments_b]
    exact .literal .nil
  refine Or.inr ⟨List.not_mem_nil, Or.inr ⟨_, load_a, ?_⟩⟩
  rw [segments_a]
  exact .literal (.filled hname (by decide) trivial load_b hb (.literal .nil))

theorem build_b : ∃ template, session.build "a.mjs" "b" = .ok template :=
  Session.exists_build rfl (by decide)

/-- While the link is there the first template is compiled. -/
theorem compiled_a : ∃ a, (session.compile "a.mjs").2.cache.compiled.get? "a.mjs" = some a := by
  have hname : session.normalize "a.mjs" = .ok "a.mjs" := by decide
  exact settled_session.exists_compiled (fun _ _ hd => nomatch hd) hname rfl gives_a build_b

/-- A template that was compiled over a link is read again while the link is there. -/
theorem compiled_is_read_over_link :
    ∃ a, (Session.performAll session [.compile "a.mjs"]).cache.compiled.get? "a.mjs" = some a ∧
      let s := Session.performAll session [.compile "a.mjs"]
      ∃ flat taken notes, (s.readFlat "a.mjs" none).1 = .ok (flat, taken) ∧
        (s.readFlat "a.mjs" none).2.asked = s.asked ∧ (s.readFlat "a.mjs" none).2.cache = s.cache ∧
        s.shrink "a.mjs" flat = .ok (a.template.source, notes) := by
  obtain ⟨a, ha⟩ := compiled_a
  have hchange : ∀ t name, .change t ∈ [Action.compile "a.mjs"] →
      Identifier.normalize t settings.root settings.root name =
        Identifier.normalize tree settings.root settings.root name := by
    intro t name ht
    exact absurd ht (by simp)
  exact ⟨a, ha, compiled_is_read settings {} tree hchange ha⟩

/-- The text of the first template is in the cache then. -/
theorem source_a :
    (session.compile "a.mjs").2.cache.sources.get? "a.mjs" = some "<%include '/l'%>" := by
  obtain ⟨hsettled, hgrows⟩ := settled_session.compile "a.mjs"
  obtain ⟨a, ha⟩ := compiled_a
  obtain ⟨text, hsource⟩ := (hsettled.built _ a ha).2.source
  rcases hgrows.loads _ text hsource with hold | hload
  · exact nomatch hold
  · rw [load_a, Except.ok.injEq] at hload
    rw [hsource, hload]

/-- Without the link the first template is not read, be its text in the cache or not. -/
theorem readFlat_unlinked {s : Session} (hsettings : s.settings = settings)
    (htree : s.tree = tree.remove ["l"])
    (hsource : s.cache.sources.get? "a.mjs" = some "<%include '/l'%>") :
    (s.readFlat "a.mjs" none).1 = .error (.name (.outside "/l" "/v")) := by
  have hname : s.desk.normalize (String.ofList ['/', 'l']) = .error (.outside "/l" "/v") := by
    rw [Session.normalize_desk, Session.normalize, Session.root, hsettings, htree]
    exact normalize_unlinked
  have hread : ∀ t, (Reading.readTemplate s.desk [] none "a.mjs" t).1 =
      .failed (.name (.outside "/l" "/v")) := by
    intro t
    rw [Reading.readTemplate_text s.desk List.not_mem_nil hsource, segments_a,
      Reading.readSegments_literal, Reading.readSegments_unnamed s.desk _ _ _ hname]
  obtain ⟨t, ended, hstart, hk, hphase⟩ := Session.start_failed (hread ⟨s.cache.relations, []⟩)
  rw [Session.readFlat_of_start hstart hk hphase]
  rfl

/-- It is not read again after the link is deleted, though it is still compiled. -/
theorem compiled_not_read_without_link :
    let s := Session.performAll session [.compile "a.mjs", .change (tree.remove ["l"])]
    (∃ a, s.cache.compiled.get? "a.mjs" = some a) ∧
      (s.readFlat "a.mjs" none).1 = .error (.name (.outside "/l" "/v")) := by
  intro s
  have hsettings : s.settings = settings := (settled_session.compile "a.mjs").2.settings
  exact ⟨compiled_a, readFlat_unlinked hsettings rfl source_a⟩

end Linked

end Stencil
