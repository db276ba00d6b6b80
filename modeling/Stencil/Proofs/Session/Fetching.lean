import Stencil.Proofs.Session.Account
import Stencil.Proofs.Session.Flattening

/-!
# Each file is fetched once

What is done with a compiler leaves a history (`Session.history`): the templates whose files were asked for, each
with whether its text could be had, and the invalidations. A task asks for no template twice, and for none whose
text is cached; a text that can be had is cached when its task has ended; and a cached text stays until its own
template is invalidated, or all are, or the cache is emptied. So a template that has been fetched is not fetched
again before one of these (`fetched_once`), whatever else is compiled, fails or is invalidated meanwhile.
-/

namespace Stencil

/-- What is done with a compiler in sequence, the reading of a template included. -/
inductive Deed where
  | action (a : Action)
  | read (id : String) (parent : Option String)

/-- What a deed leaves in the history. -/
inductive Mark where
  /-- The file of a template was asked for, and its text was loaded or not. -/
  | fetched (id : String) (loaded : Bool)
  | invalidated (id : String)
  /-- All templates were invalidated, or the cache was emptied. -/
  | reset

/-- A mark is of something by which the text of a template is dropped from the cache. -/
def Mark.Drops (d : String) : Mark → Prop
  | fetched .. => False
  | invalidated id => id = d
  | reset => True

namespace Session

/-- The session after a deed. -/
def carry (s : Session) : Deed → Session
  | .action a => s.perform a
  | .read id parent => (s.readFlat id parent).2

/-- The invalidation that a deed is. -/
def drops (s : Session) : Deed → List Mark
  | .action (.invalidate name) =>
    match s.normalize name with
    | .ok id => [.invalidated id]
    | .error _ => []
  | .action .invalidateAll | .action .clear => [.reset]
  | _ => []

/-- The files that have been asked for since `s`, while the files were what they are in `s`. -/
def fetches (s s' : Session) : List Mark :=
  (s'.asked.drop s.asked.length).map fun d => .fetched d (s.load d).isOk

/-- What a deed leaves in the history. -/
def marks (s : Session) (deed : Deed) : List Mark := s.drops deed ++ s.fetches (s.carry deed)

/-- The history of some deeds. -/
def history (s : Session) : List Deed → List Mark
  | [] => []
  | deed :: rest => s.marks deed ++ (s.carry deed).history rest

variable {s s' s'' : Session} {new new' : List String} {d : String} {deed : Deed}

/-! ### What calls ask for -/

/-- Since the session `s` the cache has only grown, and the files of some templates were asked for: of none with
a text, and of none again whose text could be had, which has a text then. -/
structure Asks (s : Session) (new : List String) (s' : Session) : Prop where
  grows : Grows s s'
  asked : s'.asked = s.asked ++ new
  absent : ∀ d ∈ new, s.cache.sources.get? d = none
  once : new.Pairwise fun c d => (s.load c).isOk → d ≠ c
  had : ∀ d ∈ new, (s.load d).isOk → (s'.cache.sources.get? d).isSome
  comes : ∀ d text, s'.cache.sources.get? d = some text → s.cache.sources.get? d = some text ∨ d ∈ new

/-- What leaves the files and the cache alone and asks for nothing. -/
theorem Asks.quiet (hgrows : Grows s s') (hcache : s'.cache = s.cache) (hasked : s'.asked = s.asked) :
    Asks s [] s' := by
  refine ⟨hgrows, hasked.trans (List.append_nil _).symm, ?_, .nil, ?_, fun d text hd => Or.inl (hcache ▸ hd)⟩
  · exact fun d hd => nomatch hd
  · exact fun d hd => nomatch hd

theorem Asks.trans (h : Asks s new s') (h' : Asks s' new' s'') : Asks s (new ++ new') s'' := by
  have habsent : ∀ d ∈ new', s.cache.sources.get? d = none := by
    intro d hd
    refine Option.eq_none_iff_forall_ne_some.2 fun text htext => ?_
    exact nomatch (h'.absent d hd).symm.trans (h.grows.keeps d text htext)
  have honce := h'.once
  have hhad := h'.had
  rw [h.grows.load] at honce hhad
  refine ⟨h.grows.trans h'.grows, ?_, ?_, List.pairwise_append.2 ⟨h.once, honce, ?_⟩, ?_, ?_⟩
  · rw [h'.asked, h.asked, List.append_assoc]
  · intro d hd
    rcases List.mem_append.1 hd with hd | hd
    · exact h.absent d hd
    · exact habsent d hd
  · rintro c hc d hd hload rfl
    have hsome := h.had d hc hload
    rw [h'.absent d hd] at hsome
    exact nomatch hsome
  · intro d hd hload
    rcases List.mem_append.1 hd with hd | hd
    · obtain ⟨text, htext⟩ := Option.isSome_iff_exists.1 (h.had d hd hload)
      rw [h'.grows.keeps d text htext]
      rfl
    · exact hhad d hd hload
  · intro d text hd
    rcases h'.comes d text hd with hd | hd
    · exact (h.comes d text hd).imp_right (List.mem_append_left _)
    · exact Or.inr (List.mem_append_right _ hd)

/-- A task that is carried through asks for no template twice, and has the texts that it could have. -/
theorem asks_complete {k : Nat} {job : Job} (hk : s.tasks[k]? = some { job }) :
    ∃ new, Asks s new (s.complete k) := by
  obtain ⟨hunderway, hfinished⟩ := runTask_new hk
  obtain ⟨t, new, hk', haccount, hnodup⟩ :=
    accounted_runTask s.patience ⟨_, [], hk, account_new s job, .nil⟩ (underway_new hk)
  obtain ⟨t', result, hk'', hphase⟩ := finished_of_isFinished hfinished
  obtain rfl : t' = t := Option.some.inj (hk''.symm.trans hk')
  have hcomplete : s.complete k = _ := settle_of_isFinished hfinished
  generalize runTask _ k s.patience s = s₂ at hunderway haccount hcomplete
  have hasks : Asks s new s₂ := by
    refine ⟨hunderway.grows, haccount.asked, haccount.absent, ?_, ?_, haccount.comes⟩
    · exact hnodup.imp fun hne _ => hne.symm
    · intro d hd hload
      rcases haccount.had d hd with hsome | hawaits | ⟨f, -, herror⟩
      · exact hsome
      · rw [hphase] at hawaits
        exact nomatch hawaits
      · rw [herror] at hload
        exact nomatch hload
  refine ⟨new ++ [], hasks.trans ?_⟩
  rw [hcomplete]
  exact .quiet (.of_cache rfl rfl rfl rfl) rfl rfl

theorem asks_compile (hrest : s.AtRest) (name : String) : ∃ new, Asks s new (s.compile name).2 := by
  rcases s.compile_cases name with ⟨f, -, hcompile⟩ | ⟨X, hname, ⟨a, -, hcompile⟩ | hnone⟩
  · rw [hcompile]
    exact ⟨[], .quiet (.refl s) rfl rfl⟩
  · rw [hcompile]
    exact ⟨[], .quiet (.refl s) rfl rfl⟩
  · have hk := s.task_withCompile X
    obtain ⟨new, hasks⟩ := asks_complete hk
    have hmade : Asks s [] (s.withCompile X) := .quiet (.of_cache rfl rfl rfl rfl) rfl rfl
    rw [compile_of_none hrest hname hnone]
    exact ⟨[] ++ new, hmade.trans hasks⟩

theorem asks_readFlat (s : Session) (X : String) (parent : Option String) :
    ∃ new, Asks s new (s.readFlat X parent).2 := by
  have hk := s.task_callRead X parent
  obtain ⟨new, hasks⟩ := asks_complete hk
  have hmade : Asks s [] (s.callRead X parent).2 := .quiet (.of_cache rfl rfl rfl rfl) rfl rfl
  rw [readFlat_eq]
  exact ⟨[] ++ new, hmade.trans hasks⟩

/-- A reading leaves a session at rest. -/
theorem AtRest.readFlat (h : s.AtRest) (X : String) (parent : Option String) :
    (s.readFlat X parent).2.AtRest := by
  have hk := s.task_callRead X parent
  obtain ⟨s₂, hunderway, hfinished, hcomplete⟩ := complete_new hk
  rw [readFlat_eq, hcomplete]
  refine hunderway.atRest rfl (fun p hp => ?_) hfinished h
  have hp' : p ∈ s.inflight := hp
  rw [h.inflight] at hp'
  exact nomatch hp'

/-- What compiles templates leaves a session at rest that has asked for what it needed. -/
theorem AtRest.asks (h : s.AtRest) {a : Action} (ha : a.Compiles) :
    (s.perform a).AtRest ∧ ∃ new, Asks s new (s.perform a) := by
  have hcompile : ∀ (s' : Session) name, (s'.AtRest ∧ ∃ new, Asks s new s') →
      (s'.compile name).2.AtRest ∧ ∃ new, Asks s new (s'.compile name).2 := by
    rintro s' name ⟨hrest, new, hasks⟩
    obtain ⟨new', hasks'⟩ := asks_compile hrest name
    exact ⟨(hrest.compile name).1, new ++ new', hasks.trans hasks'⟩
  have hnew : s.AtRest ∧ ∃ new, Asks s new s := ⟨h, [], .quiet (.refl s) rfl rfl⟩
  cases a with
  | compile name =>
    rw [Session.perform]
    exact hcompile s name hnew
  | render name data =>
    rw [Session.perform, render_session]
    exact hcompile s name hnew
  | precompile directory =>
    rw [Session.perform]
    refine precompile_keeps ?_ hcompile s directory hnew
    rintro s' notes ⟨hrest, new, hasks⟩
    exact ⟨⟨hrest.ended, hrest.inflight⟩, new ++ [], hasks.trans (.quiet (.of_cache rfl rfl rfl rfl) rfl rfl)⟩
  | invalidate name => exact ha.elim
  | invalidateAll => exact ha.elim
  | clear => exact ha.elim
  | change tree => exact ha.elim

/-- A template without a text has one when it has been read, if it can be had. -/
theorem source_readFlat {X : String} (hload : (s.load X).isOk) (parent : Option String) :
    ∃ text, (s.readFlat X parent).2.cache.sources.get? X = some text := by
  obtain ⟨hgrows, r, hgives, -⟩ := s.readFlat_spec X parent
  rcases hgives with ⟨hmem, -⟩ | ⟨-, ⟨e, herror, -⟩ | ⟨text, htext, -⟩⟩
  · exact nomatch hmem
  · rcases herror with ⟨text, hok, -⟩ | ⟨e', -, -, herror⟩
    · exact nomatch hok
    · rw [← hgrows.load, herror] at hload
      exact nomatch hload
  · rcases htext with ⟨text', -, hsource⟩ | ⟨e, herror, -⟩
    · exact ⟨text', hsource⟩
    · exact nomatch herror

/-- Such a reading has fetched its template. -/
theorem fetched_of_read {X : String} (hload : (s.load X).isOk) (habsent : s.cache.sources.get? X = none)
    (parent : Option String) : .fetched X true ∈ s.marks (.read X parent) := by
  obtain ⟨new, hasks⟩ := asks_readFlat s X parent
  obtain ⟨text, htext⟩ := source_readFlat hload parent
  have hmem : X ∈ new := by
    refine (hasks.comes X text htext).resolve_left fun hsource => ?_
    exact nomatch habsent.symm.trans hsource
  refine List.mem_append_right _ ?_
  show _ ∈ (List.drop _ (s.readFlat X parent).2.asked).map _
  rw [hasks.asked, List.drop_left]
  exact List.mem_map.2 ⟨X, hmem, by rw [hload]⟩

/-! ### What a deed leaves in the history -/

/-- What the marks of a deed tell: no template was fetched that had a text, none was fetched after it had been
loaded, what was loaded has a text, and a text is dropped only with a mark of that. -/
structure Marked (s : Session) (deed : Deed) : Prop where
  rest : (s.carry deed).AtRest
  absent : ∀ d loaded, .fetched d loaded ∈ s.marks deed → s.cache.sources.get? d = none
  once : (s.marks deed).Pairwise fun m m' => ∀ d loaded, m = .fetched d true → m' ≠ .fetched d loaded
  had : ∀ d, .fetched d true ∈ s.marks deed → ((s.carry deed).cache.sources.get? d).isSome
  keeps : ∀ d, (s.cache.sources.get? d).isSome →
    ((s.carry deed).cache.sources.get? d).isSome ∨ ∃ m ∈ s.marks deed, m.Drops d

theorem marked_of_asks (hdrops : s.drops deed = []) (hrest : (s.carry deed).AtRest)
    (hasks : Asks s new (s.carry deed)) : s.Marked deed := by
  have hmarks : s.marks deed = new.map fun d => .fetched d (s.load d).isOk := by
    rw [marks, hdrops, fetches, hasks.asked, List.drop_left, List.nil_append]
  have hmem : ∀ d loaded, .fetched d loaded ∈ s.marks deed → d ∈ new ∧ (s.load d).isOk = loaded := by
    intro d loaded hd
    rw [hmarks] at hd
    obtain ⟨c, hc, hcd⟩ := List.mem_map.1 hd
    cases hcd
    exact ⟨hc, rfl⟩
  refine ⟨hrest, fun d loaded hd => hasks.absent d (hmem d loaded hd).1, ?_, ?_, ?_⟩
  · rw [hmarks, List.pairwise_map]
    refine hasks.once.imp fun {c d} hcd e loaded hc hd => ?_
    rw [Mark.fetched.injEq] at hc hd
    obtain ⟨rfl, hload⟩ := hc
    exact hcd hload hd.1
  · intro d hd
    obtain ⟨hd, hload⟩ := hmem d true hd
    exact hasks.had d hd hload
  · intro d hd
    obtain ⟨text, htext⟩ := Option.isSome_iff_exists.1 hd
    rw [hasks.grows.keeps d text htext]
    exact Or.inl rfl

/-- A deed that asks for nothing and drops no text but with its mark. -/
theorem marked_of_drops (hrest : (s.carry deed).AtRest) (hasked : (s.carry deed).asked = s.asked)
    (hfetched : ∀ m ∈ s.drops deed, ∀ d loaded, m ≠ .fetched d loaded)
    (hkeeps : ∀ d, (s.cache.sources.get? d).isSome →
      ((s.carry deed).cache.sources.get? d).isSome ∨ ∃ m ∈ s.drops deed, m.Drops d) : s.Marked deed := by
  have hmarks : s.marks deed = s.drops deed := by
    rw [marks, fetches, hasked, List.drop_length, List.map_nil, List.append_nil]
  rw [← hmarks] at hfetched hkeeps
  refine ⟨hrest, ?_, ?_, ?_, hkeeps⟩
  · exact fun d loaded hd => absurd rfl (hfetched _ hd d loaded)
  · exact List.pairwise_of_forall_mem_list fun m _ m' hm' d loaded _ => hfetched m' hm' d loaded
  · exact fun d hd => absurd rfl (hfetched _ hd d true)

theorem carry_invalidate (s : Session) (name : String) :
    s.carry (.action (.invalidate name)) = s.step (.invalidate name) := rfl

/-- An invalidation drops the text of its template only, and one of a name that is refused drops none. -/
theorem AtRest.marked_invalidate (h : s.AtRest) (name : String) : s.Marked (.action (.invalidate name)) := by
  cases hname : s.normalize name with
  | error f =>
    have hcarry : s.carry (.action (.invalidate name)) = s := by
      rw [carry_invalidate, step_invalidate_error hname]
    have hdrops : s.drops (.action (.invalidate name)) = [] := by
      unfold drops
      dsimp only
      rw [hname]
    have hasks : Asks s [] (s.carry (.action (.invalidate name))) := by
      rw [hcarry]
      exact .quiet (.refl s) rfl rfl
    exact marked_of_asks hdrops (hcarry.symm ▸ h) hasks
  | ok c =>
    have hcarry := (s.carry_invalidate name).trans (step_invalidate_ok hname)
    have hdrops : s.drops (.action (.invalidate name)) = [.invalidated c] := by
      unfold drops
      dsimp only
      rw [hname]
    refine marked_of_drops ?_ ?_ ?_ ?_
    · rw [hcarry]
      exact ⟨h.ended, h.inflight⟩
    · rw [hcarry]
      rfl
    · rw [hdrops]
      rintro m hm d loaded rfl
      exact nomatch List.mem_singleton.1 hm
    · intro d hd
      rw [hcarry, hdrops]
      by_cases hdc : d = c
      · exact Or.inr ⟨_, List.mem_singleton_self _, hdc.symm⟩
      · refine Or.inl ?_
        show ((s.cache.invalidate c).sources.get? d).isSome
        rw [Cache.sources_invalidate, if_neg hdc]
        exact hd

/-- A deed with the one mark that drops every text may drop any. -/
theorem marked_of_reset (hrest : (s.carry deed).AtRest) (hasked : (s.carry deed).asked = s.asked)
    (hdrops : s.drops deed = [.reset]) : s.Marked deed := by
  refine marked_of_drops hrest hasked ?_ fun d _ => Or.inr ⟨.reset, ?_, trivial⟩
  · rw [hdrops]
    rintro m hm d loaded rfl
    exact nomatch List.mem_singleton.1 hm
  · rw [hdrops]
    exact List.mem_singleton_self _

/-- Every deed is marked. -/
theorem AtRest.marked (h : s.AtRest) (deed : Deed) : s.Marked deed := by
  have hcompiles : ∀ a : Action, a.Compiles → s.drops (.action a) = [] → s.Marked (.action a) := by
    intro a ha hdrops
    obtain ⟨hrest, new, hasks⟩ := h.asks ha
    exact marked_of_asks hdrops hrest hasks
  cases deed with
  | read id parent =>
    obtain ⟨new, hasks⟩ := asks_readFlat s id parent
    exact marked_of_asks rfl (h.readFlat id parent) hasks
  | action a =>
    cases a with
    | compile name => exact hcompiles _ trivial rfl
    | render name data => exact hcompiles _ trivial rfl
    | precompile directory => exact hcompiles _ trivial rfl
    | invalidate name => exact h.marked_invalidate name
    | invalidateAll => exact marked_of_reset ⟨h.ended, h.inflight⟩ rfl rfl
    | clear => exact marked_of_reset ⟨h.ended, h.inflight⟩ rfl rfl
    | change tree =>
      have hrest : (s.carry (.action (.change tree))).AtRest := ⟨h.ended, h.inflight⟩
      exact marked_of_drops hrest rfl (fun m hm => nomatch hm) fun d hd => Or.inl hd

/-! ### Histories -/

/-- A mark in one history after another is in the first one or in the second one. -/
theorem append_eq_append_cons {α : Type} {l₁ l₂ l₃ l₄ : List α} {x : α} (h : l₁ ++ l₂ = l₃ ++ x :: l₄) :
    (∃ l, l₃ = l₁ ++ l ∧ l₂ = l ++ x :: l₄) ∨ ∃ l, l₁ = l₃ ++ x :: l ∧ l₄ = l ++ l₂ := by
  rcases List.append_eq_append_iff.1 h with ⟨l, h₃, h₂⟩ | ⟨l, h₁, h₂⟩
  · exact Or.inl ⟨l, h₃, h₂⟩
  · cases l with
    | nil =>
      rw [List.append_nil] at h₁
      exact Or.inl ⟨[], by rw [h₁, List.append_nil], h₂.symm⟩
    | cons y l =>
      obtain ⟨rfl, h₄⟩ := List.cons.inj h₂
      exact Or.inr ⟨l, h₁, h₄⟩

/-- A template with a text is fetched after something by which the text is dropped. -/
theorem dropped_before_fetched {deeds : List Deed} {between after : List Mark} {loaded : Bool}
    (hrest : s.AtRest) (hd : (s.cache.sources.get? d).isSome)
    (h : s.history deeds = between ++ .fetched d loaded :: after) : ∃ m ∈ between, m.Drops d := by
  induction deeds generalizing s between with
  | nil => exact absurd h.symm (by simp [history])
  | cons deed deeds ih =>
    have hmarked := hrest.marked deed
    rw [history] at h
    rcases append_eq_append_cons h with ⟨rest, rfl, hlater⟩ | ⟨rest, hnow, -⟩
    · rcases hmarked.keeps d hd with hkept | ⟨m, hm, hdrops⟩
      · obtain ⟨m, hm, hdrops⟩ := ih hmarked.rest hkept hlater
        exact ⟨m, List.mem_append_right _ hm, hdrops⟩
      · exact ⟨m, List.mem_append_left _ hm, hdrops⟩
    · have habsent := hmarked.absent d loaded (by rw [hnow]; exact List.mem_append_right _ List.mem_cons_self)
      rw [habsent] at hd
      exact nomatch hd

end Session

/-- A template that has been fetched and loaded is fetched again only after it was invalidated, or all were, or
the cache was emptied. -/
theorem fetched_once {s : Session} (hrest : s.AtRest) {deeds : List Deed} {before between after : List Mark}
    {d : String} {loaded : Bool}
    (h : s.history deeds = before ++ .fetched d true :: (between ++ .fetched d loaded :: after)) :
    ∃ m ∈ between, m.Drops d := by
  induction deeds generalizing s before with
  | nil => exact absurd h.symm (by simp [Session.history])
  | cons deed deeds ih =>
    have hmarked := hrest.marked deed
    rw [Session.history] at h
    rcases Session.append_eq_append_cons h with ⟨rest, -, hlater⟩ | ⟨rest, hnow, hrest'⟩
    · exact ih hmarked.rest hlater
    -- the first fetch was with this deed, and the second one was not
    rcases Session.append_eq_append_cons hrest'.symm with ⟨rest', rfl, hlater⟩ | ⟨rest', rfl, -⟩
    · have hhad := hmarked.had d (by rw [hnow]; exact List.mem_append_right _ List.mem_cons_self)
      obtain ⟨m, hm, hdrops⟩ := Session.dropped_before_fetched hmarked.rest hhad hlater
      exact ⟨m, List.mem_append_right _ hm, hdrops⟩
    · have honce := hmarked.once
      rw [hnow] at honce
      have hcons := (List.pairwise_append.1 honce).2.1
      refine absurd rfl ((List.pairwise_cons.1 hcons).1 (.fetched d loaded) ?_ d loaded rfl)
      exact List.mem_append_right _ List.mem_cons_self

namespace Linked

/-- A template is read, invalidated and read again. -/
theorem fetched_once_b :
    ∃ before between after, session.AtRest ∧
      session.history [.read "b.mjs" none, .action (.invalidate "b.mjs"), .read "b.mjs" none] =
        before ++ .fetched "b.mjs" true :: (between ++ .fetched "b.mjs" true :: after) ∧
      ∃ m ∈ between, m.Drops "b.mjs" := by
  have hrest : session.AtRest := settled_session.toAtRest
  have hload : (session.load "b.mjs").isOk := by
    rw [load_b]
    rfl
  have hname : session.normalize "b.mjs" = .ok "b.mjs" := by decide
  obtain ⟨hgrows, -⟩ := session.readFlat_spec "b.mjs" none
  obtain ⟨before, rest, hfirst⟩ := List.append_of_mem (Session.fetched_of_read hload rfl none)
  generalize hs : session.carry (.read "b.mjs" none) = s
  have hgrows' : Session.Grows session s := hs ▸ hgrows
  have hcarry := (s.carry_invalidate "b.mjs").trans
    (Session.step_invalidate_ok (by rw [hgrows'.normalize, hname]))
  have hload' : ((s.carry (.action (.invalidate "b.mjs"))).load "b.mjs").isOk := by
    rw [hcarry]
    show (s.load "b.mjs").isOk
    rw [hgrows'.load, hload]
  have habsent : (s.carry (.action (.invalidate "b.mjs"))).cache.sources.get? "b.mjs" = none := by
    rw [hcarry]
    show (s.cache.invalidate "b.mjs").sources.get? "b.mjs" = none
    rw [Cache.sources_invalidate, if_pos rfl]
  obtain ⟨rest', after, hsecond⟩ := List.append_of_mem (Session.fetched_of_read hload' habsent none)
  have hhistory : session.history [.read "b.mjs" none, .action (.invalidate "b.mjs"), .read "b.mjs" none] =
      before ++ .fetched "b.mjs" true ::
        ((rest ++ s.marks (.action (.invalidate "b.mjs")) ++ rest') ++ .fetched "b.mjs" true :: after) := by
    simp only [Session.history, hs, hfirst, hsecond, List.append_assoc, List.cons_append, List.append_nil]
  exact ⟨before, _, after, hrest, hhistory, fetched_once hrest hhistory⟩

end Linked

end Stencil
