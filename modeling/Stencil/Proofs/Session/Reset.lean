import Stencil.Proofs.Session.Freshness
import Stencil.Proofs.Session.Rereading

/-!
# A reset is complete

A compiler is used in many ways at once: calls and their tasks take turns, directories are precompiled,
templates are invalidated, a watch resets the cache again and again. `Reached` lists the sessions that all
this leads to. Precompiling also notes what it does, and launching begins a watch, but no event depends on
either (`bare_step`). So every session that is reached is one that a run leads to, but for its notes and its
watch (`Reached.alongRun`), and what holds along runs holds of it.

In particular each compiled template has its text in the cache (`Run.compiled_fresh`). A reset walks over the
templates with texts only, and still it leaves nothing compiled (`reset_complete`).
-/

namespace Stencil

namespace Session

/-! ### Notes and the watch -/

/-- A session without what it has noted and without its watch. -/
def bare (s : Session) : Session := { s with notes := [], watching := false }

variable (s : Session) (k : Nat)

theorem bare_compileSource (t : Task) (id source : String) :
    (s.compileSource k t id source).bare = (s.bare.compileSource k t id source).bare := by
  have hshrink : s.bare.shrink id source = s.shrink id source := rfl
  unfold compileSource
  rw [hshrink]
  cases s.shrink id source with
  | error f => rfl
  | ok shrunk =>
    dsimp only
    cases CompiledTemplate.compile options shrunk.1 (some id) with
    | error f => cases f <;> rfl
    | ok template =>
      have hcurrent : (s.bare.note shrunk.2).cache.isCurrent t.taken =
        (s.note shrunk.2).cache.isCurrent t.taken := rfl
      dsimp only
      rw [hcurrent]
      split <;> rfl

theorem bare_advance (t : Task) (read : Reading.Outcome × Trail) :
    (s.advance k t read).bare = (s.bare.advance k t read).bare := by
  obtain ⟨outcome, trail⟩ := read
  cases outcome with
  | waits w => rfl
  | failed f => rfl
  | done text =>
    obtain ⟨job, phase, taken⟩ := t
    cases job with
    | read id parent => rfl
    | compile id => exact bare_compileSource _ k ⟨.compile id, phase, trail.taken⟩ id text

theorem bare_advance_resume (t : Task) (w : Reading.Wait) (text : String) :
    (s.advance k t (Reading.resume s.desk w text (s.trail t))).bare =
      (s.bare.advance k t (Reading.resume s.bare.desk w text (s.bare.trail t))).bare :=
  bare_advance s k t _

theorem bare_start : (s.start k).bare = (s.bare.start k).bare := by
  have htask : s.bare.tasks[k]? = s.tasks[k]? := rfl
  unfold start
  rw [htask]
  cases s.tasks[k]? with
  | none => rfl
  | some t =>
    obtain ⟨job, phase, taken⟩ := t
    cases phase with
    | starting =>
      cases job with
      | compile id =>
        exact (bare_advance (s.note [.compiling id]) k _ _).trans
          (bare_advance (s.bare.note [.compiling id]) k _ _).symm
      | read id parent => exact bare_advance s k _ _
    | fetching w => rfl
    | fetched w content => rfl
    | finished result => rfl

theorem bare_fetch : (s.fetch k).bare = (s.bare.fetch k).bare := by
  have htask : s.bare.tasks[k]? = s.tasks[k]? := rfl
  unfold fetch
  rw [htask]
  cases s.tasks[k]? with
  | none => rfl
  | some t => cases h : t.phase <;> simp only [h] <;> rfl

theorem bare_receive (w : Reading.Wait) (text : String) :
    (s.receive w text).bare = (s.bare.receive w text).bare := by
  have hversion : (s.bare.note [.loaded w.id text.length]).cache.version w.id =
    (s.note [.loaded w.id text.length]).cache.version w.id := rfl
  unfold receive keepText
  rw [hversion]
  split <;> rfl

theorem bare_resume : (s.resume k).bare = (s.bare.resume k).bare := by
  have htask : s.bare.tasks[k]? = s.tasks[k]? := rfl
  unfold resume
  rw [htask]
  cases s.tasks[k]? with
  | none => rfl
  | some t =>
    obtain ⟨job, phase, taken⟩ := t
    cases phase with
    | starting => rfl
    | fetching w => rfl
    | finished result => rfl
    | fetched w content =>
      cases content with
      | error f => rfl
      | ok bytes =>
        have hshrinkers : s.bare.shrinkers = s.shrinkers := rfl
        dsimp only
        rw [hshrinkers]
        cases Reading.ofBytes s.shrinkers.stylesheet w.id bytes with
        | error f => rfl
        | ok text =>
          have h := bare_advance_resume (s.receive w text) k ⟨job, .fetched w (.ok bytes), taken⟩ w text
          rw [bare_receive, ← bare_advance_resume (s.bare.receive w text)] at h
          exact h

theorem bare_call (name : String) : (s.call name).2.bare = (s.bare.call name).2.bare := by
  have hname : s.bare.normalize name = s.normalize name := rfl
  unfold call
  rw [hname]
  cases s.normalize name with
  | error f => rfl
  | ok id =>
    have hcompiled : s.bare.cache.compiled.get? id = s.cache.compiled.get? id := rfl
    have hinflight : s.bare.inflight.lookup id = s.inflight.lookup id := rfl
    dsimp only
    rw [hcompiled, hinflight]
    cases s.cache.compiled.get? id with
    | some a => rfl
    | none => cases s.inflight.lookup id <;> rfl

theorem bare_settle : (s.settle k).bare = (s.bare.settle k).bare := by
  have hfinished : s.bare.isFinished k = s.isFinished k := rfl
  unfold settle
  rw [hfinished]
  split <;> rfl

theorem bare_invalidate (name : String) :
    (s.step (.invalidate name)).bare = (s.bare.step (.invalidate name)).bare := by
  have hname : s.bare.normalize name = s.normalize name := rfl
  cases h : s.normalize name with
  | error f => rw [step_invalidate_error h, step_invalidate_error (hname.trans h)]; rfl
  | ok id => rw [step_invalidate_ok h, step_invalidate_ok (hname.trans h)]; rfl

/-- What an event does does not depend on what was noted, nor on the watch. -/
theorem bare_step (e : Event) : (s.step e).bare = (s.bare.step e).bare := by
  cases e with
  | call name => exact bare_call s name
  | read id parent => rfl
  | start k => exact bare_start s k
  | fetch k => exact bare_fetch s k
  | resume k => exact bare_resume s k
  | settle k => exact bare_settle s k
  | invalidate name => exact bare_invalidate s name
  | invalidateAll => rfl
  | clear => rfl
  | change tree => rfl

/-! ### Sessions and runs -/

/-- Some run leads to the session, but for its notes and its watch. -/
def AlongRun (s : Session) : Prop := ∃ r : Run, r.now.bare = s.bare

variable {s k} {s' : Session}

theorem AlongRun.of_bare (h : s.AlongRun) (hbare : s'.bare = s.bare) : s'.AlongRun := by
  obtain ⟨r, hr⟩ := h
  exact ⟨r, hr.trans hbare.symm⟩

theorem AlongRun.step (h : s.AlongRun) (e : Event) : (s.step e).AlongRun := by
  obtain ⟨r, hr⟩ := h
  refine ⟨{ r with events := r.events ++ [e] }, ?_⟩
  rw [Run.now_concat, bare_step, hr, ← bare_step]

/-- Whatever is done with a compiler is made of events and notes. -/
theorem AlongRun.perform (h : s.AlongRun) (a : Action) : (s.perform a).AlongRun :=
  perform_keeps (fun _ e _ h => h.step e) (fun _ _ h => h.of_bare rfl) a h

theorem AlongRun.launch (h : s.AlongRun) : s.launch.2.AlongRun :=
  launch_keeps (fun _ e _ h => h.step e) (fun _ _ h => h.of_bare rfl) (fun _ h => h.of_bare rfl) h

/-- The sessions that a compiler comes to, whatever is done with it. -/
inductive Reached : Session → Prop
  | new (settings : Config.Settings) (shrinkers : Shrinkers) (tree : Files.Tree) :
      Reached { settings, shrinkers, tree }
  /-- A call is made, a task takes its turn, something is invalidated, the watch resets the cache, or the
  files change. -/
  | step {s : Session} (e : Event) : Reached s → Reached (s.step e)
  /-- Something is noted, as precompiling does between its calls. -/
  | note {s : Session} (notes : List Note) : Reached s → Reached (s.note notes)
  /-- Something is carried through with nothing else in between. -/
  | perform {s : Session} (a : Action) : Reached s → Reached (s.perform a)
  | launch {s : Session} : Reached s → Reached s.launch.2
  | close {s : Session} : Reached s → Reached s.close

theorem Reached.alongRun (h : s.Reached) : s.AlongRun := by
  induction h with
  | new settings shrinkers tree => exact ⟨{ settings, shrinkers, tree, events := [] }, rfl⟩
  | step e _ ih => exact ih.step e
  | note notes _ ih => exact ih.of_bare rfl
  | perform a _ ih => exact ih.perform a
  | launch _ ih => exact ih.launch
  | close _ ih => exact ih.of_bare rfl

/-- Where a run leads, each compiled template has its text in the cache. -/
theorem AlongRun.source (h : s.AlongRun) {X : String} {a : Artifact}
    (hX : s.cache.compiled.get? X = some a) : ∃ text, s.cache.sources.get? X = some text := by
  obtain ⟨r, hr⟩ := h
  have hcache : r.now.cache = s.cache := congrArg (fun s => s.cache) hr
  rw [← hcache] at hX ⊢
  exact Option.isSome_iff_exists.1 (Run.compiled_fresh r.events.length le_rfl X a hX).2

end Session

/-- Whatever has been done with a compiler, and whichever of its tasks are under way, every template that is
compiled has its text in the cache, and so nothing is left, neither a text nor a compiled template, when all
are invalidated. -/
theorem reset_complete {s : Session} (h : s.Reached) :
    (∀ X a, s.cache.compiled.get? X = some a → ∃ text, s.cache.sources.get? X = some text) ∧
      s.invalidateAll.cache.sources.entries = [] ∧ s.invalidateAll.cache.compiled.entries = [] := by
  have hsource := fun X a => h.alongRun.source (X := X) (a := a)
  refine ⟨hsource, Store.entries_eq_nil s.cache.sources_invalidateAll, Store.entries_eq_nil fun X => ?_⟩
  refine Option.eq_none_iff_forall_ne_some.2 fun a hX => ?_
  obtain ⟨hold, hnone⟩ := s.cache.compiled_of_invalidateAll hX
  obtain ⟨text, htext⟩ := hsource X a hold
  rw [hnone] at htext
  exact nomatch htext

/-- A template that was compiled over a link is there with its text, and no more after a reset. -/
theorem Linked.reset_complete_over_link :
    let s := session.perform (.compile "a.mjs")
    (∃ a, s.cache.compiled.get? "a.mjs" = some a) ∧
      (∀ X a, s.cache.compiled.get? X = some a → ∃ text, s.cache.sources.get? X = some text) ∧
      s.invalidateAll.cache.sources.entries = [] ∧ s.invalidateAll.cache.compiled.entries = [] :=
  ⟨compiled_a, reset_complete (.perform (.compile "a.mjs") (.new settings {} tree))⟩

end Stencil
