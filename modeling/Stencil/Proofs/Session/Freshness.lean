import Stencil.Proofs.Identifier
import Stencil.Proofs.Reading.Resumption
import Stencil.Proofs.Session.Provenance

/-!
# Nothing old is kept

While a task reads, invalidations come as they like, so what it has put together may be mixed from old
and new texts. What is known of it nevertheless is `Run.known`: every text that it was given was fetched,
the version that it took of a template is not ahead of the fetch of the text, and a template whose
version is still the one that it took has kept its text and its relations. The frames of the task fit to
that (`Run.fits`).

At the end the task compares the versions that it took with the present ones. If they are the same then
all the fetches are younger than the last invalidations (`Run.fresh`). A later invalidation of one of the
texts that were used walks along the relations and drops the compiled template, so what is in the cache
stays fresh in every run (`Run.compiled_fresh`, `Run.nothing_stale`).
-/

namespace Stencil

open Relation

namespace Run

variable (r : Run)

/-- What is known at a moment of the templates that a task has met, given the versions that it took. -/
def known (k n : Nat) (taken : Snapshot) : World where
  name m x := ∃ j < n, r.Goes k j ∧ (r.before j).normalize (String.ofList m) = x
  text d x := ∃ j < n, ∃ f v, r.Takes k j f ∧ f.id = d ∧ x = .ok f.text ∧ taken.lookup d = some v ∧
    v ≤ r.version f.asked d ∧
    (r.version n d = v → ((r.before n).cache.sources.get? d).isSome)
  edge c p := p = "" ∨ ∃ v, taken.lookup c = some v ∧
    (r.version n c = v → (r.before n).cache.relations.Has c p)

/-- What a task has been given, if at a moment none of it has been invalidated since it was asked for. -/
def fresh (k n : Nat) : World where
  name m x := ∃ j < n, r.Goes k j ∧ (r.before j).normalize (String.ofList m) = x
  text d x := ∃ j < n, ∃ f, r.Takes k j f ∧ f.id = d ∧ x = .ok f.text ∧ r.Untouched f.asked n d
  edge c p := p = "" ∨ (r.before n).cache.relations.Has c p

/-- A flattened template is compiled, at any moment of the run. -/
def build : String → String → Except Fault CompiledTemplate := (r.before 0).build

/-- How far a task has come with a template, `X`, given what is known of the templates it has met. -/
def Stands (W : World) (X : String) : Phase → Prop
  | .fetching w | .fetched w _ => Reading.FramesFit W [] X w.id w.frames
  | .finished (.ok (.compiled a)) =>
    ∃ flat, Enters W [] X (.ok flat) ∧ r.build X flat = .ok a.template
  | _ => True

variable {r} {n k : Nat}

theorem build_before (hn : n ≤ r.events.length) : (r.before n).build = r.build := by
  obtain ⟨hsettings, hshrinkers⟩ := settings_before n hn
  obtain ⟨hsettings', hshrinkers'⟩ := settings_before 0 (Nat.zero_le r.events.length)
  funext X flat
  simp only [build, Session.build, Session.shrink, hsettings, hshrinkers, hsettings', hshrinkers']

theorem Takes.asked_lt {j : Nat} {f : Fetch} (h : r.Takes k j f) : f.asked < j + 1 := by
  rcases h with ⟨-, hf, ⟨-, rfl⟩ | hkeeps⟩
  · exact hf.asked_lt_back.trans (Nat.lt_succ_self _)
  · exact hf.asked_lt_back.trans hkeeps.lt

/-- A version that was taken and is found after an event was there before it too. -/
theorem eq_of_version_succ {taken : Snapshot} {e : Event} (he : r.events[n]? = some e)
    (hle : ∀ d v, taken.lookup d = some v → v ≤ r.version n d) {d : String} {v : Version}
    (hd : taken.lookup d = some v) (hv : r.version (n + 1) d = v) :
    r.version n d = v ∧ ¬ (r.before n).Invalidates e d := by
  have hsucc : r.version n d ≤ r.version (n + 1) d := (change he).version_le d
  have hn : r.version n d = v := le_antisymm (hv ▸ hsucc) (hle d v hd)
  refine ⟨hn, fun hi => ?_⟩
  have hlt : r.version n d < r.version (n + 1) d := (change he).version_lt hi
  rw [hn, hv] at hlt
  exact lt_irrefl v hlt

section Known

variable {taken taken' : Snapshot} {e : Event} (he : r.events[n]? = some e)
  (hle : ∀ d v, taken.lookup d = some v → v ≤ r.version n d)
  (hkeep : ∀ d v, taken.lookup d = some v → taken'.lookup d = some v)

include he hle hkeep

/-- What is known of the templates that a task has met stays known with an event. -/
theorem known_le_succ : r.known k n taken ≤ r.known k (n + 1) taken' := by
  constructor
  · rintro m x ⟨j, hj, hgoes, hx⟩
    exact ⟨j, Nat.lt_succ_of_lt hj, hgoes, hx⟩
  · rintro d x ⟨j, hj, f, v, htakes, hid, hx, hd, hv, hthere⟩
    refine ⟨j, Nat.lt_succ_of_lt hj, f, v, htakes, hid, hx, hkeep d v hd, hv, fun hsucc => ?_⟩
    obtain ⟨hn, hno⟩ := eq_of_version_succ he hle hd hsucc
    exact (change he).sources_isSome (hthere hn) hno
  · intro c p hedge
    refine hedge.imp_right ?_
    rintro ⟨v, hc, hhas⟩
    refine ⟨v, hkeep c v hc, fun hsucc => ?_⟩
    obtain ⟨hn, hno⟩ := eq_of_version_succ he hle hc hsucc
    exact (change he).has (hhas hn) hno

end Known

theorem Stands.of_le {W W' : World} (hle : W ≤ W') {X : String} {p : Phase} (h : r.Stands W X p) :
    r.Stands W' X p := by
  cases p with
  | starting => trivial
  | fetching w => exact Reading.FramesFit.of_le hle h
  | fetched w content => exact Reading.FramesFit.of_le hle h
  | finished result =>
    rcases result with f | (a | ⟨text, taken⟩)
    · trivial
    · obtain ⟨flat, henters, hbuild⟩ := h
      exact ⟨flat, henters.of_le hle, hbuild⟩
    · trivial

/-- A task stands where its reading has come to. -/
theorem stands_of_arrives {s : Session} (hs : s.build = r.build) {W : World} {X : String}
    {taken : Snapshot} {outcome : Reading.Outcome} {phase : Phase} {compiled : Store Artifact}
    (h : s.Arrives taken (.compile X) outcome phase compiled) (hfits : outcome.Fits W [] X) :
    r.Stands W X phase := by
  cases h with
  | waits => exact hfits.2
  | failed => trivial
  | rejected => trivial
  | @stored _ text a hbuild _ => exact ⟨text, Gives.enters hfits, hs ▸ hbuild⟩
  | @passed _ text a hbuild _ => exact ⟨text, Gives.enters hfits, hs ▸ hbuild⟩

/-- What a reading sees while a task goes on is known afterwards. -/
theorem seen_known {e : Event} {t' : Task} (d : Reading.Desk) {trail : Trail}
    (he : r.events[n]? = some e) (hgoes : r.Goes k n)
    (hk : (r.before (n + 1)).tasks[k]? = some t')
    (hnormalize : d.normalize = (r.before n).normalize)
    (hsources : (r.before (n + 1)).cache.sources = d.sources)
    (hrelations : (r.before (n + 1)).cache.relations = trail.relations)
    (htaken : t'.taken = trail.taken) : d.Seen trail (r.known k (n + 1) t'.taken) := by
  have hn : n + 1 ≤ r.events.length := (List.getElem?_eq_some_iff.1 he).1
  refine ⟨fun m => ⟨n, Nat.lt_succ_self n, hgoes, by rw [hnormalize]⟩, ?_, ?_⟩
  · intro c text htext hmet
    rw [← htaken] at hmet
    rw [← hsources] at htext
    obtain ⟨v, hv⟩ := Option.isSome_iff_exists.1 hmet
    obtain ⟨f, hf, rfl, rfl, hkeeps, hun⟩ := kept (n + 1) hn c text htext
    have hasked : f.asked ≤ n + 1 := (hf.asked_lt_back.trans hkeeps.lt).le
    refine ⟨n, Nat.lt_succ_self n, f, v, ⟨hgoes, hf, Or.inr hkeeps⟩, rfl, rfl, hv, ?_, fun _ => ?_⟩
    · rw [← (untouched_iff hasked hn).1 hun]
      exact taken_le (n + 1) hn k t' f.id v hk hv
    · rw [htext]
      rfl
  · intro c p hp hmet
    rw [← htaken] at hmet
    obtain ⟨v, hv⟩ := Option.isSome_iff_exists.1 hmet
    rw [← hrelations] at hp
    exact hp.imp_right fun h => ⟨v, hv, fun _ => h⟩

/-- The text that a task goes on with is known afterwards. -/
theorem known_of_resume {t t' : Task} {w : Reading.Wait} {content : Except Files.Fault (List UInt8)}
    {text : String} (he : r.events[n]? = some (.resume k)) (hk : (r.before n).tasks[k]? = some t)
    (hphase : t.phase = .fetched w content) (htext : (r.before n).textOf w.id content = .ok text)
    (hkeep : ∀ v, t.taken.lookup w.id = some v → t'.taken.lookup w.id = some v)
    (hsources : (r.before (n + 1)).cache.sources = ((r.before n).receive w text).cache.sources) :
    (r.known k (n + 1) t'.taken).text w.id (.ok text) := by
  have hn : n ≤ r.events.length := (List.getElem?_eq_some_iff.1 he).1.le
  have hgoes : r.Goes k n := Or.inr ⟨he, w, content, phase_eq.2 ⟨t, hk, hphase⟩⟩
  obtain ⟨f, hf, hfk, rfl, rfl, rfl, hversion⟩ := fetched_of_resume he hk hphase htext
  obtain ⟨v, hv, hvw⟩ := met f.back hn k t f.wait hk (Or.inr ⟨content, hphase⟩)
  refine ⟨f.back, Nat.lt_succ_self _, f, v, ⟨hgoes, hf, Or.inl ⟨hfk, rfl⟩⟩, rfl, rfl, hkeep v hv, ?_,
    fun hsucc => ?_⟩
  · exact hversion ▸ hvw
  -- the version that was taken is still there, so the one in the wait is too, and the text is kept
  · obtain ⟨hnow, -⟩ := eq_of_version_succ he (fun d v => taken_le f.back hn k t d v hk) hv hsucc
    have hasked : r.version f.asked f.wait.id ≤ r.version f.back f.wait.id :=
      version_le hf.asked_lt_back.le hn f.wait.id
    have hcurrent : (r.before f.back).cache.version f.wait.id = f.wait.version := by
      refine le_antisymm ?_ (hversion ▸ hasked)
      rw [show (r.before f.back).cache.version f.wait.id = v from hnow]
      exact hvw
    rw [hsources, Session.sources_receive, if_pos ⟨rfl, hcurrent⟩]
    rfl

/-- A task that compiles a template stands where the assembly of the template says. -/
theorem fits : ∀ n ≤ r.events.length, ∀ (k : Nat) (t : Task) (X : String),
    (r.before n).tasks[k]? = some t → t.job = .compile X →
    r.Stands (r.known k n t.taken) X t.phase := by
  refine induct (fun k t X h => ?_) fun n e he ih k t' X ht' hjob => ?_
  · exact nomatch h
  have hn : n ≤ r.events.length := (List.getElem?_eq_some_iff.1 he).1.le
  have hgrow : ∀ t : Task, (r.before n).tasks[k]? = some t →
      (∀ d v, t.taken.lookup d = some v → t'.taken.lookup d = some v) → ∀ p,
      r.Stands (r.known k n t.taken) X p → r.Stands (r.known k (n + 1) t'.taken) X p := by
    intro t ht hkeep p hstands
    exact hstands.of_le (known_le_succ he (fun d v => taken_le n hn k t d v ht) hkeep)
  rcases (change he).task_cases ht' with hold | ⟨job, rfl, -⟩ | ⟨t, ht, hmoves⟩
  · exact hgrow t' hold (fun _ _ h => h) _ (ih k t' X hold hjob)
  · trivial
  have hjob' : t.job = .compile X := hmoves.job ▸ hjob
  have hkeeps : ∀ d v, t.taken.lookup d = some v → t'.taken.lookup d = some v := fun d v => hmoves.keeps
  have hstands := hgrow t ht hkeeps t.phase (ih k t X ht hjob')
  cases hmoves with
  | fetches hphase _ =>
    rw [hphase] at hstands
    exact hstands
  | fails => trivial
  | starts hphase hadvanced =>
    have hgoes : r.Goes k n := Or.inl ⟨he, phase_eq.2 ⟨t, ht, hphase⟩⟩
    have harrives := hadvanced.arrives
    rw [hjob] at harrives
    have hseen := seen_known (r.before n).desk he hgoes ht' (Session.normalize_desk _)
      hadvanced.sources hadvanced.relations hadvanced.taken
    have hfits := ((Reading.read_fits _).1 [] _ _ _ _ hseen).1
    have hid : t.job.id = X := by
      rw [hjob']
      rfl
    rw [hid] at hfits harrives
    exact stands_of_arrives (build_before hn) harrives hfits
  | @resumes w content text _ _ hphase htext hadvanced =>
    have hgoes : r.Goes k n := Or.inr ⟨he, w, content, phase_eq.2 ⟨t, ht, hphase⟩⟩
    have harrives := hadvanced.arrives
    rw [hjob] at harrives
    have hnormalize := (Session.normalize_desk _).trans (Session.normalize_receive (r.before n) w text)
    have hseen := seen_known ((r.before n).receive w text).desk he hgoes ht' hnormalize
      hadvanced.sources hadvanced.relations hadvanced.taken
    -- the text that came need not be in the cache, but the task has it
    have hown := known_of_resume he ht hphase htext (hkeeps w.id) hadvanced.sources
    rw [hphase] at hstands
    have hfits := Reading.resume_fits _ hstands hown hseen
    refine stands_of_arrives ?_ harrives hfits
    rw [Session.build_receive, build_before hn]

/-! ### Compiled templates -/

/-- A compiled template is what a task has made of texts that are all fresh at a moment. -/
def Freshly (r : Run) (n : Nat) (X : String) (a : Artifact) : Prop :=
  ∃ k t flat, (r.before n).tasks[k]? = some t ∧ t.job = .compile X ∧
    t.phase = .finished (.ok (.compiled a)) ∧
    Enters (r.fresh k n) [] X (.ok flat) ∧ r.build X flat = .ok a.template

/-- No task is there to compile a template without a name. -/
theorem ne_empty_of_job : ∀ n ≤ r.events.length, ∀ (k : Nat) (t : Task) (X : String),
    (r.before n).tasks[k]? = some t → t.job = .compile X → X ≠ "" := by
  refine induct (fun k t X h => ?_) fun n e he ih k t' X ht' hjob => ?_
  · exact nomatch h
  rcases (change he).task_cases ht' with hold | ⟨job, rfl, hname⟩ | ⟨t, ht, hmoves⟩
  · exact ih k t' X hold hjob
  · obtain ⟨name, hname⟩ := hname X hjob
    exact Identifier.ne_empty_of_normalize hname
  · exact ih k t X ht (hmoves.job ▸ hjob)

/-- If the versions that a task took are current then all that it was given is fresh. -/
theorem fresh_of_current {taken : Snapshot} (hn : n ≤ r.events.length)
    (hcurrent : (r.before n).cache.isCurrent taken = true) {X flat : String}
    (h : Enters (r.known k n taken) [] X (.ok flat)) :
    Enters (r.fresh k n) [] X (.ok flat) ∧ ((r.before n).cache.sources.get? X).isSome := by
  have hversion : ∀ d v, taken.lookup d = some v → r.version n d = v := by
    intro d v hd
    exact (Cache.isCurrent_iff _).1 hcurrent d v (Store.mem_of_lookup hd)
  have htext : ∀ d x, (r.known k n taken).text d x →
      (r.fresh k n).text d x ∧ ((r.before n).cache.sources.get? d).isSome := by
    rintro d x ⟨j, hj, f, v, htakes, rfl, rfl, hd, hv, hthere⟩
    -- the version that was taken is between that of the fetch and the present one
    have hnow := hversion f.id v hd
    have hasked : f.asked ≤ n := Nat.le_of_lt_succ (htakes.asked_lt.trans (Nat.succ_lt_succ hj))
    refine ⟨⟨j, hj, f, htakes, rfl, rfl, ?_⟩, hthere hnow⟩
    refine (untouched_iff hasked hn).2 (le_antisymm ?_ (version_le hasked hn f.id))
    exact hnow ▸ hv
  have hle : r.known k n taken ≤ r.fresh k n := by
    refine ⟨fun _ _ hname => hname, fun d x hx => (htext d x hx).1, ?_⟩
    rintro c p (rfl | ⟨v, hc, hhas⟩)
    · exact Or.inl rfl
    · exact Or.inr (hhas (hversion c v hc))
  refine ⟨h.of_le hle, ?_⟩
  rcases h with ⟨e, ⟨_, _, f, v, -, -, he, -⟩, -⟩ | ⟨text, ht, -⟩
  · exact nomatch he
  · exact (htext X _ ht).2

/-- What is assembled from fresh texts stays so with an event that invalidates none of the templates
that lead to the compiled one. -/
theorem fresh_succ {e : Event} (he : r.events[n]? = some e) {X flat : String} (hX : X ≠ "")
    (hno : ∀ d, (r.before n).Invalidates e d →
      X ≠ d ∧ ¬ TransGen (r.before n).cache.relations.Has d X)
    (h : Enters (r.fresh k n) [] X (.ok flat)) : Enters (r.fresh k (n + 1)) [] X (.ok flat) := by
  have hleads : ∀ c, (r.before n).cache.relations.Leads c X → ¬ (r.before n).Invalidates e c := by
    intro c hc hi
    obtain ⟨hne, hpath⟩ := hno c hi
    rcases hc.eq_or_path with heq | hpath'
    · exact hne heq
    · exact hpath hpath'
  refine h.mono (fun c => (r.before n).cache.relations.Leads c X) ?_ ?_ ?_ ?_ ⟨hX, .refl⟩
  · rintro m c p hp ⟨j, -, -, hname⟩ hedge
    exact hp.of_edge (Identifier.ne_empty_of_normalize hname) hedge
  · rintro m x ⟨j, hj, hgoes, hx⟩
    exact ⟨j, Nat.lt_succ_of_lt hj, hgoes, hx⟩
  · rintro c x hc ⟨j, hj, f, htakes, hid, hx, hun⟩
    exact ⟨j, Nat.lt_succ_of_lt hj, f, htakes, hid, hx, hun.succ (not_touches he (hleads c hc))⟩
  · rintro c p hc - hedge
    exact hedge.imp_right fun hhas => (change he).has hhas (hleads c hc)

/-- A compiled template in the cache is fresh, and its text is there too. -/
theorem compiled_fresh : ∀ n ≤ r.events.length, ∀ (X : String) (a : Artifact),
    (r.before n).cache.compiled.get? X = some a →
    r.Freshly n X a ∧ ((r.before n).cache.sources.get? X).isSome := by
  refine induct (fun X a h => ?_) fun n e he ih X a hX => ?_
  · exact nomatch h
  have hlt : n < r.events.length := (List.getElem?_eq_some_iff.1 he).1
  have hchange := change he
  rcases hchange.compiled_cases hX with
      ⟨hold, hno⟩ | ⟨k, t, t', hk, htasks, hmoves, hjob, hphase, hcurrent⟩
  -- it was there before, and nothing that leads to it is invalidated
  · obtain ⟨⟨k, t, flat, ht, hjob, hphase, henters, hbuild⟩, hthere⟩ := ih X a hold
    have hne := ne_empty_of_job n hlt.le k t X ht hjob
    have hno := hno hthere
    refine ⟨⟨k, t, flat, hchange.finished ht hphase, hjob, hphase,
      fresh_succ he hne hno henters, hbuild⟩, hchange.sources_isSome hthere fun hi => ?_⟩
    exact (hno X hi).1 rfl
  -- it has just been stored, by a task whose versions are current
  · have hk' : (r.before (n + 1)).tasks[k]? = some t' := by
      rw [htasks, List.getElem?_set_self (List.getElem?_eq_some_iff.1 hk).1]
    have hstands := fits (n + 1) hlt k t' X hk' hjob
    rw [hphase] at hstands
    obtain ⟨flat, henters, hbuild⟩ := hstands
    obtain ⟨hfresh, hthere⟩ := fresh_of_current hlt hcurrent henters
    exact ⟨⟨k, t', flat, hk', hjob, hphase, hfresh, hbuild⟩, hthere⟩

/-- In every run, in whatever order calls, tasks, invalidations and changes of the files follow each
other: a text in the cache was fetched, and a compiled template there was assembled from texts that
were all fetched, for the template itself and for all that is set into it, and since the files were
asked for none of these templates was invalidated. -/
theorem nothing_stale (r : Run) :
    (∀ d text, r.now.cache.sources.get? d = some text →
      ∃ f, r.Fetched f ∧ f.id = d ∧ f.text = text ∧ r.Untouched f.asked r.events.length d) ∧
    ∀ X a, r.now.cache.compiled.get? X = some a → r.Freshly r.events.length X a := by
  constructor
  · intro d text hd
    obtain ⟨f, hf, hid, htext, -, hun⟩ := kept r.events.length le_rfl d text hd
    exact ⟨f, hf, hid, htext, hun⟩
  · intro X a hX
    exact (compiled_fresh r.events.length le_rfl X a hX).1

end Run

end Stencil
