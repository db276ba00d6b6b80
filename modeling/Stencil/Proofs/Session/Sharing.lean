import Stencil.Proofs.Session.Requests

/-!
# Compiles are shared

A call for a template joins the task that compiles it, if there is one. `Shift` lists what an event can do
to the tasks and to the calls that can be joined, and `Shared` is the invariant of that: every task that
compiles a template and has not ended is the one that calls for the template join. So no two tasks compile
the same template at once (`Shared.unique`), and a task that has been settled is joined no more
(`Run.not_joined`).

While nothing is invalidated a task that ends well keeps what it has compiled, since the versions that it
took are all current. It has found nothing compiled when it was made, and no other task compiles the same
template meanwhile, so what is kept is never replaced (`Undisturbed`). Therefore all the calls of such a
segment are given one artifact, and when one of them has been answered no other makes a task any more
(`Run.shared`).
-/

namespace Stencil

namespace Session

/-- The `k`-th task compiles a template and has not ended. -/
def Runs (s : Session) (k : Nat) (X : String) : Prop :=
  ∃ t, s.tasks[k]? = some t ∧ t.job = .compile X ∧ ∀ result, t.phase ≠ .finished result

/-- What an event does to the tasks and to the calls that can be joined. -/
inductive Shift (s : Session) : Event → Session → Prop
  /-- A task is made for a template that is neither compiled nor being compiled. -/
  | made {name X : String} : s.normalize name = .ok X → s.cache.compiled.get? X = none →
      s.inflight.lookup X = none → Shift s (.call name) (s.withCompile X)
  | asked {id : String} {parent : Option String} :
      Shift s (.read id parent) (s.callRead id parent).2
  | moved {k : Nat} {t t' : Task} {e : Event} {s' : Session} : s.tasks[k]? = some t →
      s'.tasks = s.tasks.set k t' → s.Moves k t e t' s' → s'.inflight = s.inflight → Shift s e s'
  /-- A task that has ended can no longer be joined. -/
  | settled {k : Nat} : s.isFinished k = true →
      Shift s (.settle k) { s with inflight := s.inflight.filter (·.2 != k) }
  | kept {e : Event} {s' : Session} : s'.tasks = s.tasks → s'.inflight = s.inflight →
      ((∀ d, ¬ s.Invalidates e d) → s'.cache = s.cache) → Shift s e s'

variable {s s' : Session} {e : Event} {k : Nat} {X : String}

theorem Rests.shift (h : s.Rests k e) (hsteady : Steady s (s.step e)) : s.Shift e (s.step e) := by
  rcases h with h | ⟨t, t', hk, htasks, hmoves⟩
  · rw [h]
    exact .kept rfl rfl fun _ => rfl
  · exact .moved hk htasks hmoves hsteady.inflight

theorem shift_step (s : Session) (e : Event) : s.Shift e (s.step e) := by
  cases e with
  | call name =>
    show s.Shift (.call name) (s.call name).2
    rcases s.call_cases name with ⟨f, -, h⟩ | ⟨id, hname, ⟨a, -, h⟩ | ⟨hnone, ⟨k, -, h⟩ | ⟨halone, h⟩⟩⟩
    · rw [h]
      exact .kept rfl rfl fun _ => rfl
    · rw [h]
      exact .kept rfl rfl fun _ => rfl
    · rw [h]
      exact .kept rfl rfl fun _ => rfl
    · rw [h]
      exact .made hname hnone halone
  | read id parent => exact .asked
  | start k => exact (s.rests_start k).shift (.start s k)
  | fetch k => exact (s.rests_fetch k).shift (.fetch s k)
  | resume k => exact (s.rests_resume k).shift (.resume s k)
  | settle k =>
    show s.Shift (.settle k) (s.settle k)
    unfold settle
    split
    · next h => exact .settled h
    · exact .kept rfl rfl fun _ => rfl
  | invalidate name =>
    cases h : s.normalize name with
    | error f =>
      rw [step_invalidate_error h]
      exact .kept rfl rfl fun _ => rfl
    | ok id =>
      rw [step_invalidate_ok h]
      exact .kept rfl rfl fun hno => absurd h (hno id)
  | invalidateAll => exact .kept rfl rfl fun hno => absurd trivial (hno "")
  | clear => exact .kept rfl rfl fun hno => absurd trivial (hno "")
  | change tree => exact .kept rfl rfl fun _ => rfl

/-- Tasks are only added. -/
theorem Shift.length_le (h : s.Shift e s') : s.tasks.length ≤ s'.tasks.length := by
  cases h with
  | made => exact (List.prefix_append s.tasks _).length_le
  | asked => exact (List.prefix_append s.tasks _).length_le
  | moved _ htasks _ _ => rw [htasks, List.length_set]
  | settled => exact le_rfl
  | kept htasks _ _ => rw [htasks]

/-- A call can only come to join a task that is made with the event. -/
theorem Shift.inflight (h : s.Shift e s') {p : String × Nat} (hp : p ∈ s'.inflight) :
    p ∈ s.inflight ∨ p.2 = s.tasks.length := by
  cases h with
  | made =>
    rcases List.mem_cons.1 hp with rfl | hp
    · exact Or.inr rfl
    · exact Or.inl hp
  | asked => exact Or.inl hp
  | moved _ _ _ hinflight => exact Or.inl (hinflight ▸ hp)
  | settled => exact Or.inl (List.mem_of_mem_filter hp)
  | kept _ hinflight _ => exact Or.inl (hinflight ▸ hp)

/-! ### Tasks that are joined -/

/-- Calls join the tasks that compile their templates. -/
structure Shared (s : Session) : Prop where
  joined : ∀ k X, s.Runs k X → s.inflight.lookup X = some k
  compiles : ∀ X k, (X, k) ∈ s.inflight → ∃ t, s.tasks[k]? = some t ∧ t.job = .compile X

theorem lookup_filter_of_ne {entries : List (String × Nat)} {j : Nat} (hne : j ≠ k)
    (h : entries.lookup X = some j) : (entries.filter (·.2 != k)).lookup X = some j := by
  induction entries with
  | nil => exact nomatch h
  | cons p rest ih =>
    obtain ⟨Y, i⟩ := p
    rw [Store.lookup_cons_ite] at h
    split at h
    · next hXY =>
      obtain rfl : i = j := Option.some.inj h
      rw [List.filter_cons_of_pos (by simpa using hne), Store.lookup_cons_ite, if_pos hXY]
    · next hXY =>
      by_cases hi : i = k
      · rw [List.filter_cons_of_neg (by simp [hi])]
        exact ih h
      · rw [List.filter_cons_of_pos (by simpa using hi), Store.lookup_cons_ite, if_neg hXY]
        exact ih h

theorem Shared.step (h : s.Shared) (e : Event) : (s.step e).Shared := by
  have hjob : ∀ (X : String) (k : Nat), (∃ t, s.tasks[k]? = some t ∧ t.job = .compile X) →
      ∃ t, (s.step e).tasks[k]? = some t ∧ t.job = .compile X := by
    rintro X k ⟨t, hk, hjob⟩
    obtain ⟨t', hk', hjob'⟩ := (change_step s e).job hk
    exact ⟨t', hk', hjob'.trans hjob⟩
  have hshift := shift_step s e
  generalize s.step e = s' at hjob hshift
  cases hshift with
  | @made name X _ _ halone =>
    constructor
    · rintro j Y ⟨t, hj, htjob, hphase⟩
      show ((X, s.tasks.length) :: s.inflight).lookup Y = some j
      rw [Store.lookup_cons_ite]
      rcases task_of_append hj with hj | ⟨rfl, rfl⟩
      · have hold := h.joined j Y ⟨t, hj, htjob, hphase⟩
        rw [if_neg, hold]
        rintro rfl
        rw [halone] at hold
        exact nomatch hold
      · cases htjob
        rw [if_pos rfl]
    · intro Y j hmem
      rcases List.mem_cons.1 hmem with hnew | hold
      · cases hnew
        exact ⟨{ job := .compile X }, List.getElem?_concat_length, rfl⟩
      · exact hjob Y j (h.compiles Y j hold)
  | @asked id parent =>
    refine ⟨?_, fun Y j hmem => hjob Y j (h.compiles Y j hmem)⟩
    rintro j Y ⟨t, hj, htjob, hphase⟩
    rcases task_of_append hj with hj | ⟨rfl, rfl⟩
    · exact h.joined j Y ⟨t, hj, htjob, hphase⟩
    · exact nomatch htjob
  | @moved k t t' _ _ hk htasks hmoves hinflight =>
    refine ⟨?_, fun Y j hmem => hjob Y j (h.compiles Y j (hinflight ▸ hmem))⟩
    rintro j Y ⟨u, hj, hujob, hphase⟩
    rw [hinflight]
    rcases task_of_set (htasks ▸ hj) with ⟨-, hj⟩ | ⟨rfl, rfl⟩
    · exact h.joined j Y ⟨u, hj, hujob, hphase⟩
    · exact h.joined j Y ⟨t, hk, hmoves.job.symm.trans hujob, hmoves.running⟩
  | @settled k hfinished =>
    refine ⟨?_, fun Y j hmem => h.compiles Y j (List.mem_of_mem_filter hmem)⟩
    rintro j Y ⟨t, hj, htjob, hphase⟩
    have hne : j ≠ k := by
      rintro rfl
      obtain ⟨t', result, hj', hended⟩ := finished_of_isFinished hfinished
      obtain rfl : t' = t := Option.some.inj (hj'.symm.trans hj)
      exact hphase result hended
    exact lookup_filter_of_ne hne (h.joined j Y ⟨t, hj, htjob, hphase⟩)
  | kept htasks hinflight _ =>
    refine ⟨?_, fun Y j hmem => hjob Y j (h.compiles Y j (hinflight ▸ hmem))⟩
    rintro j Y ⟨t, hj, htjob, hphase⟩
    rw [hinflight]
    exact h.joined j Y ⟨t, htasks ▸ hj, htjob, hphase⟩

theorem Shared.unique (h : s.Shared) {j : Nat} (hk : s.Runs k X) (hj : s.Runs j X) : k = j :=
  Option.some.inj ((h.joined k X hk).symm.trans (h.joined j X hj))

/-! ### While nothing is invalidated -/

section Stores

variable {t t' : Task}

theorem Arrives.keeps_or_stores {taken : Snapshot} {job : Job} {outcome : Reading.Outcome}
    {phase : Phase} {compiled : Store Artifact} (h : s.Arrives taken job outcome phase compiled) :
    (compiled = s.cache.compiled ∧
        ∀ a, phase = .finished (.ok (.compiled a)) → s.cache.isCurrent taken = false) ∨
      ∃ X a, job = .compile X ∧ phase = .finished (.ok (.compiled a)) ∧
        compiled = s.cache.compiled.put X a := by
  cases h with
  | waits => exact Or.inl ⟨rfl, fun a ha => nomatch ha⟩
  | failed => exact Or.inl ⟨rfl, fun a ha => nomatch ha⟩
  | read => exact Or.inl ⟨rfl, fun a ha => nomatch ha⟩
  | rejected => exact Or.inl ⟨rfl, fun a ha => nomatch ha⟩
  | passed _ hstale => exact Or.inl ⟨rfl, fun a _ => hstale⟩
  | @stored id _ a _ _ => exact Or.inr ⟨id, a, rfl, rfl, rfl⟩

/-- A task that moves stores what it has compiled, or it keeps the compiled templates as they are and has
compiled nothing of which all is current. -/
theorem Moves.keeps_or_stores (h : s.Moves k t e t' s') :
    (s'.cache.compiled = s.cache.compiled ∧
        ∀ a, t'.phase = .finished (.ok (.compiled a)) → s.cache.isCurrent t'.taken = false) ∨
      ∃ X a, t'.job = .compile X ∧ t'.phase = .finished (.ok (.compiled a)) ∧
        s'.cache.compiled = s.cache.compiled.put X a := by
  cases h with
  | starts _ h => exact h.arrives.keeps_or_stores
  | fetches _ hcache => exact Or.inl ⟨by rw [hcache], fun a ha => nomatch ha⟩
  | fails _ _ hcache => exact Or.inl ⟨by rw [hcache], fun a ha => nomatch ha⟩
  | @resumes w _ text _ _ _ _ h =>
    rcases h.arrives.keeps_or_stores with ⟨hcompiled, hstale⟩ | ⟨X, a, hjob, hphase, hcompiled⟩
    · refine Or.inl ⟨hcompiled.trans (compiled_receive s w text), fun a ha => ?_⟩
      rw [← hstale a ha]
      exact (Cache.isCurrent_congr (version_receive s w text) _).symm
    · exact Or.inr ⟨X, a, hjob, hphase, by rw [hcompiled, compiled_receive]⟩

end Stores

/-- Nothing has been invalidated since a moment at which so many tasks had been made and none of them could
be joined. -/
structure Undisturbed (made : Nat) (s : Session) : Prop where
  le : made ≤ s.tasks.length
  young : ∀ X k, (X, k) ∈ s.inflight → made ≤ k
  running : ∀ (k : Nat) (t : Task) (X : String), s.tasks[k]? = some t → t.job = .compile X →
    (∀ result, t.phase ≠ .finished result) →
    s.cache.compiled.get? X = none ∧ ∀ p ∈ t.taken, p.2 = s.cache.version p.1
  kept : ∀ (k : Nat) (t : Task) (X : String) (a : Artifact), made ≤ k → s.tasks[k]? = some t →
    t.job = .compile X → t.phase = .finished (.ok (.compiled a)) → s.cache.compiled.get? X = some a

/-- When no call can join a task, none that compiles is under way. -/
theorem Shared.undisturbed (h : s.Shared) (hidle : s.inflight = []) :
    s.Undisturbed s.tasks.length := by
  refine ⟨le_rfl, fun X k hmem => ?_, fun k t X hk hjob hphase => ?_, fun k t X a hle hk => ?_⟩
  · rw [hidle] at hmem
    exact nomatch hmem
  · have hjoined := h.joined k X ⟨t, hk, hjob, hphase⟩
    rw [hidle] at hjoined
    exact nomatch hjoined
  · rw [List.getElem?_eq_none hle] at hk
    exact nomatch hk

section Undisturbed

variable {made : Nat} {t t' : Task}

/-- What a compiling task has taken is current when it moves. -/
theorem Undisturbed.current (h : s.Undisturbed made) (hk : s.tasks[k]? = some t)
    (hmoves : s.Moves k t e t' s') (hjob : t'.job = .compile X) :
    ∀ p ∈ t'.taken, p.2 = s.cache.version p.1 := by
  intro p hp
  rcases hmoves.adds hp with hp | hp
  · exact (h.running k t X hk (hmoves.job.symm.trans hjob) hmoves.running).2 p hp
  · exact hp

/-- What a compiling task ends with is stored. -/
theorem Undisturbed.stores (h : s.Undisturbed made) (hk : s.tasks[k]? = some t)
    (hmoves : s.Moves k t e t' s') (hjob : t'.job = .compile X) {a : Artifact}
    (hphase : t'.phase = .finished (.ok (.compiled a))) :
    s'.cache.compiled = s.cache.compiled.put X a := by
  have hcurrent : s.cache.isCurrent t'.taken = true :=
    (Cache.isCurrent_iff _).2 fun d v hmem => (h.current hk hmoves hjob (d, v) hmem).symm
  rcases hmoves.keeps_or_stores with ⟨-, hstale⟩ | ⟨Y, b, hjob', hphase', hcompiled⟩
  · rw [hstale a hphase] at hcurrent
    exact nomatch hcurrent
  · rw [hjob] at hjob'
    rw [hphase] at hphase'
    cases hjob'
    cases hphase'
    exact hcompiled

/-- The move of a task touches the compiled form of its own template only, and only if there was none. -/
theorem Undisturbed.compiled_of_moves (h : s.Undisturbed made) (hk : s.tasks[k]? = some t)
    (hmoves : s.Moves k t e t' s') (hX : t.job ≠ .compile X ∨ s.cache.compiled.get? X ≠ none) :
    s'.cache.compiled.get? X = s.cache.compiled.get? X := by
  rcases hmoves.keeps_or_stores with ⟨hcompiled, -⟩ | ⟨Y, b, hjob, -, hcompiled⟩
  · rw [hcompiled]
  · have hjob' : t.job = .compile Y := hmoves.job.symm.trans hjob
    rw [hcompiled, Store.get?_put, if_neg]
    rintro rfl
    rcases hX with hne | hsome
    · exact hne hjob'
    · exact hsome (h.running k t X hk hjob' hmoves.running).1

/-- A task that is made disturbs nothing if its template is not compiled. -/
theorem Undisturbed.append (h : s.Undisturbed made) {job : Job} {inflight : List (String × Nat)}
    (hnone : ∀ X, job = .compile X → s.cache.compiled.get? X = none)
    (hyoung : ∀ X k, (X, k) ∈ inflight → made ≤ k) :
    Undisturbed made { s with tasks := s.tasks ++ [{ job }], inflight } := by
  refine ⟨h.le.trans (List.prefix_append s.tasks _).length_le, hyoung, fun j t Y hj hjob hphase => ?_,
    fun j t Y a hmade hj hjob hphase => ?_⟩
  · rcases task_of_append hj with hj | ⟨-, rfl⟩
    · exact h.running j t Y hj hjob hphase
    · exact ⟨hnone Y hjob, fun p hp => absurd hp List.not_mem_nil⟩
  · rcases task_of_append hj with hj | ⟨-, rfl⟩
    · exact h.kept j t Y a hmade hj hjob hphase
    · exact nomatch hphase

/-- Nothing is disturbed by an event that invalidates nothing, and what is compiled stays so. -/
theorem Undisturbed.step (h : s.Undisturbed made) (hshared : s.Shared)
    (hno : ∀ d, ¬ s.Invalidates e d) :
    (s.step e).Undisturbed made ∧ ∀ X a, s.cache.compiled.get? X = some a →
      (s.step e).cache.compiled.get? X = some a := by
  have hversion : (s.step e).cache.version = s.cache.version :=
    funext fun d => (change_step s e).version_eq (hno d)
  have hshift := shift_step s e
  have hle := h.le.trans hshift.length_le
  have hyoung : ∀ X k, (X, k) ∈ (s.step e).inflight → made ≤ k := by
    intro X k hmem
    rcases hshift.inflight hmem with hmem | hlast
    · exact h.young X k hmem
    · exact h.le.trans hlast.ge
  generalize s.step e = s' at hversion hshift hle hyoung
  cases hshift with
  | made _ hnone _ =>
    refine ⟨h.append (fun Y hjob => ?_) hyoung, fun Y a hY => hY⟩
    cases hjob
    exact hnone
  | asked => exact ⟨h.append (fun Y hjob => nomatch hjob) hyoung, fun Y a hY => hY⟩
  | @moved k t t' _ _ hk htasks hmoves hinflight =>
    have hkeeps : ∀ X a, s.cache.compiled.get? X = some a → s'.cache.compiled.get? X = some a := by
      intro X a hX
      rw [h.compiled_of_moves hk hmoves (Or.inr (by rw [hX]; exact Option.some_ne_none a)), hX]
    refine ⟨⟨hle, hyoung, fun j u Y hj hjob hphase => ?_, fun j u Y a hmade hj hjob hphase => ?_⟩, hkeeps⟩
    -- any other task, and the one that has moved
    · rw [hversion]
      rcases task_of_set (htasks ▸ hj) with ⟨hne, hj⟩ | ⟨rfl, rfl⟩
      · obtain ⟨hnone, htaken⟩ := h.running j u Y hj hjob hphase
        refine ⟨?_, htaken⟩
        rw [h.compiled_of_moves hk hmoves, hnone]
        refine Or.inl fun hjob' => hne ?_
        exact hshared.unique ⟨u, hj, hjob, hphase⟩ ⟨t, hk, hjob', hmoves.running⟩
      · refine ⟨?_, h.current hk hmoves hjob⟩
        rcases hmoves.keeps_or_stores with ⟨hcompiled, -⟩ | ⟨-, a, -, hended, -⟩
        · rw [hcompiled]
          exact (h.running j t Y hk (hmoves.job.symm.trans hjob) hmoves.running).1
        · exact absurd hended (hphase _)
    · rcases task_of_set (htasks ▸ hj) with ⟨-, hj⟩ | ⟨rfl, rfl⟩
      · exact hkeeps Y a (h.kept j u Y a hmade hj hjob hphase)
      · rw [h.stores hk hmoves hjob hphase, Store.get?_put, if_pos rfl]
  | settled =>
    exact ⟨⟨hle, hyoung, h.running, h.kept⟩, fun Y a hY => hY⟩
  | kept htasks _ hcache =>
    have hcache := hcache hno
    refine ⟨⟨hle, hyoung, fun j t Y hj hjob hphase => ?_, fun j t Y a hmade hj hjob hphase => ?_⟩,
      fun Y a hY => hcache ▸ hY⟩
    · rw [hcache]
      exact h.running j t Y (htasks ▸ hj) hjob hphase
    · rw [hcache]
      exact h.kept j t Y a hmade (htasks ▸ hj) hjob hphase

end Undisturbed

end Session

namespace Run

variable (r : Run)

/-- A template is called for by a name with the `m`-th event. -/
def Calls (m : Nat) (name X : String) : Prop :=
  r.events[m]? = some (.call name) ∧ (r.before m).normalize name = .ok X

/-- A segment of a run at whose beginning nothing is in flight and in which nothing is invalidated. -/
structure Quiet (i n : Nat) : Prop where
  within : n ≤ r.events.length
  idle : (r.before i).inflight = []
  untouched : ∀ d, r.Untouched i n d

variable {r} {i m n p k : Nat} {X : String}

theorem shared_before : ∀ n ≤ r.events.length, (r.before n).Shared := by
  refine induct ?_ fun n e he ih => ?_
  · refine ⟨fun k X h => ?_, fun X k hmem => nomatch hmem⟩
    obtain ⟨t, ht, -⟩ := h
    exact nomatch ht
  · rw [before_succ he]
    exact ih.step e

/-- A task that has been settled is joined no more. -/
theorem not_joined (he : r.events[m]? = some (.settle k))
    (hfinished : (r.before m).isFinished k = true) : ∀ n ≤ r.events.length, m < n →
      (∀ X, (X, k) ∉ (r.before n).inflight) ∧ k < (r.before n).tasks.length := by
  refine induct (fun hmn => absurd hmn (Nat.not_lt_zero m)) fun n e he' ih hmn => ?_
  rcases Nat.lt_or_eq_of_le (Nat.le_of_lt_succ hmn) with hlt | rfl
  · obtain ⟨hgone, hmade⟩ := ih hlt
    have hshift := Session.shift_step (r.before n) e
    rw [before_succ he']
    refine ⟨fun X hmem => ?_, hmade.trans_le hshift.length_le⟩
    rcases hshift.inflight hmem with hold | hlast
    · exact hgone X hold
    · exact absurd hlast hmade.ne
  · obtain ⟨t, _, hk, -⟩ := Session.finished_of_isFinished hfinished
    have hsettle : r.before (m + 1) =
        { r.before m with inflight := (r.before m).inflight.filter (·.2 != k) } := by
      rw [before_succ he]
      exact Session.settle_of_isFinished hfinished
    rw [hsettle]
    refine ⟨fun X hmem => ?_, (List.getElem?_eq_some_iff.1 hk).1⟩
    have hne := (List.mem_filter.1 hmem).2
    simp at hne

/-! ### Quiet segments -/

theorem Quiet.undisturbed (h : r.Quiet i n) : ∀ m ≤ r.events.length, i ≤ m → m ≤ n →
    (r.before m).Undisturbed (r.before i).tasks.length := by
  refine induct (fun him hmn => ?_) fun m e he ih him hmn => ?_
  · obtain rfl := Nat.le_zero.1 him
    exact (shared_before 0 (Nat.zero_le _)).undisturbed h.idle
  · rcases Nat.lt_or_eq_of_le him with hlt | rfl
    · have hm : m ≤ r.events.length := (List.getElem?_eq_some_iff.1 he).1.le
      have hno : ∀ d, ¬ (r.before m).Invalidates e d := fun d hd =>
        h.untouched d m (Nat.le_of_lt_succ hlt) hmn ⟨e, he, hd⟩
      rw [before_succ he]
      exact ((ih (Nat.le_of_lt_succ hlt) (Nat.le_of_succ_le hmn)).step (shared_before m hm) hno).1
    · exact (shared_before _ (hmn.trans h.within)).undisturbed h.idle

/-- What is compiled in a quiet segment stays so. -/
theorem Quiet.compiled (h : r.Quiet i n) {a : Artifact} (him : i ≤ m)
    (hX : (r.before m).cache.compiled.get? X = some a) : ∀ p ≤ r.events.length, m ≤ p → p ≤ n →
      (r.before p).cache.compiled.get? X = some a := by
  refine induct (fun hmp _ => ?_) fun p e he ih hmp hpn => ?_
  · rwa [← Nat.le_zero.1 hmp]
  · rcases Nat.lt_or_eq_of_le hmp with hlt | rfl
    · have hp : p ≤ r.events.length := (List.getElem?_eq_some_iff.1 he).1.le
      have hip : i ≤ p := him.trans (Nat.le_of_lt_succ hlt)
      have hno : ∀ d, ¬ (r.before p).Invalidates e d := fun d hd =>
        h.untouched d p hip hpn ⟨e, he, hd⟩
      have hundisturbed := h.undisturbed p hp hip (Nat.le_of_succ_le hpn)
      rw [before_succ he]
      exact (hundisturbed.step (shared_before p hp) hno).2 X a
        (ih (Nat.le_of_lt_succ hlt) (Nat.le_of_succ_le hpn))
    · exact hX

/-- A call in a quiet segment that has been answered well has been given what is compiled then. -/
theorem Quiet.compiled_of_answers (h : r.Quiet i n) (him : i ≤ m) (hmp : m < p) (hpn : p ≤ n)
    {name : String} {a : Artifact} (hcalls : r.Calls m name X) (hanswers : r.Answers m p name a) :
    (r.before p).cache.compiled.get? X = some a := by
  obtain ⟨he, hname⟩ := hcalls
  have hp : p ≤ r.events.length := hpn.trans h.within
  have hm : m ≤ r.events.length := hmp.le.trans hp
  have hundisturbed := h.undisturbed m hm him (hmp.le.trans hpn)
  -- a task of the segment that has ended well keeps what it has compiled
  have hended : ∀ k, (r.before i).tasks.length ≤ k →
      (r.before (m + 1)).tasks[k]?.map Task.job = some (.compile X) →
      r.phase p k = some (.finished (.ok (.compiled a))) →
      (r.before p).cache.compiled.get? X = some a := by
    intro k hk hjob hphase
    obtain ⟨t, ht, hphase⟩ := phase_eq.1 hphase
    have hjob := job_before hjob p hp hmp
    rw [ht, Option.map_some, Option.some.injEq] at hjob
    exact (h.undisturbed p hp (him.trans hmp.le) hpn).kept k t X a hk ht hjob hphase
  rcases (r.before m).call_cases name with ⟨f, hf, -⟩ | ⟨Y, hY, hcases⟩
  · rw [hname] at hf
    exact nomatch hf
  obtain rfl : X = Y := Except.ok.inj (hname.symm.trans hY)
  rcases hcases with ⟨b, hb, hcall⟩ | ⟨-, ⟨k, hk, hcall⟩ | ⟨-, hcall⟩⟩
  · rcases hanswers with hready | ⟨k, hpending, -⟩
    · rw [hcall] at hready
      cases hready
      exact h.compiled him hb p hp hmp.le hpn
    · rw [hcall] at hpending
      exact nomatch hpending
  · rcases hanswers with hready | ⟨k', hpending, hphase⟩
    · rw [hcall] at hready
      exact nomatch hready
    · rw [hcall] at hpending
      cases hpending
      have hmem := Store.mem_of_lookup hk
      obtain ⟨t, ht, hjob⟩ := (shared_before m hm).compiles X k hmem
      refine hended k (hundisturbed.young X k hmem) ?_ hphase
      obtain ⟨t', ht', hjob'⟩ := (change he).job ht
      rw [ht', Option.map_some, hjob', hjob]
  · rcases hanswers with hready | ⟨k', hpending, hphase⟩
    · rw [hcall] at hready
      exact nomatch hready
    · rw [hcall] at hpending
      cases hpending
      exact hended _ hundisturbed.le (job_of_made he hcall) hphase

/-- In every run no two tasks compile the same template at once, and a task that has ended, well or not, and
has been settled is joined no more. In a segment that begins with nothing in flight and in which nothing is
invalidated, all calls for a template that are answered well are given the same artifact, and once one of
them has been, any other is answered at once and leaves the session as it is: it makes no task and asks for
no file. -/
theorem shared (r : Run) :
    (∀ n ≤ r.events.length, ∀ X k j, (r.before n).Runs k X → (r.before n).Runs j X → k = j) ∧
    (∀ m n k, r.events[m]? = some (.settle k) → (r.before m).isFinished k = true → m < n →
      n ≤ r.events.length → ∀ X, (X, k) ∉ (r.before n).inflight) ∧
    ∀ i n, r.Quiet i n → ∀ X m p name a, i ≤ m → m < p → p ≤ n → r.Calls m name X →
      r.Answers m p name a →
      (∀ m' p' name' a', i ≤ m' → m' < p' → p' ≤ n → r.Calls m' name' X → r.Answers m' p' name' a' →
        a' = a) ∧
      ∀ m' name', p ≤ m' → m' < n → r.Calls m' name' X →
        (r.before m').call name' = (.ready a, r.before m') := by
  refine ⟨fun n hn X k j hk hj => (shared_before n hn).unique hk hj, ?_, ?_⟩
  · intro m n k he hfinished hmn hn
    exact (not_joined he hfinished n hn hmn).1
  · intro i n hquiet X m p name a him hmp hpn hcalls hanswers
    have hfirst := hquiet.compiled_of_answers him hmp hpn hcalls hanswers
    have hlater : ∀ q, p ≤ q → q ≤ n → (r.before q).cache.compiled.get? X = some a := fun q hpq hqn =>
      hquiet.compiled (him.trans hmp.le) hfirst q (hqn.trans hquiet.within) hpq hqn
    constructor
    · intro m' p' name' a' him' hmp' hpn' hcalls' hanswers'
      -- both artifacts are the one that is compiled at the end of the segment
      have hother := hquiet.compiled_of_answers him' hmp' hpn' hcalls' hanswers'
      have hend := hquiet.compiled (him'.trans hmp'.le) hother n hquiet.within hpn' le_rfl
      rw [hlater n hpn le_rfl] at hend
      exact (Option.some.inj hend).symm
    · intro m' name' hpm' hmn' hcalls'
      have hX := hlater m' hpm' hmn'.le
      rcases (r.before m').call_cases name' with ⟨f, hf, -⟩ | ⟨Y, hY, hcases⟩
      · rw [hcalls'.2] at hf
        exact nomatch hf
      · obtain rfl : X = Y := Except.ok.inj (hcalls'.2.symm.trans hY)
        rcases hcases with ⟨b, hb, hcall⟩ | ⟨hnone, -⟩
        · rw [hX] at hb
          rw [hcall, Option.some.inj hb]
        · rw [hX] at hnone
          exact nomatch hnone

end Run

end Stencil
