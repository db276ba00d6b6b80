import Stencil.Proofs.Session.Freshness

/-!
# What a call is given

A call for a template is answered with a compiled template from the cache, or by a task: by one of its
own, or by one that is under way for the same template already. The first two give nothing that is older
than an invalidation from before the call: what is in the cache is fresh, and a task takes no version from
before it was made (`Run.taken_ge`), so it is never given a text that was out of date by then
(`Run.nothing_older`, `Run.answered`).

A task that is joined may have been given its texts before, and the call shares them with those that came
earlier.
-/

namespace Stencil

namespace Run

variable (r : Run)

/-- What a task has been given, if none of it was asked for before an invalidation that some moment finds
done. -/
def since (k m n : Nat) : World where
  name c x := ∃ j < n, r.Goes k j ∧ (r.before j).normalize (String.ofList c) = x
  text d x := ∃ j < n, ∃ f, r.Takes k j f ∧ f.id = d ∧ x = .ok f.text ∧
    ∀ i < m, r.Touches i d → i < f.asked
  edge _ _ := True

/-- A compiled template is assembled by a task from texts none of which is older than an invalidation that
some moment finds done. -/
def NotOlder (m n : Nat) (X : String) (a : Artifact) : Prop :=
  ∃ k flat, Enters (r.since k m n) [] X (.ok flat) ∧ r.build X flat = .ok a.template

/-- What a call with the `m`-th event is given, once it is answered: a compiled template from the cache, or
what its task has come to. -/
def Answers (m n : Nat) (name : String) (a : Artifact) : Prop :=
  ((r.before m).call name).1 = .ready a ∨
    ∃ k, ((r.before m).call name).1 = .pending k ∧ r.phase n k = some (.finished (.ok (.compiled a)))

variable {r} {m n k : Nat}

/-- A task takes no version from before it was made. -/
theorem taken_ge (hm : (r.before m).tasks.length ≤ k) : ∀ n ≤ r.events.length, m ≤ n →
    ∀ (t : Task) (d : String) (v : Version), (r.before n).tasks[k]? = some t →
      t.taken.lookup d = some v → r.version m d ≤ v := by
  have hnone : ∀ t, (r.before m).tasks[k]? ≠ some t := by
    intro t ht
    rw [List.getElem?_eq_none hm] at ht
    exact nomatch ht
  refine induct (fun hmn t d v ht => ?_) fun n e he ih hmn t' d v ht' hv => ?_
  · obtain rfl := Nat.le_zero.1 hmn
    exact absurd ht (hnone t)
  rcases Nat.lt_or_eq_of_le hmn with hlt | rfl
  · have hle : m ≤ n := Nat.le_of_lt_succ hlt
    have hn : n ≤ r.events.length := (List.getElem?_eq_some_iff.1 he).1.le
    rcases (change he).task_cases ht' with hold | ⟨job, rfl, -⟩ | ⟨t, ht, hmoves⟩
    · exact ih hle t' d v hold hv
    · exact nomatch hv
    · rcases hmoves.takes hv with hv | rfl
      · exact ih hle t d v ht hv
      · exact version_le hle hn d
  · exact absurd ht' (hnone t')

/-- A text whose version was not taken before a moment is not older than an invalidation that the moment
finds done. -/
theorem lt_asked_of_version_le {d : String} {i asked : Nat} (hm : m ≤ r.events.length) (hi : i < m)
    (htouches : r.Touches i d) (hle : r.version m d ≤ r.version asked d) : i < asked := by
  obtain ⟨e, he, hinvalidates⟩ := htouches
  by_contra hasked
  have hn : i < r.events.length := (List.getElem?_eq_some_iff.1 he).1
  have h₁ : r.version asked d ≤ r.version i d := version_le (Nat.le_of_not_lt hasked) hn.le d
  have h₂ : r.version i d < r.version (i + 1) d := (change he).version_lt hinvalidates
  have h₃ : r.version (i + 1) d ≤ r.version m d := version_le hi hm d
  exact lt_irrefl _ ((h₁.trans_lt h₂).trans_le (h₃.trans hle))

/-- A task is given nothing that is older than an invalidation from before it was made. -/
theorem nothing_older (hm : (r.before m).tasks.length ≤ k) (hmn : m ≤ n) (hn : n ≤ r.events.length)
    {t : Task} {X : String} {a : Artifact} (hk : (r.before n).tasks[k]? = some t)
    (hjob : t.job = .compile X) (hphase : t.phase = .finished (.ok (.compiled a))) :
    r.NotOlder m n X a := by
  have hstands := fits n hn k t X hk hjob
  rw [hphase] at hstands
  obtain ⟨flat, henters, hbuild⟩ := hstands
  have hle : r.known k n t.taken ≤ r.since k m n := by
    refine ⟨fun _ _ hname => hname, ?_, fun _ _ _ => trivial⟩
    rintro d x ⟨j, hj, f, v, htakes, hid, hx, hd, hv, -⟩
    refine ⟨j, hj, f, htakes, hid, hx, fun i hi htouches => ?_⟩
    have hle : r.version m d ≤ v := taken_ge hm n hn hmn t d v hk hd
    exact lt_asked_of_version_le (hmn.trans hn) hi htouches (hle.trans hv)
  exact ⟨k, flat, henters.of_le hle, hbuild⟩

/-- What is fresh at a moment is not older than an invalidation that the moment finds done. -/
theorem NotOlder.of_freshly {X : String} {a : Artifact} (hmn : m ≤ n) (h : r.Freshly m X a) :
    r.NotOlder m n X a := by
  obtain ⟨k, t, flat, -, -, -, henters, hbuild⟩ := h
  have hle : r.fresh k m ≤ r.since k m n := by
    refine ⟨?_, ?_, fun _ _ _ => trivial⟩
    · rintro c x ⟨j, hj, h⟩
      exact ⟨j, hj.trans_le hmn, h⟩
    · rintro d x ⟨j, hj, f, htakes, hid, hx, huntouched⟩
      refine ⟨j, hj.trans_le hmn, f, htakes, hid, hx, fun i hi htouches => ?_⟩
      by_contra hasked
      exact huntouched i (Nat.le_of_not_lt hasked) hi htouches
  exact ⟨k, flat, henters.of_le hle, hbuild⟩

/-- A task keeps its job. -/
theorem job_before {job : Job} (h : (r.before m).tasks[k]?.map Task.job = some job) :
    ∀ n ≤ r.events.length, m ≤ n → (r.before n).tasks[k]?.map Task.job = some job := by
  refine induct (fun hmn => ?_) fun n e he ih hmn => ?_
  · rw [← Nat.le_zero.1 hmn]
    exact h
  rcases Nat.lt_or_eq_of_le hmn with hlt | rfl
  · obtain ⟨t, ht, rfl⟩ := Option.map_eq_some_iff.1 (ih (Nat.le_of_lt_succ hlt))
    obtain ⟨t', ht', hjob⟩ := (change he).job ht
    rw [ht', Option.map_some, hjob]
  · exact h

/-- The task that is made for a call compiles the template of the call. -/
theorem job_of_made {name X : String} (he : r.events[m]? = some (.call name))
    (hcall : (r.before m).call name =
      (.pending (r.before m).tasks.length, (r.before m).withCompile X)) :
    (r.before (m + 1)).tasks[(r.before m).tasks.length]?.map Task.job = some (.compile X) := by
  have hstep : r.before (m + 1) = (r.before m).withCompile X := by
    rw [before_succ he]
    show ((r.before m).call name).2 = _
    rw [hcall]
  rw [hstep, (r.before m).task_withCompile X]
  rfl

/-- A call that joins no task under way is never given a text that was fetched before an invalidation from
before the call. -/
theorem answered {name X : String} {a : Artifact} (he : r.events[m]? = some (.call name))
    (hname : (r.before m).normalize name = .ok X) (halone : (r.before m).inflight.lookup X = none)
    (hmn : m < n) (hn : n ≤ r.events.length) (h : r.Answers m n name a) : r.NotOlder m n X a := by
  rcases (r.before m).call_cases name with ⟨f, hf, -⟩ | ⟨X', hX', hcases⟩
  · rw [hname] at hf
    exact nomatch hf
  obtain rfl : X = X' := Except.ok.inj (hname.symm.trans hX')
  -- it is in the cache, a task under way is joined, or a task is made
  rcases hcases with ⟨b, hb, hcall⟩ | ⟨-, ⟨k, hk, -⟩ | ⟨-, hcall⟩⟩
  · rcases h with hready | ⟨k, hpending, -⟩
    · rw [hcall] at hready
      cases hready
      exact .of_freshly hmn.le (compiled_fresh m (hmn.le.trans hn) X a hb).1
    · rw [hcall] at hpending
      exact nomatch hpending
  · rw [halone] at hk
    exact nomatch hk
  · rcases h with hready | ⟨k, hpending, hphase⟩
    · rw [hcall] at hready
      exact nomatch hready
    · rw [hcall] at hpending
      cases hpending
      have hmade := job_of_made he hcall
      obtain ⟨t, ht, hfinished⟩ := phase_eq.1 hphase
      have hjob := job_before hmade n hn hmn
      rw [ht, Option.map_some, Option.some.injEq] at hjob
      exact nothing_older le_rfl hmn.le hn ht hjob hfinished

end Run

end Stencil
