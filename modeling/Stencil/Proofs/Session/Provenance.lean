import Stencil.Proofs.Session.Run

/-!
# Where texts come from

Every text in the cache has been fetched: at some moment a task began to wait for the file, at a later
one the file was read, and at a last one the task went on with what had been read. `Fetch` is a record
of these moments and `Run.Fetched` says that they are in the run.

The version in a wait is the version of its template when the file was asked for. So when the text is
kept, because the version is the same, nothing has invalidated the template since the file was asked
for, and what is in the cache stays that fresh (`Run.kept`). The versions that a task takes are never
ahead of the fetches that it makes (`Run.met`), which is what makes the later comparison with them
meaningful.
-/

namespace Stencil

/-- A file that was fetched: for which task, what the task was waiting for, what was read, and the
events with which the file was asked for, was read, and came back. -/
structure Fetch where
  task : Nat
  wait : Reading.Wait
  content : Except Files.Fault (List UInt8)
  text : String
  asked : Nat
  read : Nat
  back : Nat

/-- The template whose file was fetched. -/
def Fetch.id (f : Fetch) : String := f.wait.id

/-- A task has not gone on yet since it began to wait for a text. -/
def Phase.Awaits (p : Phase) (w : Reading.Wait) : Prop :=
  p = .fetching w ∨ ∃ content, p = .fetched w content

namespace Run

variable (r : Run)

/-- A task begins to wait for a file with the `i`-th event and waits for it up to a moment. -/
structure Waits (k : Nat) (w : Reading.Wait) (i n : Nat) : Prop where
  lt : i < n
  asks : r.Goes k i
  waiting : ∀ m, i < m → m ≤ n → r.phase m k = some (.fetching w)

/-- What a task was waiting for is read with the `j`-th event, and up to a moment it does not go on. -/
structure Holds (k : Nat) (w : Reading.Wait) (content : Except Files.Fault (List UInt8))
    (i j n : Nat) : Prop where
  waits : r.Waits k w i j
  lt : j < n
  reads : content = (r.before j).tree.read ((r.before j).path w.id)
  holding : ∀ m, j < m → m ≤ n → r.phase m k = some (.fetched w content)

/-- A file is fetched in a run. -/
structure Fetched (f : Fetch) : Prop where
  holds : r.Holds f.task f.wait f.content f.asked f.read f.back
  resumed : r.events[f.back]? = some (.resume f.task)
  text : (r.before f.back).textOf f.id f.content = .ok f.text

/-- What was fetched is in the cache from then up to a moment. -/
structure Keeps (f : Fetch) (n : Nat) : Prop where
  lt : f.back < n
  keeps : ∀ m, f.back < m → m ≤ n → (r.before m).cache.sources.get? f.id = some f.text

/-- A task goes on with its reading with the `j`-th event and is given a text: one that it has fetched
itself, or one that the cache keeps. -/
def Takes (k j : Nat) (f : Fetch) : Prop :=
  r.Goes k j ∧ r.Fetched f ∧ ((f.task = k ∧ f.back = j) ∨ r.Keeps f (j + 1))

variable {r} {n k : Nat}

theorem phase_eq {p : Phase} :
    r.phase n k = some p ↔ ∃ t, (r.before n).tasks[k]? = some t ∧ t.phase = p := by
  rw [phase, Option.map_eq_some_iff]

/-- A task that moves goes on with its reading, or its file is read. -/
theorem goes_of_moves {e : Event} {t t' : Task} {s' : Session} (he : r.events[n]? = some e)
    (hk : (r.before n).tasks[k]? = some t) (h : (r.before n).Moves k t e t' s') :
    r.Goes k n ∨ ∃ w, t.phase = .fetching w ∧
      t' = { t with phase := .fetched w ((r.before n).tree.read ((r.before n).path w.id)) } := by
  cases h with
  | starts hphase _ => exact Or.inl (Or.inl ⟨he, phase_eq.2 ⟨t, hk, hphase⟩⟩)
  | fetches hphase _ => exact Or.inr ⟨_, hphase, rfl⟩
  | fails hphase _ _ => exact Or.inl (Or.inr ⟨he, _, _, phase_eq.2 ⟨t, hk, hphase⟩⟩)
  | resumes hphase _ _ => exact Or.inl (Or.inr ⟨he, _, _, phase_eq.2 ⟨t, hk, hphase⟩⟩)

/-! ### Waiting tasks -/

/-- A task that waits for a file began to wait at some moment, when its template had the version in
the wait. -/
theorem waits_of_phase : ∀ n ≤ r.events.length, ∀ k w, r.phase n k = some (.fetching w) →
    ∃ i, r.Waits k w i n ∧ r.version i w.id = w.version := by
  refine induct (fun k w h => ?_) fun n e he ih k w h => ?_
  · obtain ⟨t, ht, -⟩ := phase_eq.1 h
    exact nomatch ht
  · obtain ⟨t', ht', hphase⟩ := phase_eq.1 h
    rcases (change he).task_cases ht' with hold | ⟨job, rfl, -⟩ | ⟨t, ht, hmoves⟩
    -- the task waits already, it is new, or it begins to wait with this event
    · obtain ⟨i, hwaits, hv⟩ := ih k w (phase_eq.2 ⟨t', hold, hphase⟩)
      refine ⟨i, ⟨Nat.lt_succ_of_lt hwaits.lt, hwaits.asks, fun m him hmn => ?_⟩, hv⟩
      rcases Nat.lt_or_eq_of_le hmn with hlt | rfl
      · exact hwaits.waiting m him (Nat.le_of_lt_succ hlt)
      · exact h
    · exact nomatch hphase
    · rcases goes_of_moves he ht hmoves with hgoes | ⟨w', -, rfl⟩
      · refine ⟨n, ⟨Nat.lt_succ_self n, hgoes, fun m hnm hmn => ?_⟩, (hmoves.waits hphase).1.symm⟩
        obtain rfl : m = n + 1 := by omega
        exact h
      · exact nomatch hphase

/-- A task that has not gone on with what was read for it has waited for it. -/
theorem holds_of_phase : ∀ n ≤ r.events.length, ∀ k w content,
    r.phase n k = some (.fetched w content) →
    ∃ i j, r.Holds k w content i j n ∧ r.version i w.id = w.version := by
  refine induct (fun k w content h => ?_) fun n e he ih k w content h => ?_
  · obtain ⟨t, ht, -⟩ := phase_eq.1 h
    exact nomatch ht
  · have hn : n ≤ r.events.length := (List.getElem?_eq_some_iff.1 he).1.le
    obtain ⟨t', ht', hphase⟩ := phase_eq.1 h
    rcases (change he).task_cases ht' with hold | ⟨job, rfl, -⟩ | ⟨t, ht, hmoves⟩
    · obtain ⟨i, j, hholds, hv⟩ := ih k w content (phase_eq.2 ⟨t', hold, hphase⟩)
      refine ⟨i, j, ⟨hholds.waits, Nat.lt_succ_of_lt hholds.lt, hholds.reads, fun m hjm hmn => ?_⟩, hv⟩
      rcases Nat.lt_or_eq_of_le hmn with hlt | rfl
      · exact hholds.holding m hjm (Nat.le_of_lt_succ hlt)
      · exact h
    · exact nomatch hphase
    · obtain ⟨hw, rfl⟩ := hmoves.fetched hphase
      obtain ⟨i, hwaits, hv⟩ := waits_of_phase n hn k w (phase_eq.2 ⟨t, ht, hw⟩)
      refine ⟨i, n, ⟨hwaits, Nat.lt_succ_self n, rfl, fun m hnm hmn => ?_⟩, hv⟩
      obtain rfl : m = n + 1 := by omega
      exact h

/-! ### Versions that were taken -/

/-- No task has taken a version that is ahead. -/
theorem taken_le : ∀ n ≤ r.events.length, ∀ (k : Nat) (t : Task) (d : String) (v : Version),
    (r.before n).tasks[k]? = some t → t.taken.lookup d = some v → v ≤ r.version n d := by
  refine induct (fun k t d v h => ?_) fun n e he ih k t' d v ht' hv => ?_
  · exact nomatch h
  have hle : r.version n d ≤ r.version (n + 1) d := (change he).version_le d
  rcases (change he).task_cases ht' with hold | ⟨job, rfl, -⟩ | ⟨t, ht, hmoves⟩
  · exact (ih k t' d v hold hv).trans hle
  · exact nomatch hv
  · rcases hmoves.takes hv with hv | rfl
    · exact (ih k t d v ht hv).trans hle
    · exact hle

/-- A task that waits for a text has met its template before the file was asked for. -/
theorem met : ∀ n ≤ r.events.length, ∀ (k : Nat) (t : Task) (w : Reading.Wait),
    (r.before n).tasks[k]? = some t → t.phase.Awaits w →
    ∃ v, t.taken.lookup w.id = some v ∧ v ≤ w.version := by
  refine induct (fun k t w h => ?_) fun n e he ih k t' w ht' hw => ?_
  · exact nomatch h
  rcases (change he).task_cases ht' with hold | ⟨job, rfl, -⟩ | ⟨t, ht, hmoves⟩
  · exact ih k t' w hold hw
  · rcases hw with hw | ⟨content, hw⟩ <;> exact nomatch hw
  · rcases hw with hw | ⟨content, hw⟩
    · obtain ⟨hversion, hmet, -⟩ := hmoves.waits hw
      obtain ⟨v, hv⟩ := Option.isSome_iff_exists.1 hmet
      have hle := taken_le (n + 1) (List.getElem?_eq_some_iff.1 he).1 k t' w.id v ht' hv
      have hkeep : r.version (n + 1) w.id = (r.before n).cache.version w.id :=
        congrFun hmoves.version w.id
      refine ⟨v, hv, ?_⟩
      rwa [hversion, ← hkeep]
    · obtain ⟨v, hv, hle⟩ := ih k t w ht (Or.inl (hmoves.fetched hw).1)
      exact ⟨v, hmoves.keeps hv, hle⟩

/-! ### Texts -/

/-- What a task goes on with is fetched. -/
theorem fetched_of_resume {t : Task} {w : Reading.Wait}
    {content : Except Files.Fault (List UInt8)} {text : String} (he : r.events[n]? = some (.resume k))
    (hk : (r.before n).tasks[k]? = some t) (hphase : t.phase = .fetched w content)
    (htext : (r.before n).textOf w.id content = .ok text) :
    ∃ f, r.Fetched f ∧ f.task = k ∧ f.wait = w ∧ f.text = text ∧ f.back = n ∧
      r.version f.asked w.id = w.version := by
  have hn : n ≤ r.events.length := (List.getElem?_eq_some_iff.1 he).1.le
  obtain ⟨i, j, hholds, hv⟩ := holds_of_phase n hn k w content (phase_eq.2 ⟨t, hk, hphase⟩)
  exact ⟨⟨k, w, content, text, i, j, n⟩, ⟨hholds, he, htext⟩, rfl, rfl, rfl, rfl, hv⟩

theorem Fetched.asked_lt_back {f : Fetch} (h : r.Fetched f) : f.asked < f.back :=
  h.holds.waits.lt.trans h.holds.lt

/-- What the cache holds has been fetched, and its template was not invalidated since the file was
asked for. -/
theorem kept : ∀ n ≤ r.events.length, ∀ d text, (r.before n).cache.sources.get? d = some text →
    ∃ f, r.Fetched f ∧ f.id = d ∧ f.text = text ∧ r.Keeps f n ∧ r.Untouched f.asked n d := by
  refine induct (fun d text h => ?_) fun n e he ih d text hd => ?_
  · exact nomatch h
  have hn : n ≤ r.events.length := (List.getElem?_eq_some_iff.1 he).1.le
  rcases (change he).sources_cases hd with
      ⟨hold, hno⟩ | ⟨k, t, w, content, rfl, hk, hphase, htext, rfl, hversion⟩
  · obtain ⟨f, hf, rfl, rfl, hkeeps, hun⟩ := ih d text hold
    refine ⟨f, hf, rfl, rfl, ⟨Nat.lt_succ_of_lt hkeeps.lt, fun m hbm hmn => ?_⟩,
      hun.succ (not_touches he hno)⟩
    rcases Nat.lt_or_eq_of_le hmn with hlt | rfl
    · exact hkeeps.keeps m hbm (Nat.le_of_lt_succ hlt)
    · exact hd
  · obtain ⟨f, hf, -, rfl, rfl, rfl, hv⟩ := fetched_of_resume he hk hphase htext
    refine ⟨f, hf, rfl, rfl, ⟨Nat.lt_succ_self _, fun m hbm hmn => ?_⟩, ?_⟩
    · obtain rfl : m = f.back + 1 := by omega
      exact hd
    · refine ((untouched_iff hf.asked_lt_back.le hn).2 ?_).succ (not_touches he id)
      exact hversion.trans hv.symm

end Run

end Stencil
