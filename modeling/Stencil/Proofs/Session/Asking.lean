import Stencil.Proofs.Session.Change

/-!
# What is asked for

A session keeps the list of the templates whose files were asked for. A file is asked for when a task comes
to wait for a text, and by nothing else that happens: an event of a task adds what the task waits for
afterwards (`asked_step_of_moves`), and every other event leaves the list as it is (`mem_asked_step`).
-/

namespace Stencil

/-- The templates whose files a reading asks for: the one that it waits for, if it waits. -/
def Reading.Outcome.asks : Reading.Outcome → List String
  | .waits w => [w.id]
  | .done _ | .failed _ => []

/-- The templates whose files a task asks for when it comes to a phase. -/
def Phase.asks : Phase → List String
  | .fetching w => [w.id]
  | .starting | .fetched .. | .finished _ => []

namespace Session

variable {s s' : Session} {e : Event} {k : Nat} {t t' : Task}

theorem asked_compileSource (s : Session) (k : Nat) (t : Task) (id source : String) :
    (s.compileSource k t id source).asked = s.asked := by
  unfold compileSource
  split
  · rfl
  · dsimp only
    split
    · rfl
    · rfl
    · split <;> rfl

theorem asked_advance (s : Session) (k : Nat) (t : Task) (read : Reading.Outcome × Trail) :
    (s.advance k t read).asked = s.asked ++ read.1.asks := by
  obtain ⟨outcome, trail⟩ := read
  cases outcome with
  | waits w => rfl
  | failed f => exact (List.append_nil _).symm
  | done text =>
    have hasks : s.asked ++ (Reading.Outcome.done text).asks = s.asked := List.append_nil _
    rw [hasks]
    obtain ⟨job, phase, taken⟩ := t
    cases job with
    | compile id => exact asked_compileSource _ _ _ _ _
    | read id parent => rfl

theorem asked_receive (s : Session) (w : Reading.Wait) (text : String) :
    (s.receive w text).asked = s.asked := by
  unfold receive keepText
  split <;> rfl

/-- What a reading asks for its task waits for. -/
theorem Arrives.asks {taken : Snapshot} {job : Job} {outcome : Reading.Outcome} {phase : Phase}
    {compiled : Store Artifact} (h : s.Arrives taken job outcome phase compiled) :
    phase.asks = outcome.asks := by
  cases h <;> rfl

theorem asked_start (hk : s.tasks[k]? = some t) (hphase : t.phase = .starting) :
    (s.start k).asked =
      s.asked ++ (Reading.readTemplate s.desk [] t.job.parent t.job.id (s.trail t)).1.asks := by
  unfold start
  rw [hk]
  dsimp only
  rw [hphase]
  dsimp only
  rw [asked_advance]
  obtain ⟨job, phase, taken⟩ := t
  cases job <;> rfl

/-- A task that moves asks for what it waits for afterwards. -/
theorem asked_step_of_moves (hk : s.tasks[k]? = some t) (h : s.Moves k t e t' (s.step e)) :
    (s.step e).asked = s.asked ++ t'.phase.asks := by
  cases h with
  | starts hphase h =>
    rw [h.arrives.asks]
    exact asked_start hk hphase
  | @fetches w _ hphase _ =>
    show (s.fetch k).asked = s.asked ++ []
    unfold fetch
    rw [hk]
    dsimp only
    rw [hphase, List.append_nil]
    rfl
  | fails hphase htext _ =>
    show (s.resume k).asked = s.asked ++ []
    rw [resume_eq hk hphase, htext, List.append_nil]
    rfl
  | resumes hphase htext h =>
    rw [h.arrives.asks]
    show (s.resume k).asked = _
    rw [resume_eq hk hphase, htext]
    dsimp only
    rw [asked_advance, asked_receive]

theorem Rests.mem_asked (h : s.Rests k e) {d : String} (hd : d ∈ (s.step e).asked) :
    d ∈ s.asked ∨ ∃ t ∈ (s.step e).tasks, d ∈ t.phase.asks := by
  rcases h with h | ⟨t, t', hk, htasks, hmoves⟩
  · rw [h] at hd
    exact Or.inl hd
  · rw [asked_step_of_moves hk hmoves, List.mem_append] at hd
    rcases hd with hd | hd
    · exact Or.inl hd
    · refine Or.inr ⟨t', ?_, hd⟩
      rw [htasks]
      exact List.mem_set (List.getElem?_eq_some_iff.1 hk).1 t'

/-- What is asked for after an event was asked for before, or a task waits for it now. -/
theorem mem_asked_step {d : String} (hd : d ∈ (s.step e).asked) :
    d ∈ s.asked ∨ ∃ t ∈ (s.step e).tasks, d ∈ t.phase.asks := by
  cases e with
  | call name =>
    have hasked : (s.step (.call name)).asked = s.asked := by
      unfold step
      dsimp only
      rcases s.call_cases name with ⟨f, -, h⟩ | ⟨id, -, ⟨a, -, h⟩ | ⟨-, ⟨k, -, h⟩ | ⟨-, h⟩⟩⟩
      · rw [h]
      · rw [h]
      · rw [h]
      · rw [h]
        rfl
    rw [hasked] at hd
    exact Or.inl hd
  | read id parent => exact Or.inl hd
  | start k => exact (s.rests_start k).mem_asked hd
  | fetch k => exact (s.rests_fetch k).mem_asked hd
  | resume k => exact (s.rests_resume k).mem_asked hd
  | settle k =>
    have hasked : (s.step (.settle k)).asked = s.asked := by
      unfold step settle
      dsimp only
      split <;> rfl
    rw [hasked] at hd
    exact Or.inl hd
  | invalidate name =>
    cases h : s.normalize name with
    | error f =>
      rw [step_invalidate_error h] at hd
      exact Or.inl hd
    | ok id =>
      rw [step_invalidate_ok h] at hd
      exact Or.inl hd
  | invalidateAll => exact Or.inl hd
  | clear => exact Or.inl hd
  | change tree => exact Or.inl hd

end Session

end Stencil
