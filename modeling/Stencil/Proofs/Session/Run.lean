import Stencil.Proofs.Session.Change

/-!
# Runs

A run is a compiler at its beginning and all that happens to it, in order. The moments of a run are
numbered: `before n` is the session when `n` events have happened, so the events from the `i`-th one to
the one before the `n`-th one are what happens between the moments `i` and `n`.

The versions of a template only grow along a run, and they grow exactly when it is invalidated. So a
version that was taken at one moment and is found again at another one (`untouched_iff`) says that the
template was not invalidated in between, in whatever order the tasks took their turns.
-/

namespace Stencil

/-- A compiler at its beginning, and the events that happen to it. -/
structure Run where
  settings : Config.Settings
  shrinkers : Shrinkers := {}
  tree : Files.Tree
  events : List Event

namespace Run

variable (r : Run)

/-- The session when some of the events have happened. -/
def before (n : Nat) : Session :=
  Session.run { settings := r.settings, shrinkers := r.shrinkers, tree := r.tree } (r.events.take n)

/-- The session when all events have happened. -/
def now : Session := r.before r.events.length

/-- Every session that some events lead to is the last one of a run. -/
theorem now_eq : r.now =
    Session.run { settings := r.settings, shrinkers := r.shrinkers, tree := r.tree } r.events := by
  rw [now, before, List.take_length]

theorem now_concat (e : Event) : now { r with events := r.events ++ [e] } = r.now.step e := by
  rw [now_eq, now_eq, Session.run, Session.run, List.foldl_append, List.foldl_cons, List.foldl_nil]

variable {r} {n : Nat} {e : Event}

theorem before_succ (h : r.events[n]? = some e) : r.before (n + 1) = (r.before n).step e := by
  rw [before, before, List.take_add_one, h, Session.run, Session.run, List.foldl_append]
  rfl

theorem change (h : r.events[n]? = some e) : (r.before n).Change e (r.before (n + 1)) := by
  rw [before_succ h]
  exact Session.change_step _ e

/-- What holds at the beginning and is kept by every event holds at every moment. -/
theorem induct {P : Nat → Prop} (zero : P 0)
    (step : ∀ n e, r.events[n]? = some e → P n → P (n + 1)) : ∀ n ≤ r.events.length, P n := by
  intro n
  induction n with
  | zero => exact fun _ => zero
  | succ n ih =>
    intro hn
    exact step n _ (List.getElem?_eq_getElem hn) (ih (Nat.le_of_succ_le hn))

/-- The way in which templates are compiled stays as it is. -/
theorem settings_before : ∀ n ≤ r.events.length,
    (r.before n).settings = r.settings ∧ (r.before n).shrinkers = r.shrinkers := by
  refine induct ⟨rfl, rfl⟩ fun n e he ih => ?_
  have h := Session.settings_step (r.before n) e
  rw [before_succ he, h.1, h.2]
  exact ih

/-! ### Invalidations -/

variable (r)

/-- An event invalidates a template. -/
def Touches (n : Nat) (d : String) : Prop :=
  ∃ e, r.events[n]? = some e ∧ (r.before n).Invalidates e d

/-- A template is not invalidated between two moments. -/
def Untouched (i n : Nat) (d : String) : Prop := ∀ j, i ≤ j → j < n → ¬ r.Touches j d

/-- The version of a template at a moment. -/
def version (n : Nat) (d : String) : Version := (r.before n).cache.version d

variable {r} {i : Nat} {d : String}

theorem Untouched.refl (n : Nat) (d : String) : r.Untouched n n d :=
  fun j hij hjn => absurd hjn (by omega)

theorem Untouched.succ (h : r.Untouched i n d) (hn : ¬ r.Touches n d) : r.Untouched i (n + 1) d := by
  intro j hij hjn
  rcases Nat.lt_succ_iff_lt_or_eq.1 hjn with hlt | rfl
  · exact h j hij hlt
  · exact hn

theorem Untouched.of_le {m : Nat} (h : r.Untouched i n d) (hm : m ≤ n) : r.Untouched i m d :=
  fun j hij hjm => h j hij (Nat.lt_of_lt_of_le hjm hm)

theorem not_touches (he : r.events[n]? = some e) (h : ¬ (r.before n).Invalidates e d) :
    ¬ r.Touches n d := by
  rintro ⟨e', he', h'⟩
  rw [he, Option.some.injEq] at he'
  exact h (he' ▸ h')

theorem version_le_succ (hn : n < r.events.length) (d : String) : r.version n d ≤ r.version (n + 1) d :=
  (change (List.getElem?_eq_getElem hn)).version_le d

theorem version_le (hin : i ≤ n) (hn : n ≤ r.events.length) (d : String) :
    r.version i d ≤ r.version n d := by
  induction n with
  | zero => rw [Nat.le_zero.1 hin]
  | succ n ih =>
    rcases Nat.eq_or_lt_of_le hin with rfl | hlt
    · exact le_rfl
    · exact (ih (by omega) (by omega)).trans (version_le_succ (by omega) d)

/-- A template has the same version at two moments exactly if it is not invalidated in between. -/
theorem untouched_iff (hin : i ≤ n) (hn : n ≤ r.events.length) :
    r.Untouched i n d ↔ r.version n d = r.version i d := by
  induction n with
  | zero =>
    rw [Nat.le_zero.1 hin]
    exact ⟨fun _ => rfl, fun _ => .refl 0 d⟩
  | succ n ih =>
    rcases Nat.eq_or_lt_of_le hin with rfl | hlt
    · exact ⟨fun _ => rfl, fun _ => .refl _ d⟩
    · have hi : i ≤ n := Nat.le_of_lt_succ hlt
      have hn' : n ≤ r.events.length := Nat.le_of_succ_le hn
      have he := List.getElem?_eq_getElem (l := r.events) hn
      have hchange := change he
      constructor
      · intro h
        have hno : ¬ (r.before n).Invalidates r.events[n] d :=
          fun ht => h n hi (Nat.lt_succ_self n) ⟨_, he, ht⟩
        have hv : r.version (n + 1) d = r.version n d := hchange.version_eq hno
        rw [hv]
        exact (ih hi hn').1 (h.of_le (Nat.le_succ n))
      · intro hv
        have hle := version_le hi hn' d
        by_cases ht : (r.before n).Invalidates r.events[n] d
        -- a version that has grown is not the old one again
        · have hlt : r.version n d < r.version (n + 1) d := hchange.version_lt ht
          exact absurd (hle.trans_lt hlt) (by rw [hv]; exact lt_irrefl _)
        · have hv' : r.version (n + 1) d = r.version n d := hchange.version_eq ht
          refine Untouched.succ ((ih hi hn').2 ?_) (not_touches he ht)
          rw [← hv', hv]

/-! ### Tasks -/

variable (r)

/-- How far a task is at a moment. -/
def phase (n k : Nat) : Option Phase := (r.before n).tasks[k]?.map Task.phase

/-- A task goes on with its reading. -/
def Goes (k n : Nat) : Prop :=
  (r.events[n]? = some (.start k) ∧ r.phase n k = some .starting) ∨
    (r.events[n]? = some (.resume k) ∧ ∃ w content, r.phase n k = some (.fetched w content))

end Run

end Stencil
