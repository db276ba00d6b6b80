import Stencil.Proofs.Session.Rereading

/-!
# Reading is flattening

A reading takes what it can from the cache and stops at every text that is not there. What it comes to all
the same does not depend on the cache, as long as the cache holds what the files hold: it is what the
template comes to on the files alone, the same text or the same fault. Each stop adds to the cache only what
a file holds, so the cache still holds what the files hold afterwards (`readFlat_eq_flatten`).
-/

namespace Stencil

namespace Session

variable {s : Session} {X : String}

/-- What a task that reads has come to is what its template comes to. -/
theorem Makes.text {r : Except Fault String} {parent : Option String} {result : Except Fault Product}
    (h : s.Makes (.read X parent) r result) : (answer result).map (·.1) = r := by
  cases h with
  | failed => rfl
  | read => rfl

/-- A reading is the answer of its task, carried through. -/
theorem readFlat_eq (s : Session) (X : String) (parent : Option String) :
    s.readFlat X parent =
      (answer (((s.callRead X parent).2.complete s.tasks.length).result s.tasks.length),
        (s.callRead X parent).2.complete s.tasks.length) := by
  have hcall : s.callRead X parent = (s.tasks.length, (s.callRead X parent).2) := rfl
  unfold readFlat
  rw [hcall]
  dsimp only
  rcases ((s.callRead X parent).2.complete s.tasks.length).result s.tasks.length with
    f | (a | ⟨text, taken⟩) <;> rfl

/-- What a reading comes to: what the cache and the files give for its template. The cache only grows. -/
theorem readFlat_spec (s : Session) (X : String) (parent : Option String) :
    Grows s (s.readFlat X parent).2 ∧
      ∃ r, Gives (s.readFlat X parent).2.world [] X r ∧ (s.readFlat X parent).1.map (·.1) = r := by
  have hgrows₁ : Grows s (s.callRead X parent).2 := .of_cache rfl rfl rfl rfl
  have hk := s.task_callRead X parent
  obtain ⟨s₂, hunderway, hfinished, hcomplete⟩ := complete_new hk
  have hgrows₂ : Grows s₂ { s₂ with inflight := s₂.inflight.filter (·.2 != s.tasks.length) } :=
    .of_cache rfl rfl rfl rfl
  rw [readFlat_eq, hcomplete]
  obtain ⟨⟨r, hgives, hmakes⟩, -⟩ := hunderway.ends hfinished
  exact ⟨(hgrows₁.trans hunderway.grows).trans hgrows₂, r, hgives.of_le hgrows₂.world_le, hmakes.text⟩

/-- What a template comes to on the files is what it is flattened to. -/
theorem flatten_eq {r : Except Fault String} (h : Gives s.onDisk [] X r) :
    s.tree.flatten s.shrinkers s.root X = r := by
  have hname : ∀ n x, s.onDisk.name n x →
      (s.tree.library s.shrinkers s.root X).normalize (String.ofList n) = x := by
    intro n x hn
    rw [Files.Tree.normalize_library]
    exact hn
  have htext : ∀ d x, s.onDisk.text d x → (s.tree.library s.shrinkers s.root X).load d = x := by
    intro d x hd
    rw [Files.Tree.load_library, ← load_eq]
    exact hd
  exact Library.flattenIn_eq hname htext h _

end Session

/-- A reading of a template comes to what the template is flattened to on the files alone, the same text or
the same fault, whatever the cache holds of the files already; afterwards the cache holds again only what the
files hold. -/
theorem readFlat_eq_flatten {s : Session} {X : String}
    (hcached : ∀ d text, s.cache.sources.get? d = some text → s.tree.load s.shrinkers s.root d = .ok text)
    (parent : Option String) :
    (s.readFlat X parent).1.map (·.1) = s.tree.flatten s.shrinkers s.root X ∧
      ∀ d text, (s.readFlat X parent).2.cache.sources.get? d = some text →
        s.tree.load s.shrinkers s.root d = .ok text := by
  obtain ⟨hgrows, r, hgives, hresult⟩ := s.readFlat_spec X parent
  have hcurrent : ∀ d text, s.cache.sources.get? d = some text → s.load d = .ok text := by
    intro d text hd
    rw [Session.load_eq]
    exact hcached d text hd
  refine ⟨?_, fun d text hd => ?_⟩
  · rw [hresult, Session.flatten_eq (Session.gives_onDisk hgrows hcurrent hgives)]
  · rcases hgrows.loads d text hd with hold | hload
    · exact hcached d text hold
    · rw [← Session.load_eq]
      exact hload

namespace Linked

/-- The session with the text of the other template in the cache already. -/
def half : Session := { session with cache := { sources := ({} : Store String).put "b.mjs" "b" } }

/-- The text that is cached is what its file holds. -/
theorem load_half {d text : String} (hd : half.cache.sources.get? d = some text) :
    half.load d = .ok text := by
  have hd' : (({} : Store String).put "b.mjs" "b").get? d = some text := hd
  rw [Store.get?_put] at hd'
  split at hd'
  · next hb =>
    cases hd'
    rw [hb]
    exact load_b
  · exact nomatch hd'

/-- A template over a link whose other half is cached is read as it is flattened. -/
theorem read_half_cached :
    (∀ d text, half.cache.sources.get? d = some text → half.tree.load half.shrinkers half.root d = .ok text) ∧
      (half.readFlat "a.mjs" none).1.map (·.1) = .ok "b" := by
  have hcached : ∀ d text, half.cache.sources.get? d = some text →
      half.tree.load half.shrinkers half.root d = .ok text := by
    intro d text hd
    exact (half.load_eq d).symm.trans (load_half hd)
  have hflatten : half.tree.flatten half.shrinkers half.root "a.mjs" = .ok "b" := Session.flatten_eq gives_a
  exact ⟨hcached, (readFlat_eq_flatten hcached none).1.trans hflatten⟩

end Linked

end Stencil
