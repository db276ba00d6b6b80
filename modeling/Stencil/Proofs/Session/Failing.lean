import Stencil.Proofs.Session.Account
import Stencil.Proofs.Session.Rereading

/-!
# A compile that fails

A compile can fail at any depth of its includes, and after the last of them: a name leads nowhere, a file
cannot be had or holds no text, templates stand in a circle, the text cannot be shrunk, the template language
does not take it. Whatever it is, nothing is left of the compile but texts of files that were read well on
the way (`failed_compile`). No compiled template is stored, no version changes, what the cache held it holds
on, and no call can join the task any more.
-/

namespace Stencil

namespace Session

/-- A compile has failed with a fault, and has left nothing but honest texts: the session was `s` before and is
`s'` now. -/
structure NoTrace (s : Session) (f : Fault) (s' : Session) : Prop where
  compiled : s'.cache.compiled = s.cache.compiled
  version : s'.cache.version = s.cache.version
  inflight : s'.inflight = []
  /-- No relation is lost. -/
  edges : ∀ c p, s.cache.relations.Has c p → s'.cache.relations.Has c p
  /-- No text is lost or replaced. -/
  keeps : ∀ d text, s.cache.sources.get? d = some text → s'.cache.sources.get? d = some text
  /-- The texts that have come are those of files that were asked for meanwhile and read well, all of them of
  templates without a text before. A template whose file is missing has none now. -/
  comes : ∃ new, s'.asked = s.asked ++ new ∧ (∀ d ∈ new, s.cache.sources.get? d = none) ∧
    (∀ d text, s'.cache.sources.get? d = some text →
      s.cache.sources.get? d = some text ∨ (d ∈ new ∧ s.load d = .ok text)) ∧
    (∀ d ∈ new, ∀ g, s.load d = .error g → s'.cache.sources.get? d = none) ∧
    ∀ d path g, f = .missing d path g → d ∈ new ∧ s'.cache.sources.get? d = none

variable {s : Session}

/-- Only the file of a template itself is missing when the template is loaded. -/
theorem eq_of_load_missing {d d' path : String} {g : Files.Fault}
    (h : s.load d = .error (.missing d' path g)) : d = d' := by
  rcases fault_of_load h with ⟨g', -, hg⟩ | ⟨bytes, g', -, -, hg⟩ | ⟨text, g', -, hg⟩
  · cases g' <;> cases hg <;> rfl
  · exact nomatch hg
  · exact nomatch hg

/-- A fault in the texts is one of a name, of a circle, or of what they come to. -/
theorem InTexts.cases {f : Fault} (h : s.InTexts f) : (∃ g, f = .name g) ∨ (∃ chain, f = .circular chain) ∨
    (∃ g, f = .shrink g) ∨ ∃ g, f = .engine g := by
  rcases h with ⟨g, rfl⟩ | ⟨id, source, hbuild⟩
  · cases g with
    | circular chain => exact Or.inr (Or.inl ⟨chain, rfl⟩)
    | name g => exact Or.inl ⟨g, rfl⟩
  · rcases fault_of_build hbuild with ⟨g, rfl⟩ | ⟨r, assertion, note, rfl, -⟩ | rfl
    · exact Or.inr (Or.inr (Or.inl ⟨g, rfl⟩))
    · exact Or.inr (Or.inr (Or.inr ⟨_, rfl⟩))
    · exact Or.inr (Or.inr (Or.inr ⟨_, rfl⟩))

/-- No file is missing in the texts. -/
theorem not_inTexts_missing {d path : String} {g : Files.Fault} : ¬ s.InTexts (.missing d path g) := by
  intro h
  rcases h.cases with ⟨g', hf⟩ | ⟨chain, hf⟩ | ⟨g', hf⟩ | ⟨g', hf⟩
  · cases hf
  · cases hf
  · cases hf
  · cases hf

end Session

open Session in
/-- Whatever the cache holds, a compile that fails while no other task is under way leaves no trace but texts of
files that were read well. -/
theorem failed_compile {s : Session} (hrest : s.AtRest) {name : String} {f : Fault}
    (hfail : (s.compile name).1 = .error f) : s.NoTrace f (s.compile name).2 := by
  obtain ⟨hrest', hgrows⟩ := hrest.compile name
  obtain ⟨new, hanswered⟩ := compile_answered hrest name
  have hcomes : ∀ d text, (s.compile name).2.cache.sources.get? d = some text →
      s.cache.sources.get? d = some text ∨ (d ∈ new ∧ s.load d = .ok text) := by
    intro d text hd
    rcases hgrows.loads d text hd with hold | hload
    · exact Or.inl hold
    · exact (hanswered.comes d text hd).imp_right fun hmem => ⟨hmem, hload⟩
  have hnone : ∀ d ∈ new, ∀ g, s.load d = .error g →
      (s.compile name).2.cache.sources.get? d = none := by
    intro d hd g hload
    refine Option.eq_none_iff_forall_ne_some.2 fun text htext => ?_
    rcases hcomes d text htext with hold | ⟨-, hok⟩
    · rw [hanswered.absent d hd] at hold
      exact nomatch hold
    · rw [hload] at hok
      exact nomatch hok
  refine ⟨hanswered.compiled f hfail, hgrows.version, hrest'.inflight, hgrows.has, hgrows.keeps,
    new, hanswered.asked, hanswered.absent, hcomes, hnone, ?_⟩
  rintro d path g rfl
  -- the file that is missing is one that was asked for
  rcases hanswered.fault _ hfail with ⟨d', hd', hload⟩ | htexts
  · obtain rfl := eq_of_load_missing hload
    exact ⟨hd', hnone d' hd' _ hload⟩
  · exact absurd htexts not_inTexts_missing

namespace Linked

/-- The compiler of the linked templates without the file that the link leads to. -/
def lost : Session := { session with tree := tree.remove ["v", "b.mjs"] }

theorem settled_lost : lost.Settled := Session.settled_new settings {} _

theorem load_lost_a : lost.load "a.mjs" = .ok "<%include '/l'%>" := by
  have hpath : Files.components (lost.path "a.mjs") = ["v", "a.mjs"] := by decide
  have hentry : lost.tree.entry? ["v", "a.mjs"] = some (.file (bytes "<%include '/l'%>")) := by decide
  exact Session.load_of_entries hpath (by decide) (by decide) (by decide) (by decide) hentry (by decide) (by decide)

theorem read_lost_b : lost.tree.read (lost.path "b.mjs") = .error .notFound := by
  have hpath : Files.components (lost.path "b.mjs") = ["v", "b.mjs"] := by decide
  have hnull : '\x00' ∉ (lost.path "b.mjs").toList := by decide
  have hlong : ¬ (lost.path "b.mjs").utf8ByteSize ≥ Files.Tree.pathLimit := by decide
  have htop : lost.tree.entry? [] = some .directory := by decide
  have hdirectory : lost.tree.entry? ["v"] = some .directory := by decide
  have hnone : lost.tree.entry? ["v", "b.mjs"] = none := by decide
  have hopen : lost.tree.closed = [] := rfl
  have hwalk : lost.tree.walk true Files.Tree.linkLimit [] ["v", "b.mjs"] = .error .notFound := by
    simp [Files.Tree.walk, htop, hdirectory, hnone, hopen]
    decide
  simp [Files.Tree.read, Files.Tree.locate, Files.Tree.locateLast, hnull, hlong, hpath,
    hwalk, bind, Except.bind]

theorem load_lost_b : lost.load "b.mjs" = .error (.missing "b.mjs" "/v/b.mjs" .notFound) := by
  have hpath : lost.path "b.mjs" = "/v/b.mjs" := by decide
  rw [Session.load, read_lost_b, Session.textOf, hpath]
  rfl

/-- The link is still there, so the name leads to the template that is missing. -/
theorem normalize_lost : lost.normalize "/l" = .ok "b.mjs" := by
  have hdirectory : lost.tree.entry? ["v"] = some .directory := by decide
  have hl : Files.components "/l" = ["l"] := by decide
  have hb : Files.components "/v/b.mjs" = ["v", "b.mjs"] := by decide
  have hreal : lost.tree.realPath "/l" = "/v/b.mjs" := by
    have hstart : Files.Tree.startOf [] "/v/b.mjs" = [] := by decide
    have hlink : lost.tree.glimpse? ([] ++ ["l"]) = some (.link "/v/b.mjs") := by decide
    have hseen : lost.tree.glimpse? ["v"] = some .directory := by decide
    have hnone : lost.tree.glimpse? ["v", "b.mjs"] = none := by decide
    rw [Files.Tree.realPath, hl, Files.Tree.settle_link (by decide) hlink List.not_mem_nil, hb, hstart]
    simp [Files.Tree.settle, hseen, hnone]
    decide
  have hnormalize : lost.normalize "/l" = _ := normalize_l hdirectory
  rw [hnormalize, hreal]
  decide

/-- On disk, the first template comes to the fault of the file that is missing. -/
theorem gives_lost :
    Gives lost.onDisk [] "a.mjs" (.error (.missing "b.mjs" "/v/b.mjs" .notFound)) := by
  have hname : lost.onDisk.name ['/', 'l'] (.ok "b.mjs") := normalize_lost
  refine Or.inr ⟨List.not_mem_nil, Or.inr ⟨_, load_lost_a, ?_⟩⟩
  rw [segments_a]
  exact .literal (.missing hname (by decide) trivial load_lost_b)

theorem compile_lost : (lost.compile "a.mjs").1 = .error (.missing "b.mjs" "/v/b.mjs" .notFound) := by
  have hname : lost.normalize "a.mjs" = .ok "a.mjs" := by decide
  exact settled_lost.compile_error (fun _ _ hd => nomatch hd) hname gives_lost

/-- A template includes another one over a link, and the file is missing there. -/
theorem failed_compile_over_link :
    lost.AtRest ∧ (lost.compile "a.mjs").1 = .error (.missing "b.mjs" "/v/b.mjs" .notFound) ∧
      lost.NoTrace (.missing "b.mjs" "/v/b.mjs" .notFound) (lost.compile "a.mjs").2 :=
  ⟨settled_lost.toAtRest, compile_lost, failed_compile settled_lost.toAtRest compile_lost⟩

end Linked

end Stencil
