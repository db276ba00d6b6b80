import Stencil.Proofs.Reading.Circles
import Stencil.Proofs.Session.Rereading
import Stencil.Proofs.Session.Flattening

/-!
# Circles of includes are found

Where every file that a template leads to is there, is a text and includes only templates below the root, a
reading has no other fault to meet than a circle of includes. It ends whatever the files include, and it is
refused exactly if the template leads to one that leads back to itself; what it reports is such a circle
(`circle_found`). What is in the cache does not matter, as long as it is what the files hold: a reading comes to
what the template comes to on the files.
-/

namespace Stencil

open Relation

namespace Session

/-- A file is one text, and a name is brought to one template. -/
theorem single_onDisk (s : Session) : s.onDisk.Single :=
  ⟨fun _ _ _ h h' => h.symm.trans h', fun _ _ _ h h' => h.symm.trans h'⟩

end Session

/-- A reading of a template that leads to whole files only ends, as a text or as a circle. It ends as a circle
exactly if the template leads to one that leads back to itself, and the circle that is reported begins and ends
with the same template, has no other one twice, and each template in it includes the next one. -/
theorem circle_found {s : Session} {X : String}
    (hcached : ∀ d text, s.cache.sources.get? d = some text → s.load d = .ok text)
    (hwhole : s.onDisk.Whole X) (parent : Option String) :
    let answer := (s.readFlat X parent).1
    ((∃ read, answer = .ok read) ∨ ∃ chain, answer = .error (.circular chain)) ∧
      ((∃ chain, answer = .error (.circular chain)) ↔
        ∃ p, ReflTransGen s.onDisk.Includes X p ∧ TransGen s.onDisk.Includes p p) ∧
      ∀ chain, answer = .error (.circular chain) → IsCircle s.onDisk.Includes chain := by
  intro answer
  obtain ⟨hgrows, r, hgives, hresult⟩ := s.readFlat_spec X parent
  have hdisk : Gives s.onDisk [] X r := Session.gives_onDisk hgrows hcached hgives
  have herror : ∀ f, answer = .error f ↔ r = .error f := by
    intro f
    rw [← hresult]
    show _ ↔ answer.map (·.1) = _
    rcases answer with f' | read <;> simp [Except.map]
  refine ⟨?_, ?_, ?_⟩
  · cases hanswer : answer with
    | ok read => exact Or.inl ⟨read, rfl⟩
    | error f =>
      obtain ⟨flat, hflat⟩ | ⟨chain, hchain⟩ := hdisk.text_or_circle s.single_onDisk hwhole
      · exact nomatch hflat.symm.trans ((herror f).1 hanswer)
      · exact Or.inr ⟨chain, hanswer.symm.trans ((herror _).2 hchain)⟩
  · simp only [herror]
    exact hdisk.circular_iff s.single_onDisk hwhole
  · intro chain hchain
    rw [herror] at hchain
    subst hchain
    obtain ⟨circle, heq, hcircle, -⟩ := hdisk.circular_of_error s.single_onDisk hwhole
    cases heq
    exact hcircle

/-! ### A template that includes itself -/

namespace Loop

/-- Two templates, and each includes the second one. -/
def tree : Files.Tree :=
  { entries := [(["v"], .directory), (["v", "a.mjs"], .file (Linked.bytes "<%include 'b.mjs'%>")),
      (["v", "b.mjs"], .file (Linked.bytes "<%include 'b.mjs'%>"))] }

/-- A compiler of these templates that has met the second one before. -/
def session : Session :=
  { settings := { root := "/v", compress := false }
    tree
    cache := { sources := ⟨[("b.mjs", "<%include 'b.mjs'%>")]⟩ } }

theorem load_eq {d : String} (hd : d = "a.mjs" ∨ d = "b.mjs") :
    session.load d = .ok "<%include 'b.mjs'%>" := by
  obtain ⟨hpath, hnull, hlong⟩ : Files.components (session.path d) = ["v", d] ∧
      '\x00' ∉ (session.path d).toList ∧
      (session.path d).utf8ByteSize < Files.Tree.pathLimit := by
    rcases hd with rfl | rfl <;> decide
  obtain ⟨hfits, hdirectories, hentry⟩ : (∀ n ∈ ["v", d], Files.Tree.Fits n) ∧
      (∀ i < ["v", d].length, session.tree.Enters (["v", d].take i)) ∧
      session.tree.entry? ["v", d] = some (.file (Linked.bytes "<%include 'b.mjs'%>")) := by
    rcases hd with rfl | rfl <;> decide
  have htext : Reading.ofBytes session.shrinkers.stylesheet d (Linked.bytes "<%include 'b.mjs'%>") =
      .ok "<%include 'b.mjs'%>" := by
    rcases hd with rfl | rfl <;> decide
  exact Session.load_of_entries hpath hnull hlong hfits hdirectories hentry List.not_mem_nil htext

theorem segments_eq {d : String} (hd : d = "a.mjs" ∨ d = "b.mjs") :
    segmentsOf d "<%include 'b.mjs'%>" =
      [.literal [], .include ['b', '.', 'm', 'j', 's'], .literal []] := by
  have htemplate : Identifier.isTemplate d = true := by rcases hd with rfl | rfl <;> decide
  have hinclude : include? "<%include 'b.mjs'%>".toList = some (['b', '.', 'm', 'j', 's'], []) := by decide
  rw [segmentsOf, if_pos htemplate, segments, segmentsAfter_include hinclude, segmentsAfter_nil]
  rfl

theorem normalize_b : session.normalize (String.ofList ['b', '.', 'm', 'j', 's']) = .ok "b.mjs" := by
  decide

/-- Either of them includes the second one. -/
theorem includes_b {d : String} (hd : d = "a.mjs" ∨ d = "b.mjs") : session.onDisk.Includes d "b.mjs" := by
  refine ⟨_, ['b', '.', 'm', 'j', 's'], load_eq hd, ?_, normalize_b⟩
  rw [segments_eq hd]
  exact .tail _ (.head _)

/-- Nothing else is included. -/
theorem name_eq {d : String} (hd : d = "a.mjs" ∨ d = "b.mjs") {name : List Char}
    (hname : .include name ∈ segmentsOf d "<%include 'b.mjs'%>") : name = ['b', '.', 'm', 'j', 's'] := by
  rw [segments_eq hd] at hname
  simpa using hname

theorem eq_of_reached {d : String} (h : ReflTransGen session.onDisk.Includes "a.mjs" d) :
    d = "a.mjs" ∨ d = "b.mjs" := by
  induction h with
  | refl => exact Or.inl rfl
  | tail _ hincludes ih =>
    obtain ⟨text, name, htext, hname, hchild⟩ := hincludes
    obtain rfl : text = _ := Except.ok.inj (htext.symm.trans (load_eq ih))
    rw [name_eq ih hname] at hchild
    exact Or.inr (Except.ok.inj (hchild.symm.trans normalize_b))

theorem whole_a : session.onDisk.Whole "a.mjs" := by
  intro d hreached
  have hd := eq_of_reached hreached
  refine ⟨_, load_eq hd, fun name hname => ⟨"b.mjs", ?_⟩⟩
  rw [name_eq hd hname]
  exact normalize_b

theorem cached_b {d text : String} (h : session.cache.sources.get? d = some text) :
    session.load d = .ok text := by
  have hd : (if d = "b.mjs" then some "<%include 'b.mjs'%>" else none) = some text := by
    rw [← h]
    exact (Store.lookup_cons_ite d "b.mjs" _ []).symm
  split at hd
  · next hb =>
    cases hd
    exact load_eq (Or.inr hb)
  · exact nomatch hd

/-- The first template is refused for the circle of the second one with itself, which was met before. -/
theorem circle_found_behind :
    (∀ d text, session.cache.sources.get? d = some text → session.load d = .ok text) ∧
      session.onDisk.Whole "a.mjs" ∧
      ∃ chain, (session.readFlat "a.mjs" none).1 = .error (.circular chain) ∧
        IsCircle session.onDisk.Includes chain := by
  obtain ⟨-, hiff, hcircle⟩ := circle_found (fun _ _ => cached_b) whole_a none
  obtain ⟨chain, hchain⟩ :=
    hiff.2 ⟨"b.mjs", .single (includes_b (Or.inl rfl)), .single (includes_b (Or.inr rfl))⟩
  exact ⟨fun _ _ => cached_b, whole_a, chain, hchain, hcircle chain hchain⟩

end Loop

end Stencil
