import Stencil.Proofs.Files
import Stencil.Proofs.Reading.Assembly
import Stencil.Session.Calls

/-!
# Flattening without a cache

What a template comes to on its files alone. Its file is loaded; what is no template stays as it is, and in
a template every include, from the left to the right, is replaced by what the template that it names comes
to. A template inside of itself is refused, and so is everything around it: the first fault from the left,
in depth, is the fault of the whole.

Includes lead only to templates whose names stand in the files, of which there are finitely many (`Library`).
With every template that is entered there is one less that could be entered inside of it, so flattening ends.
It is the assembly of the template (`Library.flattenIn_eq`).

* `Files.Tree.load`: the text of a template, from its file;
* `Files.Tree.flatten`: what a template comes to.
-/

namespace Stencil

/-- Templates that can be flattened: what a template holds, what names are brought to, and the templates that
can be come to, among which are all that includes lead to. -/
structure Library where
  load : String → Except Fault String
  normalize : String → Except NameFault String
  ids : List String
  mem_ids : ∀ {id text : String}, load id = .ok text → ∀ name child,
    .include name ∈ segmentsOf id text → normalize (String.ofList name) = .ok child → child ∈ ids

namespace Library

variable (L : Library)

/-- How many of the templates are not in the chain. -/
def outside (chain : List String) : Nat := (L.ids.filter fun id => !chain.contains id).length

mutual

/-- What a template comes to inside the templates of the chain, the innermost first. -/
def flattenIn (chain : List String) (id : String) (_hid : id ∈ L.ids) : Except Fault String :=
  if _hc : chain.contains id then .error (.circular (Reading.circle chain id))
  else
    match hload : L.load id with
    | .error f => .error f
    | .ok text =>
      if htemplate : Identifier.isTemplate id then
        flattenParts (id :: chain) (segments text.toList) fun name child hname =>
          L.mem_ids hload name child (by rwa [segmentsOf, if_pos htemplate])
      else .ok text
termination_by (L.outside chain, 0)
decreasing_by exact Prod.Lex.left _ _ (Files.length_filter_cons_lt _hid _hc)

/-- What the segments of a template, the head of the chain, come to. -/
def flattenParts (chain : List String) (parts : List Segment)
    (hparts : ∀ name child, .include name ∈ parts → L.normalize (String.ofList name) = .ok child →
      child ∈ L.ids) : Except Fault String :=
  match parts with
  | [] => .ok ""
  | .literal text :: rest =>
    (flattenParts chain rest fun name child hmem => hparts name child (.tail _ hmem)).map
      (String.ofList text ++ ·)
  | .include name :: rest =>
    match hname : L.normalize (String.ofList name) with
    | .error f => .error (.name f)
    | .ok child =>
      match flattenIn chain child (hparts name child (.head _) hname) with
      | .error f => .error f
      | .ok inner =>
        (flattenParts chain rest fun name child hmem => hparts name child (.tail _ hmem)).map
          (inner ++ ·)
termination_by (L.outside chain, parts.length + 1)
decreasing_by
  all_goals
    apply Prod.Lex.right
    simp only [List.length_cons]
    omega

end

/-! ### Flattening and assembly -/

variable {L} {chain : List String} {id : String}

theorem flattenIn_circular (h : id ∈ chain) (hid : id ∈ L.ids) :
    L.flattenIn chain id hid = .error (.circular (Reading.circle chain id)) := by
  rw [flattenIn, dif_pos (by simpa using h)]

theorem flattenIn_fault (h : id ∉ chain) (hid : id ∈ L.ids) {f : Fault} (hload : L.load id = .error f) :
    L.flattenIn chain id hid = .error f := by
  rw [flattenIn, dif_neg (by simpa using h)]
  split
  · next f' hf' =>
    rw [hload] at hf'
    rw [Except.error.inj hf']
  · next text htext =>
    rw [hload] at htext
    exact nomatch htext

theorem flattenParts_nil (hparts : ∀ name child, .include name ∈ ([] : List Segment) →
    L.normalize (String.ofList name) = .ok child → child ∈ L.ids) :
    L.flattenParts chain [] hparts = .ok "" := by
  rw [flattenParts]

theorem flattenParts_literal {text : List Char} {rest : List Segment}
    (hparts : ∀ name child, .include name ∈ Segment.literal text :: rest →
      L.normalize (String.ofList name) = .ok child → child ∈ L.ids) :
    L.flattenParts chain (.literal text :: rest) hparts =
      (L.flattenParts chain rest fun name child hmem => hparts name child (.tail _ hmem)).map
        (String.ofList text ++ ·) := by
  rw [flattenParts]

/-- A template that is loaded is flattened by its segments. -/
theorem flattenIn_text (h : id ∉ chain) (hid : id ∈ L.ids) {text : String}
    (hload : L.load id = .ok text) :
    L.flattenIn chain id hid =
      L.flattenParts (id :: chain) (segmentsOf id text) (L.mem_ids hload) := by
  have hwhole : ∀ parts hparts, parts = segmentsOf id text →
      L.flattenIn chain id hid = L.flattenParts (id :: chain) parts hparts := by
    rintro parts hparts hsegments
    rw [flattenIn, dif_neg (by simpa using h)]
    split
    · next f hf =>
      rw [hload] at hf
      exact nomatch hf
    · next text' htext' =>
      obtain rfl : text' = text := Except.ok.inj (htext'.symm.trans hload)
      rw [segmentsOf] at hsegments
      split
      · next htemplate =>
        rw [if_pos htemplate] at hsegments
        subst hsegments
        rfl
      · next htemplate =>
        rw [if_neg htemplate] at hsegments
        subst hsegments
        rw [flattenParts_literal, flattenParts_nil]
        simp [Except.map]
  exact hwhole _ _ rfl

section Include

variable {name : List Char} {rest : List Segment}
  (hparts : ∀ n child, .include n ∈ Segment.include name :: rest →
    L.normalize (String.ofList n) = .ok child → child ∈ L.ids)

theorem flattenParts_unnamed {f : NameFault} (hname : L.normalize (String.ofList name) = .error f) :
    L.flattenParts chain (.include name :: rest) hparts = .error (.name f) := by
  rw [flattenParts]
  split
  · next f' hf' =>
    rw [hname] at hf'
    rw [Except.error.inj hf']
  · next child hchild =>
    rw [hname] at hchild
    exact nomatch hchild

theorem flattenParts_include {child : String} (hname : L.normalize (String.ofList name) = .ok child) :
    L.flattenParts chain (.include name :: rest) hparts =
      match L.flattenIn chain child (hparts name child (.head _) hname) with
      | .error f => .error f
      | .ok inner =>
        (L.flattenParts chain rest fun n child hmem => hparts n child (.tail _ hmem)).map (inner ++ ·) := by
  rw [flattenParts]
  split
  · next f hf =>
    rw [hname] at hf
    exact nomatch hf
  · next child' hchild' =>
    obtain rfl : child' = child := Except.ok.inj (hchild'.symm.trans hname)
    rfl

end Include

section World

variable {W : World} (hname : ∀ n x, W.name n x → L.normalize (String.ofList n) = x)
  (htext : ∀ d x, W.text d x → L.load d = x)

include hname htext

/-- Segments come to what they are assembled to. -/
theorem flattenParts_eq {parts : List Segment} {r : Except Fault String} (h : Reads W chain parts r) :
    ∀ hparts, L.flattenParts chain parts hparts = r := by
  induction h with
  | nil => exact fun hparts => flattenParts_nil hparts
  | literal _ ih =>
    intro hparts
    rw [flattenParts_literal, ih]
  | unnamed hn => exact fun hparts => flattenParts_unnamed hparts (hname _ _ hn)
  -- an include: its template is refused, cannot be had, fails, or is set in its place
  | circular hn hmem =>
    intro hparts
    rw [flattenParts_include hparts (hname _ _ hn), flattenIn_circular hmem]
  | missing hn hmem _ ht =>
    intro hparts
    rw [flattenParts_include hparts (hname _ _ hn), flattenIn_fault hmem _ (htext _ _ ht)]
  | broken hn hmem _ ht _ ih =>
    intro hparts
    rw [flattenParts_include hparts (hname _ _ hn), flattenIn_text hmem _ (htext _ _ ht), ih]
  | filled hn hmem _ ht _ _ ih₁ ih₂ =>
    intro hparts
    rw [flattenParts_include hparts (hname _ _ hn), flattenIn_text hmem _ (htext _ _ ht), ih₁]
    dsimp only
    rw [ih₂]

/-- A template comes to what it is assembled to. -/
theorem flattenIn_eq {r : Except Fault String} (h : Gives W chain id r) (hid : id ∈ L.ids) :
    L.flattenIn chain id hid = r := by
  rcases h with ⟨hmem, rfl⟩ | ⟨hmem, ⟨e, ht, rfl⟩ | ⟨text, ht, hreads⟩⟩
  · exact flattenIn_circular hmem hid
  · exact flattenIn_fault hmem hid (htext _ _ ht)
  · rw [flattenIn_text hmem hid (htext _ _ ht)]
    exact flattenParts_eq hname htext hreads _

end World

end Library

/-! ### The files of a tree -/

theorem mem_includeNames {name : List Char} {parts : List Segment} :
    name ∈ includeNames parts ↔ Segment.include name ∈ parts := by
  rw [includeNames, List.mem_filterMap]
  constructor
  · rintro ⟨_ | n, hmem, hpart⟩
    · exact nomatch hpart
    · cases hpart
      exact hmem
  · exact fun h => ⟨_, h, rfl⟩

theorem Identifier.isStylesheet_of_isTemplate {id : String} (h : isTemplate id = true) :
    isStylesheet id = false := by
  rw [isTemplate, beq_iff_eq] at h
  rw [isStylesheet, h]
  decide

namespace Files.Tree

/-- The text of a template below a root as its file holds it, a stylesheet shrunk, or why it cannot be
had. -/
def load (t : Tree) (shrinkers : Shrinkers) (root id : String) : Except Stencil.Fault String :=
  match t.read (under root id) with
  | .error f => .error (.ofFile id (under root id) f)
  | .ok bytes => (Reading.ofBytes shrinkers.stylesheet id bytes).mapError .ofLoad

/-- The names in the includes of all files. -/
def includes (t : Tree) : List (List Char) :=
  t.files.flatMap fun (_, content) => Session.namesInFile content

theorem mem_includes {t : Tree} {shrinkers : Shrinkers} {root id text : String} {name : List Char}
    (h : t.load shrinkers root id = .ok text) (hname : .include name ∈ segmentsOf id text) :
    name ∈ t.includes := by
  rw [segmentsOf] at hname
  split at hname
  · next htemplate =>
    unfold load at h
    cases hread : t.read (under root id) with
    | error f =>
      rw [hread] at h
      exact nomatch h
    | ok bytes =>
      rw [hread] at h
      obtain ⟨p, hmem⟩ := mem_files_of_read hread
      have hfile : name ∈ Session.namesInFile bytes := by
        unfold Reading.ofBytes at h
        rw [Identifier.isStylesheet_of_isTemplate htemplate] at h
        dsimp only at h
        unfold Session.namesInFile
        cases hdecode : Text.decode bytes with
        | error f =>
          rw [hdecode] at h
          exact nomatch h
        | ok decoded =>
          rw [hdecode] at h
          cases h
          exact mem_includeNames.2 hname
      exact List.mem_flatMap.2 ⟨(p, bytes), hmem, hfile⟩
  · cases List.mem_singleton.1 hname

/-- The files of a tree as templates below a root; flattening begins with one of them. -/
def library (t : Tree) (shrinkers : Shrinkers) (root id : String) : Library where
  load := t.load shrinkers root
  normalize := Identifier.normalize t root root
  ids := id :: t.includes.filterMap fun name =>
    (Identifier.normalize t root root (String.ofList name)).toOption
  mem_ids := by
    intro d text hload name child hinclude hchild
    refine List.mem_cons_of_mem _ (List.mem_filterMap.2 ⟨name, mem_includes hload hinclude, ?_⟩)
    rw [hchild]
    rfl

theorem normalize_library (t : Tree) (shrinkers : Shrinkers) (root id : String) :
    (t.library shrinkers root id).normalize = Identifier.normalize t root root := by
  rw [library]

theorem load_library (t : Tree) (shrinkers : Shrinkers) (root id : String) :
    (t.library shrinkers root id).load = t.load shrinkers root := by
  rw [library]

/-- What a template below a root comes to on the files alone. -/
def flatten (t : Tree) (shrinkers : Shrinkers) (root id : String) : Except Stencil.Fault String :=
  (t.library shrinkers root id).flattenIn [] id List.mem_cons_self

end Files.Tree

end Stencil
