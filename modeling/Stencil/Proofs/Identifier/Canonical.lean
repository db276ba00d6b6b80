import Stencil.Proofs.Files.Path
import Stencil.Proofs.Identifier

/-!
# Identifiers are canonical

A name that is not absolute, or is absolute and leads to the root or below it as it is written, is brought to
its identifier as text alone (`normalize_eq_ok_iff`): it is accepted exactly if the place that it comes to lies
below the place of the root, and its identifier is the line of names from the root to there. So an identifier
has no blank name and no dots in it, it is its own identifier, and names are brought to the same one exactly
if they come to the same place.
-/

namespace Stencil

open Files

namespace Identifier

variable {tree : Tree} {here root name id : String} {names : List String}

theorem afterRoot?_eq_some_iff {root names rest : List String} :
    afterRoot? root names = some rest ↔ names = root ++ rest := by
  induction root generalizing names with
  | nil => simp [afterRoot?]
  | cons r root ih =>
    cases names with
    | nil => simp [afterRoot?]
    | cons n names =>
      rw [afterRoot?]
      split
      · next hrn => simp [ih, hrn]
      · next hrn => simp [Ne.symm hrn]

/-- The names below a root are those that its place is continued by. -/
theorem relative?_eq_some_iff {root path : String} :
    relative? root path = some names ↔ names ≠ [] ∧ placeOf path = placeOf root ++ names := by
  rw [relative?, ← placeOf, ← placeOf]
  split
  · next n rest h =>
    have happ := afterRoot?_eq_some_iff.1 h
    constructor
    · intro heq
      cases heq
      exact ⟨List.cons_ne_nil _ _, happ⟩
    · rintro ⟨-, hnames⟩
      rw [List.append_cancel_left (happ.symm.trans hnames)]
  · next hnone =>
    constructor
    · intro heq
      cases heq
    · rintro ⟨hne, hnames⟩
      obtain ⟨n, rest, rfl⟩ := List.exists_cons_of_ne_nil hne
      exact absurd (afterRoot?_eq_some_iff.2 hnames) (hnone n rest)

/-- A path is not below itself. -/
theorem relative?_self (path : String) : relative? path path = none := by
  refine Option.eq_none_iff_forall_ne_some.2 fun names h => ?_
  obtain ⟨hne, happ⟩ := relative?_eq_some_iff.1 h
  exact hne (List.self_eq_append_right.1 happ)

/-- A root as an absolute path. -/
def base (here root : String) : String := join here root

/-- The place to which a name leads from a root. -/
def place (here root name : String) : Place := placeOf (join (base here root) name)

/-- A name that is looked at as text alone: one that is not absolute, or leads to the root or below it. -/
def Lexical (here root name : String) : Prop :=
  isAbsolute name = true → placeOf (base here root) <+: placeOf name

theorem components_absolute (here root : String) :
    components (absolute here root) = placeOf (base here root) :=
  components_tidy _

theorem placeOf_absolute (here root : String) :
    placeOf (absolute here root) = placeOf (base here root) :=
  placeOf_tidy _

theorem components_full (here root name : String) :
    components (tidy (join (absolute here root) name)) = place here root name := by
  rw [components_tidy, place, ← placeOf]
  exact placeOf_join_congr (placeOf_absolute here root) name

theorem placeOf_full (here root name : String) :
    placeOf (tidy (join (absolute here root) name)) = place here root name := by
  rw [placeOf_tidy, place]
  exact placeOf_join_congr (placeOf_absolute here root) name

theorem place_of_isAbsolute (h : isAbsolute name = true) (here root : String) :
    place here root name = placeOf name := by
  rw [place, join, if_pos h]

/-- The names below the root lead on from its place to the place of the name. -/
theorem relative?_full_eq_some_iff :
    relative? (absolute here root) (tidy (join (absolute here root) name)) = some names ↔
      names ≠ [] ∧ place here root name = placeOf (base here root) ++ names := by
  rw [relative?_eq_some_iff, placeOf_full, placeOf_absolute]

/-- Links lead a name that comes to the place of the root to where they lead the root. -/
theorem realPath_full (h : place here root name = placeOf (base here root)) :
    tree.realPath (tidy (join (absolute here root) name)) = tree.realPath (absolute here root) := by
  rw [Tree.realPath, components_full, h, Tree.realPath, components_absolute]

/-- An accepted name lies below the root, and its identifier is the way there. -/
theorem normalize_eq_ok_iff (h : Lexical here root name) :
    normalize tree here root name = .ok id ↔
      ∃ names, names ≠ [] ∧ place here root name = placeOf (base here root) ++ names ∧
        id = joinNames names := by
  unfold normalize
  dsimp only
  split
  · next names hnames =>
    obtain ⟨hne, hplace⟩ := relative?_full_eq_some_iff.1 hnames
    rw [Except.ok.injEq]
    constructor
    · rintro rfl
      exact ⟨names, hne, hplace, rfl⟩
    · rintro ⟨names', -, hplace', rfl⟩
      rw [List.append_cancel_left (hplace.symm.trans hplace')]
  · next hnone =>
    have hnot : ∀ names, names ≠ [] → place here root name ≠ placeOf (base here root) ++ names := by
      intro names hne hplace
      rw [relative?_full_eq_some_iff.2 ⟨hne, hplace⟩] at hnone
      cases hnone
    have hnowhere : ¬ ∃ names, names ≠ [] ∧ place here root name = placeOf (base here root) ++ names ∧
        id = joinNames names := by
      rintro ⟨names, hne, hplace, -⟩
      exact hnot names hne hplace
    refine iff_of_false ?_ hnowhere
    split
    · next habsolute =>
      -- what leads to the root or below it, but not below it, leads to the root, also along its links
      have hroot : place here root name = placeOf (base here root) := by
        obtain ⟨rest, hrest⟩ := h habsolute
        rw [← place_of_isAbsolute habsolute here root] at hrest
        cases rest with
        | nil => rw [← hrest, List.append_nil]
        | cons n rest => exact absurd hrest.symm (hnot _ (List.cons_ne_nil n rest))
      rw [realPath_full hroot, relative?_self]
      intro hok
      split at hok <;> cases hok
    · intro hok
      cases hok

/-! ### The names from the root to a place below it -/

/-- The names that lead from a root to a place below it. -/
structure Descent (names : List String) : Prop where
  ne_nil : names ≠ []
  isName : ∀ n ∈ names, IsName n
  dots_not_mem : ".." ∉ names

/-- The identifier of a template as a text: parts with slashes between, none of them blank or dots. -/
def IsPlain (id : String) : Prop :=
  ∀ part ∈ splitSlash id.toList, part ≠ [] ∧ part ≠ ['.'] ∧ part ≠ ['.', '.']

theorem descent_of_placeOf_eq {path : String} {root : Place} (hne : names ≠ [])
    (h : placeOf path = root ++ names) : Descent names := by
  have hmem : ∀ n ∈ names, n ∈ placeOf path := fun n hn => h ▸ List.mem_append_right _ hn
  exact ⟨hne, fun n hn => isName_of_mem_placeOf (hmem n hn), fun hdots =>
    dots_not_mem_collapse (hmem _ hdots)⟩

/-- A plain text starts with no slash. -/
theorem IsPlain.isAbsolute_eq (h : IsPlain id) : isAbsolute id = false := by
  refine Bool.eq_false_iff.2 fun habsolute => ?_
  rw [isAbsolute, beq_iff_eq] at habsolute
  obtain ⟨rest, hrest⟩ := List.head?_eq_some_iff.1 habsolute
  -- before a slash at the start stands a part that is blank
  have hblank : [] ∈ splitSlash id.toList := by
    rw [hrest, splitSlash_slash]
    exact List.mem_cons_self
  exact (h [] hblank).1 rfl

namespace Descent

theorem components_joinNames (h : Descent names) : components (joinNames names) = names :=
  Files.components_joinNames h.isName

theorem isPlain (h : Descent names) : IsPlain (joinNames names) := by
  intro part hpart
  obtain ⟨n, rest, rfl⟩ := List.exists_cons_of_ne_nil h.ne_nil
  rw [splitSlash_joinNames fun n hn => (h.isName n hn).slash_not_mem] at hpart
  obtain ⟨name, hname, rfl⟩ := List.mem_map.1 hpart
  have hother : ∀ text : String, name ≠ text → name.toList ≠ text.toList :=
    fun text hne heq => hne (String.toList_inj.1 heq)
  refine ⟨hother "" (h.isName name hname).ne_empty, hother "." (h.isName name hname).ne_dot,
    hother ".." ?_⟩
  rintro rfl
  exact h.dots_not_mem hname

theorem joinNames_ne_empty (h : Descent names) : joinNames names ≠ "" := by
  obtain ⟨n, rest, rfl⟩ := List.exists_cons_of_ne_nil h.ne_nil
  exact Files.joinNames_ne_empty (h.isName n List.mem_cons_self).ne_empty

/-- The path of the names below a directory goes on with them. -/
theorem components_under (h : Descent names) (top : String) :
    components (under top (joinNames names)) = components top ++ names := by
  rw [under, components_plainPath, components_join, h.isPlain.isAbsolute_eq, if_neg Bool.false_ne_true,
    h.components_joinNames]

/-- From any directory the names lead on from the place of the directory. -/
theorem placeOf_join (h : Descent names) (top : String) :
    placeOf (join top (joinNames names)) = placeOf top ++ names := by
  have hdots : ".." ∉ placeOf top ++ names := by
    rw [List.mem_append]
    exact not_or.2 ⟨dots_not_mem_collapse, h.dots_not_mem⟩
  rw [placeOf, components_join, h.isPlain.isAbsolute_eq, if_neg Bool.false_ne_true,
    h.components_joinNames, ← collapse_collapse_append]
  exact collapse_eq_self hdots

theorem joinNames_inj {names' : List String} (h : Descent names) (h' : Descent names') :
    joinNames names = joinNames names' ↔ names = names' := by
  constructor
  · intro heq
    rw [← h.components_joinNames, heq, h'.components_joinNames]
  · rintro rfl
    rfl

/-- The names from the root are an identifier, and its own. -/
theorem normalize_joinNames (h : Descent names) :
    normalize tree here root (joinNames names) = .ok (joinNames names) := by
  have hlexical : Lexical here root (joinNames names) := by
    intro habsolute
    rw [h.isPlain.isAbsolute_eq] at habsolute
    exact nomatch habsolute
  exact (normalize_eq_ok_iff hlexical).2 ⟨names, h.ne_nil, h.placeOf_join _, rfl⟩

/-- The names after any absolute spelling of the root are brought to the names alone. -/
theorem normalize_join {top : String} (h : Descent names) (habsolute : isAbsolute top = true)
    (htop : placeOf top = placeOf (base here root)) :
    normalize tree here root (join top (joinNames names)) = .ok (joinNames names) := by
  have hplace : placeOf (join top (joinNames names)) = placeOf (base here root) ++ names := by
    rw [h.placeOf_join, htop]
  have hlexical : Lexical here root (join top (joinNames names)) := by
    intro _
    rw [hplace]
    exact List.prefix_append _ _
  refine (normalize_eq_ok_iff hlexical).2 ⟨names, h.ne_nil, ?_, rfl⟩
  rw [place_of_isAbsolute (isAbsolute_join habsolute _) here root, hplace]

end Descent

/-! ### Identifiers, whatever they were brought from -/

/-- An identifier: names that lead from a root to a place below it, put together. -/
def IsIdentifier (id : String) : Prop := ∃ names, Descent names ∧ id = joinNames names

theorem isIdentifier_of_relative? {path : String} (h : relative? root path = some names) :
    IsIdentifier (joinNames names) := by
  obtain ⟨hne, hplace⟩ := relative?_eq_some_iff.1 h
  exact ⟨names, descent_of_placeOf_eq hne hplace, rfl⟩

/-- Every accepted name is brought to an identifier, also one that is looked up along its links. -/
theorem isIdentifier_of_normalize (h : normalize tree here root name = .ok id) : IsIdentifier id := by
  unfold normalize at h
  dsimp only at h
  split at h
  · next names hnames =>
    cases h
    exact isIdentifier_of_relative? hnames
  · split at h
    · split at h
      · cases h
      · split at h
        · next names hnames =>
          cases h
          exact isIdentifier_of_relative? hnames
        · cases h
    · cases h

namespace IsIdentifier

variable {id' : String}

/-- An identifier is brought to itself under every root. -/
theorem normalize (h : IsIdentifier id) (tree : Tree) (here root : String) :
    Identifier.normalize tree here root id = .ok id := by
  obtain ⟨names, hdescent, rfl⟩ := h
  exact hdescent.normalize_joinNames

theorem ne_empty (h : IsIdentifier id) : id ≠ "" := by
  obtain ⟨names, hdescent, rfl⟩ := h
  exact hdescent.joinNames_ne_empty

theorem isPlain (h : IsIdentifier id) : IsPlain id := by
  obtain ⟨names, hdescent, rfl⟩ := h
  exact hdescent.isPlain

/-- The names of an identifier go on below a directory, without a pair of dots. -/
theorem components_under (h : IsIdentifier id) (top : String) :
    ∃ names, names ≠ [] ∧ ".." ∉ names ∧ components (under top id) = components top ++ names := by
  obtain ⟨names, hdescent, rfl⟩ := h
  exact ⟨names, hdescent.ne_nil, hdescent.dots_not_mem, hdescent.components_under top⟩

/-- Identifiers with the same path below a directory are one. -/
theorem eq_of_components_under (h : IsIdentifier id) (h' : IsIdentifier id') {top : String}
    (hpath : components (under top id) = components (under top id')) : id = id' := by
  obtain ⟨names, hdescent, rfl⟩ := h
  obtain ⟨names', hdescent', rfl⟩ := h'
  rw [hdescent.components_under, hdescent'.components_under, List.append_cancel_left_eq] at hpath
  rw [hpath]

/-- Identifiers that come to one place are one. -/
theorem eq_of_place (h : IsIdentifier id) (h' : IsIdentifier id')
    (hplace : place here root id = place here root id') : id = id' := by
  obtain ⟨names, hdescent, rfl⟩ := h
  obtain ⟨names', hdescent', rfl⟩ := h'
  rw [place, place, hdescent.placeOf_join, hdescent'.placeOf_join, List.append_cancel_left_eq] at hplace
  rw [hplace]

end IsIdentifier

/-- A text is an identifier exactly if it is brought to itself. -/
theorem normalize_self_iff : normalize tree here root id = .ok id ↔ IsIdentifier id :=
  ⟨isIdentifier_of_normalize, fun h => h.normalize tree here root⟩

/-- Identifiers are canonical. A name is accepted exactly if the place it comes to goes on where the place of
the root ends, and then its identifier is how it goes on. An identifier is a plain text and not blank; alone or
after the root, in any absolute spelling, it is brought to itself; and two accepted names have one identifier
exactly if they come to one place. -/
theorem normalize_canonical (tree : Tree) (here root : String) :
    (∀ name, Lexical here root name → ∀ id, normalize tree here root name = .ok id ↔
      ∃ names, names ≠ [] ∧ place here root name = placeOf (base here root) ++ names ∧
        id = joinNames names) ∧
    (∀ name id, Lexical here root name → normalize tree here root name = .ok id →
      id ≠ "" ∧ isAbsolute id = false ∧ IsPlain id ∧ normalize tree here root id = .ok id ∧
      ∀ top, isAbsolute top = true → placeOf top = placeOf (base here root) →
        normalize tree here root (join top id) = .ok id) ∧
    (∀ name name' id id', Lexical here root name → Lexical here root name' →
      normalize tree here root name = .ok id → normalize tree here root name' = .ok id' →
      (id = id' ↔ place here root name = place here root name')) := by
  refine ⟨fun name h id => normalize_eq_ok_iff h, ?_, ?_⟩
  · intro name id h hok
    obtain ⟨names, hne, hplace, rfl⟩ := (normalize_eq_ok_iff h).1 hok
    have hdescent := descent_of_placeOf_eq hne hplace
    exact ⟨hdescent.joinNames_ne_empty, hdescent.isPlain.isAbsolute_eq, hdescent.isPlain,
      hdescent.normalize_joinNames, fun top habsolute htop => hdescent.normalize_join habsolute htop⟩
  · intro name name' id id' h h' hok hok'
    obtain ⟨names, hne, hplace, rfl⟩ := (normalize_eq_ok_iff h).1 hok
    obtain ⟨names', hne', hplace', rfl⟩ := (normalize_eq_ok_iff h').1 hok'
    rw [(descent_of_placeOf_eq hne hplace).joinNames_inj (descent_of_placeOf_eq hne' hplace'), hplace,
      hplace', List.append_cancel_left_eq]

/-- A name that leaves a directory again and the path of the same template, written with a dot, have one
identifier, which stays what it is after the root. -/
theorem normalize_canonical_index :
    Lexical "/" "/srv/views" "x/../pages//./index.mjs" ∧
    Lexical "/" "/srv/views" "/srv/./views/pages/index.mjs" ∧
    normalize {} "/" "/srv/views" "x/../pages//./index.mjs" = .ok "pages/index.mjs" ∧
    normalize {} "/" "/srv/views" "/srv/./views/pages/index.mjs" = .ok "pages/index.mjs" ∧
    normalize {} "/" "/srv/views" (join "//srv/views/" "pages/index.mjs") = .ok "pages/index.mjs" ∧
    place "/" "/srv/views" "x/../pages//./index.mjs" =
      place "/" "/srv/views" "/srv/./views/pages/index.mjs" := by
  obtain ⟨haccepted, hkept, hsame⟩ := normalize_canonical {} "/" "/srv/views"
  have hrelative : Lexical "/" "/srv/views" "x/../pages//./index.mjs" := by unfold Lexical; decide +kernel
  have habsolute : Lexical "/" "/srv/views" "/srv/./views/pages/index.mjs" := by unfold Lexical; decide +kernel
  have hok := (haccepted _ hrelative "pages/index.mjs").2 ⟨["pages", "index.mjs"], by decide +kernel⟩
  have hok' := (haccepted _ habsolute "pages/index.mjs").2 ⟨["pages", "index.mjs"], by decide +kernel⟩
  obtain ⟨-, -, -, -, hjoined⟩ := hkept _ _ hrelative hok
  exact ⟨hrelative, habsolute, hok, hok', hjoined "//srv/views/" (by decide) (by decide +kernel),
    (hsame _ _ _ _ hrelative habsolute hok hok').1 rfl⟩

end Identifier

end Stencil
