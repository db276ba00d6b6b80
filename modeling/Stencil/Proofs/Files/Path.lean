import Mathlib.Data.List.Basic
import Stencil.Proofs.Files

/-!
# The names of a path

A path is taken apart at its slashes, and names that are put together with slashes are taken apart into the
same names again (`components_joinNames`). The names of a path set after another are those of both. To
collapse names is to walk through them with a stack, so a first part of them may be collapsed before
(`collapse_collapse_append`), and what is collapsed has no pair of dots and stays as it is. A tidied path thus
has the collapsed names of the path.
-/

namespace Stencil

namespace Files

/-! ### Slashes -/

theorem splitSlash_ne_nil (cs : List Char) : splitSlash cs ≠ [] := by
  fun_cases splitSlash cs with
  | case1 => exact List.cons_ne_nil _ _
  | case2 => exact List.cons_ne_nil _ _
  | case3 => exact List.cons_ne_nil _ _
  | case4 => exact List.cons_ne_nil _ _

theorem splitSlash_slash (rest : List Char) : splitSlash ('/' :: rest) = [] :: splitSlash rest := by
  rw [splitSlash]

theorem splitSlash_cons {c : Char} (hc : c ≠ '/') {rest part : List Char} {parts : List (List Char)}
    (h : splitSlash rest = part :: parts) : splitSlash (c :: rest) = (c :: part) :: parts := by
  rw [splitSlash, h]
  exact fun heq => hc heq

theorem splitSlash_append (cs rest : List Char) :
    splitSlash (cs ++ '/' :: rest) = splitSlash cs ++ splitSlash rest := by
  induction cs with
  | nil => rw [List.nil_append, splitSlash_slash]; rfl
  | cons c cs ih =>
    by_cases hc : c = '/'
    · rw [hc, List.cons_append, splitSlash_slash, splitSlash_slash, ih, List.cons_append]
    · -- the character goes to the first part, and there is one
      obtain ⟨part, parts, hparts⟩ := List.exists_cons_of_ne_nil (splitSlash_ne_nil cs)
      rw [hparts, List.cons_append] at ih
      rw [List.cons_append, splitSlash_cons hc ih, splitSlash_cons hc hparts, List.cons_append]

theorem slash_not_mem_splitSlash {cs part : List Char} (h : part ∈ splitSlash cs) : '/' ∉ part := by
  induction cs generalizing part with
  | nil =>
    rw [splitSlash, List.mem_singleton] at h
    exact h ▸ List.not_mem_nil
  | cons c cs ih =>
    by_cases hc : c = '/'
    · rw [hc, splitSlash_slash] at h
      rcases List.mem_cons.1 h with rfl | h
      · exact List.not_mem_nil
      · exact ih h
    · obtain ⟨first, parts, hparts⟩ := List.exists_cons_of_ne_nil (splitSlash_ne_nil cs)
      rw [splitSlash_cons hc hparts] at h
      rw [hparts] at ih
      rcases List.mem_cons.1 h with rfl | h
      · intro hmem
        rcases List.mem_cons.1 hmem with heq | hmem
        · exact hc heq.symm
        · exact ih List.mem_cons_self hmem
      · exact ih (List.mem_cons_of_mem _ h)

theorem splitSlash_of_not_mem {cs : List Char} (h : '/' ∉ cs) : splitSlash cs = [cs] := by
  induction cs with
  | nil => rfl
  | cons c cs ih =>
    obtain ⟨hc, hcs⟩ := not_or.1 (fun hor => h (List.mem_cons.2 hor))
    exact splitSlash_cons (Ne.symm hc) (ih hcs)

/-! ### Names -/

/-- A name that a path can have: neither blank nor a single dot, and without a slash. -/
structure IsName (name : String) : Prop where
  ne_empty : name ≠ ""
  ne_dot : name ≠ "."
  slash_not_mem : '/' ∉ name.toList

instance (name : String) : Decidable (IsName name) :=
  decidable_of_iff (name ≠ "" ∧ name ≠ "." ∧ '/' ∉ name.toList)
    ⟨fun h => ⟨h.1, h.2.1, h.2.2⟩, fun h => ⟨h.ne_empty, h.ne_dot, h.slash_not_mem⟩⟩

theorem isName_of_mem_components {path name : String} (h : name ∈ components path) : IsName name := by
  obtain ⟨hname, hkept⟩ := List.mem_filter.1 h
  obtain ⟨part, hpart, rfl⟩ := List.mem_map.1 hname
  rw [Bool.and_eq_true, bne_iff_ne, bne_iff_ne] at hkept
  refine ⟨hkept.1, hkept.2, ?_⟩
  rw [String.toList_ofList]
  exact slash_not_mem_splitSlash hpart

theorem components_empty : components "" = [] := rfl

/-- The names of two paths with a slash between are those of both. -/
theorem components_append (path rest : String) :
    components (path ++ "/" ++ rest) = components path ++ components rest := by
  have hlist : (path ++ "/" ++ rest).toList = path.toList ++ '/' :: rest.toList := by simp
  rw [components, hlist, splitSlash_append, List.map_append, List.filter_append]
  rfl

theorem splitSlash_joinNames {name : String} {names : List String}
    (h : ∀ n ∈ name :: names, '/' ∉ n.toList) :
    splitSlash (joinNames (name :: names)).toList = (name :: names).map String.toList := by
  induction names generalizing name with
  | nil =>
    rw [joinNames, String.intercalate_singleton, splitSlash_of_not_mem (h name List.mem_cons_self)]
    rfl
  | cons next names ih =>
    have hrest := ih fun n hn => h n (List.mem_cons_of_mem _ hn)
    have hlist : (joinNames (name :: next :: names)).toList =
        name.toList ++ '/' :: (joinNames (next :: names)).toList := by
      rw [joinNames, String.intercalate_cons_cons]
      simp [joinNames]
    rw [hlist, splitSlash_append, hrest, splitSlash_of_not_mem (h name List.mem_cons_self)]
    rfl

/-- Names put together are taken apart again. -/
theorem components_joinNames {names : List String} (h : ∀ n ∈ names, IsName n) :
    components (joinNames names) = names := by
  cases names with
  | nil => decide
  | cons name names =>
    have hkept : (name :: names).filter (fun n => n != "" && n != ".") = name :: names := by
      refine List.filter_eq_self.2 fun n hn => ?_
      rw [Bool.and_eq_true, bne_iff_ne, bne_iff_ne]
      exact ⟨(h n hn).ne_empty, (h n hn).ne_dot⟩
    rw [components, splitSlash_joinNames fun n hn => (h n hn).slash_not_mem, List.map_map]
    simpa using hkept

/-! ### Collapsing -/

theorem dots_not_mem_collapse {names : List String} : ".." ∉ collapse names := by
  rw [collapse, List.mem_reverse]
  -- the stack has no pair of dots at any time, whatever it starts with
  suffices hstack : ∀ done : List String, ".." ∉ done → ".." ∉ names.foldl collapseStep done from
    hstack [] List.not_mem_nil
  induction names with
  | nil => exact fun done h => h
  | cons n names ih =>
    intro done hdone
    refine ih _ ?_
    rw [collapseStep]
    split
    · exact fun hmem => hdone (List.mem_of_mem_drop hmem)
    · next hn =>
      intro hmem
      rcases List.mem_cons.1 hmem with heq | hmem
      · exact hn heq.symm
      · exact hdone hmem

theorem foldl_collapseStep {names : List String} (h : ".." ∉ names) (done : List String) :
    names.foldl collapseStep done = names.reverse ++ done := by
  induction names generalizing done with
  | nil => rfl
  | cons n names ih =>
    obtain ⟨hn, hnames⟩ := not_or.1 (fun hor => h (List.mem_cons.2 hor))
    rw [List.foldl_cons, ih hnames, collapseStep, if_neg (Ne.symm hn), List.reverse_cons, List.append_assoc]
    rfl

/-- Names without pairs of dots are collapsed already. -/
theorem collapse_eq_self {names : List String} (h : ".." ∉ names) : collapse names = names := by
  rw [collapse, foldl_collapseStep h, List.append_nil, List.reverse_reverse]

/-- The first names may be collapsed before. -/
theorem collapse_collapse_append (names rest : List String) :
    collapse (collapse names ++ rest) = collapse (names ++ rest) := by
  -- to walk through what is collapsed brings the stack to where it was
  have hfirst : (collapse names).foldl collapseStep [] = names.foldl collapseStep [] := by
    rw [foldl_collapseStep dots_not_mem_collapse, List.append_nil, collapse, List.reverse_reverse]
  rw [collapse, List.foldl_append, hfirst, ← List.foldl_append, ← collapse]

/-! ### Paths -/

variable {path base : String}

theorem components_leadingSlashes_append (path rest : String) :
    components (leadingSlashes path ++ rest) = components rest := by
  have hone : components ("/" ++ rest) = components rest := by
    have hempty : "/" ++ rest = "" ++ "/" ++ rest := by rw [String.empty_append]
    rw [hempty, components_append, components_empty, List.nil_append]
  have htwo : components ("//" ++ rest) = components rest := by
    have hslash : "//" ++ rest = "/" ++ "/" ++ rest := rfl
    have hnone : components "/" = [] := rfl
    rw [hslash, components_append, hnone, List.nil_append]
  unfold leadingSlashes
  split
  · exact hone
  · exact htwo
  · exact hone

/-- A tidied path has the collapsed names of the path. -/
theorem components_tidy (path : String) : components (tidy path) = collapse (components path) := by
  rw [tidy, components_leadingSlashes_append]
  exact components_joinNames fun n hn => isName_of_mem_components (mem_collapse hn)

/-- A path has the same names without its blank ones and single dots. -/
theorem components_plainPath (path : String) : components (plainPath path) = components path := by
  have hbody : components (joinNames (components path)) = components path :=
    components_joinNames fun n hn => isName_of_mem_components hn
  unfold plainPath
  dsimp only
  split
  · rw [components_leadingSlashes_append, hbody]
  · split
    · next hempty =>
      rw [hempty] at hbody
      exact hbody
    · exact hbody

theorem components_join (base path : String) :
    components (join base path) =
      if isAbsolute path then components path else components base ++ components path := by
  unfold join
  split
  · rfl
  · split
    · next hbase =>
      rw [hbase]
      rfl
    · split
      · next hlast =>
        -- the base brings the slash itself
        obtain ⟨cs, hcs⟩ := List.getLast?_eq_some_iff.1 hlast
        have hbase : base = String.ofList cs ++ "/" ++ "" := by
          rw [← String.toList_inj, hcs]
          simp
        have hboth : base ++ path = String.ofList cs ++ "/" ++ path := by
          rw [hbase]
          simp
        rw [hboth, components_append, hbase, components_append]
        rw [components_empty, List.append_nil]
      · exact components_append base path

theorem isAbsolute_join (h : isAbsolute base = true) (path : String) : isAbsolute (join base path) = true := by
  have hslash : base.toList.head? = some '/' := beq_iff_eq.1 h
  have hlonger : ∀ rest : String, isAbsolute (base ++ rest) = true := by
    intro rest
    rw [isAbsolute, String.toList_append, List.head?_append, hslash]
    rfl
  unfold join
  split
  · assumption
  · split
    · next hbase => simp [hbase, isAbsolute] at h
    · split
      · exact hlonger path
      · rw [String.append_assoc]
        exact hlonger _

/-- The place that an absolute path names as text: the names of the path with all pairs of dots carried out. -/
def placeOf (path : String) : Place := collapse (components path)

theorem placeOf_tidy (path : String) : placeOf (tidy path) = placeOf path := by
  rw [placeOf, components_tidy, collapse_eq_self dots_not_mem_collapse, placeOf]

/-- A path comes to the same place after bases that come to the same place. -/
theorem placeOf_join_congr {base base' : String} (h : placeOf base = placeOf base') (path : String) :
    placeOf (join base path) = placeOf (join base' path) := by
  rw [placeOf, placeOf, components_join, components_join]
  split
  · rfl
  · rw [← collapse_collapse_append, ← collapse_collapse_append (components base')]
    exact congrArg (fun place => collapse (place ++ components path)) h

theorem isName_of_mem_placeOf {name : String} (h : name ∈ placeOf path) : IsName name :=
  isName_of_mem_components (mem_collapse h)

/-! ### Characters and lengths -/

theorem subset_of_mem_splitSlash {cs part : List Char} (h : part ∈ splitSlash cs) : part ⊆ cs := by
  induction cs generalizing part with
  | nil =>
    rw [splitSlash, List.mem_singleton] at h
    rw [h]
    exact List.Subset.refl _
  | cons c cs ih =>
    by_cases hc : c = '/'
    · rw [hc, splitSlash_slash] at h
      rcases List.mem_cons.1 h with rfl | h
      · exact List.nil_subset _
      · exact List.subset_cons_of_subset _ (ih h)
    · obtain ⟨first, parts, hparts⟩ := List.exists_cons_of_ne_nil (splitSlash_ne_nil cs)
      rw [splitSlash_cons hc hparts] at h
      rw [hparts] at ih
      rcases List.mem_cons.1 h with rfl | h
      · exact List.cons_subset_cons _ (ih List.mem_cons_self)
      · exact List.subset_cons_of_subset _ (ih (List.mem_cons_of_mem _ h))

/-- The characters of the names of a path are characters of the path. -/
theorem mem_of_mem_components {path name : String} (h : name ∈ components path) {c : Char}
    (hc : c ∈ name.toList) : c ∈ path.toList := by
  obtain ⟨part, hpart, rfl⟩ := List.mem_map.1 (List.mem_filter.1 h).1
  rw [String.toList_ofList] at hc
  exact subset_of_mem_splitSlash hpart hc

theorem joinNames_cons_cons (name next : String) (names : List String) :
    joinNames (name :: next :: names) = name ++ "/" ++ joinNames (next :: names) := by
  rw [joinNames, String.intercalate_cons_cons]
  rfl

/-- The characters of names that are put together are slashes and those of the names. -/
theorem mem_joinNames {names : List String} {c : Char} (h : c ∈ (joinNames names).toList) :
    c = '/' ∨ ∃ n ∈ names, c ∈ n.toList := by
  induction names with
  | nil => exact absurd h (by simp [joinNames])
  | cons name names ih =>
    cases names with
    | nil =>
      rw [joinNames, String.intercalate_singleton] at h
      exact Or.inr ⟨name, List.mem_cons_self, h⟩
    | cons next names =>
      rw [joinNames_cons_cons, String.toList_append, String.toList_append, List.mem_append,
        List.mem_append] at h
      rcases h with (h | h) | h
      · exact Or.inr ⟨name, List.mem_cons_self, h⟩
      · exact Or.inl (List.mem_singleton.1 h)
      · rcases ih h with h | ⟨n, hn, h⟩
        · exact Or.inl h
        · exact Or.inr ⟨n, List.mem_cons_of_mem _ hn, h⟩

/-- Names that are not blank have a character each. -/
theorem length_le_joinNames {names : List String} (h : ∀ n ∈ names, n ≠ "") :
    names.length ≤ (joinNames names).utf8ByteSize := by
  have hpos : ∀ n ∈ names, 0 < n.utf8ByteSize := by
    intro n hn
    exact Nat.pos_of_ne_zero fun hzero => h n hn (String.utf8ByteSize_eq_zero_iff.1 hzero)
  clear h
  induction names with
  | nil => exact Nat.zero_le _
  | cons name names ih =>
    have hname := hpos name List.mem_cons_self
    have hnames := ih fun n hn => hpos n (List.mem_cons_of_mem _ hn)
    cases names with
    | nil =>
      rw [joinNames, String.intercalate_singleton]
      exact hname
    | cons next names =>
      rw [joinNames_cons_cons, String.utf8ByteSize_append, String.utf8ByteSize_append, List.length_cons]
      omega

theorem joinNames_concat {names : List String} (h : names ≠ []) (n : String) :
    joinNames (names ++ [n]) = joinNames names ++ "/" ++ n := by
  induction names with
  | nil => exact absurd rfl h
  | cons name names ih =>
    cases names with
    | nil =>
      rw [List.singleton_append, joinNames_cons_cons, joinNames, joinNames, String.intercalate_singleton,
        String.intercalate_singleton]
    | cons next names =>
      rw [List.cons_append, List.cons_append, joinNames_cons_cons, ← List.cons_append,
        ih (List.cons_ne_nil _ _), joinNames_cons_cons]
      simp only [String.append_assoc]

/-- The characters of a path without its blank names. -/
theorem mem_plainPath {path : String} {c : Char} (h : c ∈ (plainPath path).toList) :
    c = '/' ∨ c = '.' ∨ ∃ n ∈ components path, c ∈ n.toList := by
  have hbody : c ∈ (joinNames (components path)).toList →
      c = '/' ∨ c = '.' ∨ ∃ n ∈ components path, c ∈ n.toList := by
    intro hc
    rcases mem_joinNames hc with hc | hc
    · exact Or.inl hc
    · exact Or.inr (Or.inr hc)
  unfold plainPath at h
  dsimp only at h
  split at h
  · rw [String.toList_append, List.mem_append] at h
    rcases h with h | h
    · unfold leadingSlashes at h
      refine Or.inl ?_
      split at h <;> simpa using h
    · exact hbody h
  · split at h
    · exact Or.inr (Or.inl (by simpa using h))
    · exact hbody h

theorem length_components_le (path : String) :
    (components path).length ≤ (plainPath path).utf8ByteSize := by
  have hbody : (components path).length ≤ (joinNames (components path)).utf8ByteSize :=
    length_le_joinNames fun n hn => (isName_of_mem_components hn).ne_empty
  unfold plainPath
  dsimp only
  split
  · rw [String.utf8ByteSize_append]
    omega
  · split
    · next hempty =>
      rw [hempty] at hbody
      exact Nat.le_trans hbody (Nat.zero_le _)
    · exact hbody

end Files

end Stencil
