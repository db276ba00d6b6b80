import Mathlib.Data.List.Basic
import Stencil.Files.Tree
import Stencil.Proofs.Cache.Store

/-!
# Files, links and paths

The names of a path are not blank, and to collapse them takes none that is not there. Trees with the same
links give every path the same real path. What is read from a path is the content of a file.
-/

namespace Stencil

namespace Files

theorem mem_collapse {names : List String} {x : String} (h : x ∈ collapse names) : x ∈ names := by
  rw [collapse, List.mem_reverse] at h
  suffices H : ∀ done : List String, x ∈ names.foldl collapseStep done → x ∈ done ∨ x ∈ names by
    rcases H [] h with h | h
    · exact absurd h (by simp)
    · exact h
  clear h
  induction names with
  | nil => exact fun done h => Or.inl h
  | cons n names ih =>
    intro done h
    rcases ih (collapseStep done n) h with h | h
    · rw [collapseStep] at h
      split at h
      · exact Or.inl (List.mem_of_mem_drop h)
      · rcases List.mem_cons.1 h with rfl | h
        · exact Or.inr List.mem_cons_self
        · exact Or.inl h
    · exact Or.inr (List.mem_cons_of_mem _ h)

theorem ne_empty_of_mem_components {path x : String} (h : x ∈ components path) : x ≠ "" := by
  rw [components, List.mem_filter] at h
  have := h.2
  simp only [Bool.and_eq_true, bne_iff_ne] at this
  exact this.1

theorem joinNames_ne_empty {n : String} {names : List String} (h : n ≠ "") :
    joinNames (n :: names) ≠ "" := by
  cases names with
  | nil => rwa [joinNames, String.intercalate_singleton]
  | cons m names =>
    rw [joinNames, String.intercalate_cons_cons]
    simp [h]

namespace Tree

/-- The same links are seen at the same places of two trees. -/
def SameLinks (t t' : Tree) : Prop :=
  ∀ place target, t.glimpse? place = some (.link target) ↔ t'.glimpse? place = some (.link target)

/-- A tree has no links. -/
def Linkless (t : Tree) : Prop := ∀ place target, t.entry? place ≠ some (.link target)

theorem Linkless.of_entries {t : Tree} (h : ∀ place target, (place, .link target) ∉ t.entries) :
    t.Linkless := by
  intro place target he
  unfold entry? at he
  split at he
  · exact nomatch he
  · exact h place target (Store.mem_of_lookup he)

theorem Linkless.glimpse?_ne {t : Tree} (h : t.Linkless) (place : Place) (target : String) :
    t.glimpse? place ≠ some (.link target) :=
  fun hg => h place target (entry?_of_glimpse? hg)

theorem Linkless.sameLinks {t t' : Tree} (h : t.Linkless) (h' : t'.Linkless) : t.SameLinks t' :=
  fun place target => ⟨fun hg => absurd hg (h.glimpse?_ne place target),
    fun hg => absurd hg (h'.glimpse?_ne place target)⟩

theorem SameLinks.refl (t : Tree) : t.SameLinks t := fun _ _ => Iff.rfl

theorem SameLinks.symm {t t' : Tree} (h : t.SameLinks t') : t'.SameLinks t :=
  fun place target => (h place target).symm

theorem SameLinks.trans {t t' t'' : Tree} (h : t.SameLinks t') (h' : t'.SameLinks t'') :
    t.SameLinks t'' :=
  fun place target => (h place target).trans (h' place target)

/-! ### Real paths -/

section Settle

variable {t : Tree} {above : List Place} {here : Place} {name target : String} {rest : List String}

theorem settle_nil (t : Tree) (above : List Place) (here : Place) : t.settle above here [] = .ok here := by
  rw [settle]

theorem settle_dots (t : Tree) (above : List Place) (here : Place) (rest : List String) :
    t.settle above here (".." :: rest) = t.settle above here.dropLast rest := by
  rw [settle, if_pos rfl]

/-- What is no link stands for itself. -/
theorem settle_plain (hname : name ≠ "..") (hno : ∀ target, t.glimpse? (here ++ [name]) ≠ some (.link target)) :
    t.settle above here (name :: rest) = t.settle above (here ++ [name]) rest := by
  rw [settle, if_neg hname]
  split
  · next target he => exact absurd he (hno target)
  · rfl

/-- A link that is being followed leads in a circle. -/
theorem settle_circle (hname : name ≠ "..") (hlink : t.glimpse? (here ++ [name]) = some (.link target))
    (habove : here ++ [name] ∈ above) : t.settle above here (name :: rest) = .error (here ++ name :: rest) := by
  rw [settle, if_neg hname]
  split
  · rw [dif_pos (by simpa using habove)]
  · next hno => exact (hno target hlink).elim

/-- Any other link is followed, and after it the names that are left. -/
theorem settle_link (hname : name ≠ "..") (hlink : t.glimpse? (here ++ [name]) = some (.link target))
    (hnew : here ++ [name] ∉ above) : t.settle above here (name :: rest) =
      match t.settle ((here ++ [name]) :: above) (startOf here target) (components target) with
      | .ok next => t.settle above next rest
      | .error stuck => .error (stuck ++ rest) := by
  rw [settle, if_neg hname]
  split
  · next target' hlink' =>
    obtain rfl : target = target' := Entry.link.inj (Option.some.inj (hlink.symm.trans hlink'))
    exact dif_neg (by simpa using hnew)
  · next hno => exact (hno target hlink).elim

end Settle

theorem settle_congr {t t' : Tree} (h : t.SameLinks t') (above : List Place) (here : Place)
    (names : List String) : t.settle above here names = t'.settle above here names := by
  induction above, here, names using settle.induct t with
  | case1 above here => rw [settle_nil, settle_nil]
  | case2 above here rest ih => rw [settle_dots, settle_dots, ih]
  | case3 above here name rest hname target hlink habove =>
    rw [List.contains_iff_mem] at habove
    rw [settle_circle hname hlink habove, settle_circle hname ((h _ _).1 hlink) habove]
  | case4 above here name rest hname target hlink hnew next hnext ihlink ihrest =>
    rw [List.contains_iff_mem] at hnew
    rw [settle_link hname hlink hnew, settle_link hname ((h _ _).1 hlink) hnew, ← ihlink, hnext]
    exact ihrest
  | case5 above here name rest hname target hlink hnew stuck hstuck ihlink =>
    rw [List.contains_iff_mem] at hnew
    rw [settle_link hname hlink hnew, settle_link hname ((h _ _).1 hlink) hnew, ← ihlink, hstuck]
  | case6 above here name rest hname hno ih =>
    have hno' : ∀ target, t'.glimpse? (here ++ [name]) ≠ some (.link target) :=
      fun target he => hno target ((h _ _).2 he)
    rw [settle_plain hname hno, settle_plain hname hno', ih]

theorem realPath_congr {t t' : Tree} (h : t.SameLinks t') (path : String) :
    t.realPath path = t'.realPath path := by
  rw [realPath, realPath, settle_congr h]

/-! ### Reading files -/

theorem isDirectory_iff {t : Tree} {path : String} :
    t.isDirectory path = .ok true ↔ t.lookup path = .ok .directory := by
  unfold isDirectory check
  cases t.lookup path with
  | error f => cases f <;> simp [Fault.isAbsence]
  | ok e => cases e <;> simp

/-- What is read at a path is the file that stands there. -/
theorem entry?_of_read {t : Tree} {path : String} {content : List UInt8} (h : t.read path = .ok content) :
    ∃ place, t.locate path = .ok place ∧ t.entry? place = some (.file content) := by
  unfold read at h
  cases hplace : t.locate path with
  | error f =>
    rw [hplace] at h
    cases h
  | ok place =>
    refine ⟨place, rfl, ?_⟩
    rw [hplace] at h
    simp only [bind, Except.bind] at h
    cases hentry : t.entry? place with
    | none =>
      rw [hentry] at h
      cases h
    | some e =>
      rw [hentry] at h
      dsimp only at h
      split at h
      · cases h
      cases e with
      | directory => cases h
      | link target => cases h
      | file bytes =>
        cases h
        rfl

theorem exists?_of_read {t : Tree} {path : String} {content : List UInt8} (h : t.read path = .ok content) :
    t.exists? path = .ok true := by
  obtain ⟨place, hplace, hentry⟩ := entry?_of_read h
  have hlookup : t.lookup path = .ok (.file content) := by
    simp only [lookup, hplace, hentry, bind, Except.bind]
  rw [exists?, check, hlookup]

/-- What a file holds is among the files of its tree. -/
theorem mem_files_of_read {t : Tree} {path : String} {content : List UInt8}
    (h : t.read path = .ok content) : ∃ p, (p, content) ∈ t.files := by
  obtain ⟨place, -, hentry⟩ := entry?_of_read h
  unfold entry? at hentry
  split at hentry
  · cases hentry
  · exact ⟨_, List.mem_filterMap.2 ⟨_, Store.mem_of_lookup hentry, rfl⟩⟩

/-- A name that can stand in a place. -/
def Fits (name : String) : Prop := name ≠ ".." ∧ name.utf8ByteSize ≤ nameLimit

instance (name : String) : Decidable (Fits name) :=
  inferInstanceAs (Decidable (name ≠ ".." ∧ name.utf8ByteSize ≤ nameLimit))

/-- On the way along some names there is a directory in which no name may be looked up. -/
def Barred (t : Tree) (here : Place) (names : List String) : Prop :=
  ∃ i < names.length, here ++ names.take i ∈ t.closed

instance (t : Tree) (here : Place) (names : List String) : Decidable (t.Barred here names) :=
  inferInstanceAs (Decidable (∃ i < names.length, here ++ names.take i ∈ t.closed))

theorem not_barred_nil (t : Tree) (here : Place) : ¬ t.Barred here [] := fun ⟨_, hi, _⟩ => absurd hi (Nat.not_lt_zero _)

theorem barred_cons {t : Tree} {here : Place} {name : String} {rest : List String} :
    t.Barred here (name :: rest) ↔ here ∈ t.closed ∨ t.Barred (here ++ [name]) rest := by
  constructor
  · rintro ⟨_ | i, hi, hmem⟩
    · exact Or.inl (by simpa using hmem)
    · exact Or.inr ⟨i, Nat.lt_of_succ_lt_succ hi, by simpa using hmem⟩
  · rintro (hmem | ⟨i, hi, hmem⟩)
    · exact ⟨0, Nat.zero_lt_succ _, by simpa using hmem⟩
    · exact ⟨i + 1, Nat.succ_lt_succ hi, by simpa using hmem⟩

/-- A walk over directories alone goes where its names say, as far as names may be looked up. -/
theorem walk_eq {t : Tree} {last : Bool} {links : Nat} {e : Entry} (he : ∀ target, e ≠ .link target)
    {names : List String} (hnames : ∀ n ∈ names, Fits n) {here : Place}
    (hdirectories : ∀ i < names.length, t.entry? (here ++ names.take i) = some .directory)
    (hentry : t.entry? (here ++ names) = some e) :
    t.walk last links here names =
      if t.Barred here names then .error .noPermission else .ok (here ++ names) := by
  induction names generalizing here with
  | nil => rw [walk, if_neg (not_barred_nil t here), List.append_nil]
  | cons name rest ih =>
    obtain ⟨hdots, hlength⟩ := hnames name List.mem_cons_self
    have hhere : t.entry? here = some .directory := by
      simpa using hdirectories 0 (Nat.zero_lt_succ _)
    have hnext : ∃ e', t.entry? (here ++ [name]) = some e' ∧ ∀ target, e' ≠ .link target := by
      cases rest with
      | nil => exact ⟨e, hentry, he⟩
      | cons name' rest =>
        have hdirectory : t.entry? (here ++ [name]) = some .directory := by
          simpa using hdirectories 1 (by simp)
        exact ⟨.directory, hdirectory, by simp⟩
    obtain ⟨e', he', hlink⟩ := hnext
    have hrest : t.walk last links (here ++ [name]) rest =
        if t.Barred (here ++ [name]) rest then .error .noPermission else .ok (here ++ name :: rest) := by
      rw [List.append_cons here name rest]
      refine ih (fun n hn => hnames n (List.mem_cons_of_mem _ hn)) (fun i hi => ?_) ?_
      · simpa using hdirectories (i + 1) (Nat.succ_lt_succ hi)
      · simpa using hentry
    rw [walk, hhere]
    dsimp only
    by_cases hclosed : here ∈ t.closed
    · rw [if_pos (by simpa using hclosed), if_pos (barred_cons.2 (Or.inl hclosed))]
    · rw [if_neg (by simpa using hclosed), if_neg hdots, if_neg (Nat.not_lt.2 hlength), he']
      have hbarred : t.Barred here (name :: rest) ↔ t.Barred (here ++ [name]) rest :=
        barred_cons.trans (or_iff_right hclosed)
      rw [if_congr hbarred rfl rfl]
      cases e' with
      | directory => exact hrest
      | file content => exact hrest
      | link target => exact absurd rfl (hlink target)

/-- A directory stands at a place, and names can be looked up in it. -/
def Enters (t : Tree) (place : Place) : Prop := t.entry? place = some .directory ∧ place ∉ t.closed

instance (t : Tree) (place : Place) : Decidable (t.Enters place) :=
  inferInstanceAs (Decidable (t.entry? place = some .directory ∧ place ∉ t.closed))

/-- A walk over directories that can be entered goes where its names say. -/
theorem walk_of_entries {t : Tree} {last : Bool} {links : Nat} {e : Entry}
    (he : ∀ target, e ≠ .link target) {names : List String} (hnames : ∀ n ∈ names, Fits n) {here : Place}
    (hdirectories : ∀ i < names.length, t.Enters (here ++ names.take i))
    (hentry : t.entry? (here ++ names) = some e) :
    t.walk last links here names = .ok (here ++ names) := by
  rw [walk_eq he hnames (fun i hi => (hdirectories i hi).1) hentry]
  exact if_neg fun ⟨i, hi, hmem⟩ => (hdirectories i hi).2 hmem

/-- A file that stands below directories alone is read by its path. -/
theorem read_of_entries {t : Tree} {path : String} {names : List String} {content : List UInt8}
    (hpath : components path = names) (hnull : '\x00' ∉ path.toList)
    (hlong : path.utf8ByteSize < pathLimit)
    (hnames : ∀ n ∈ names, Fits n)
    (hdirectories : ∀ i < names.length, t.Enters (names.take i))
    (hentry : t.entry? names = some (.file content)) (hreadable : names ∉ t.unreadable) :
    t.read path = .ok content := by
  have hwalk : t.walk true linkLimit [] names = .ok names :=
    walk_of_entries (by simp) hnames hdirectories hentry
  have hlocate : t.locate path = .ok names := by
    rw [locate, locateLast, if_neg (by simpa using hnull), if_neg (Nat.not_le.2 hlong), hpath, hwalk]
  simp [read, hlocate, hentry, hreadable, bind, Except.bind]

end Tree

end Files

end Stencil
