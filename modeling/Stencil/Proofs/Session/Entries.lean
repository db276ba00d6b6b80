import Stencil.Proofs.Files.Listing
import Stencil.Proofs.Files.Walk
import Stencil.Proofs.Session.Alone

/-!
# Entries below the root

In a tree without links the path of an identifier leads from the root along the names of the identifier, so it comes
to the entry that they lead to, unless it is too long, or goes through a directory in which no name may be looked up
(`obstacle?`, `Rooted.locate`). With that is known what precompiling sees of the files: whether an entry is a directory
(`Rooted.isDirectory`), and which templates and directories stand in one, by their identifiers and in the order of their
names, if it may be listed (`Rooted.children`).
-/

namespace Stencil

open Files

namespace Session

/-- The root of a session is a directory that may be listed, at a place of a tree as a file system without links holds
it. -/
structure Rooted (s : Session) (top : Place) : Prop where
  linkless : s.tree.Linkless
  proper : s.tree.Proper
  located : s.tree.locate (s.path "") = .ok top
  directory : s.tree.entry? top = some .directory
  listed : top ∉ s.tree.unreadable

/-- The path of an identifier is too long to be looked up. -/
def TooLong (s : Session) (id : String) : Prop := Tree.pathLimit ≤ (s.path id).utf8ByteSize

instance (s : Session) (id : String) : Decidable (s.TooLong id) :=
  inferInstanceAs (Decidable (Tree.pathLimit ≤ (s.path id).utf8ByteSize))

/-- Why the path of an entry below the root cannot be looked up, if that is so: it is too long, or it goes through a
directory in which no name may be looked up. -/
def obstacle? (s : Session) (top : Place) (names : List String) : Option Files.Fault :=
  if s.TooLong (joinNames names) then some .nameTooLong
  else if s.tree.Barred top names then some .noPermission
  else none

variable {s s' : Session} {top : Place} {names : List String} {e : Entry}

theorem not_tooLong_of_obstacle? (h : s.obstacle? top names = none) : ¬ s.TooLong (joinNames names) := by
  intro hlong
  rw [obstacle?, if_pos hlong] at h
  cases h

/-- What cannot be looked up may be there all the same. -/
theorem isAbsence_of_obstacle? {f : Files.Fault} (h : s.obstacle? top names = some f) : f.isAbsence = false := by
  unfold obstacle? at h
  split at h
  · cases h
    rfl
  · split at h
    · cases h
      rfl
    · cases h

theorem components_root (s : Session) : components (s.path "") = components s.root := by
  have hempty : isAbsolute "" = false := by decide
  rw [path, under, components_plainPath, components_join, hempty, if_neg Bool.false_ne_true,
    components_empty, List.append_nil]

theorem Grows.path (h : Grows s s') : s'.path = s.path := by
  funext id
  rw [Session.path, Session.path, root, root, h.settings]

theorem Grows.obstacle? (h : Grows s s') : s'.obstacle? = s.obstacle? := by
  funext top names
  have hlong : s'.TooLong (joinNames names) ↔ s.TooLong (joinNames names) := by rw [TooLong, TooLong, h.path]
  have hbarred : s'.tree.Barred top names ↔ s.tree.Barred top names := by rw [h.tree]
  exact if_congr hlong rfl (if_congr hbarred rfl rfl)

namespace Rooted

/-- What is rooted stays so while the settings and the files stay. -/
theorem of_grows (h : s.Rooted top) (hgrows : Grows s s') : s'.Rooted top :=
  ⟨hgrows.tree ▸ h.linkless, hgrows.tree ▸ h.proper, by rw [hgrows.tree, hgrows.path, h.located],
    by rw [hgrows.tree, h.directory], hgrows.tree ▸ h.listed⟩

variable (h : s.Rooted top)

include h

/-- The names that lead from the root to an entry. -/
theorem named (hentry : s.tree.entry? (top ++ names) = some e) {n : String} (hn : n ∈ names) :
    IsName n ∧ Tree.Fits n ∧ '\x00' ∉ n.toList := by
  have hne : top ++ names ≠ [] := List.append_ne_nil_of_right_ne_nil _ (List.ne_nil_of_mem hn)
  obtain ⟨e', he'⟩ := (Tree.mem_entries_iff hne).2 ⟨e, hentry⟩
  exact (h.proper.named _ he').2 n (List.mem_append_right _ hn)

/-- They are an identifier. -/
theorem descent (hne : names ≠ []) (hentry : s.tree.entry? (top ++ names) = some e) :
    Identifier.Descent names :=
  ⟨hne, fun _ hn => (h.named hentry hn).1, fun hdots => (h.named hentry hdots).2.1.1 rfl⟩

theorem components_path (hentry : s.tree.entry? (top ++ names) = some e) :
    components (s.path (joinNames names)) = components s.root ++ names := by
  by_cases hne : names = []
  · rw [hne, List.append_nil]
    exact s.components_root
  · exact (h.descent hne hentry).components_under s.root

/-- No path below the root has a character that no name has. -/
theorem null_not_mem_path (hentry : s.tree.entry? (top ++ names) = some e) :
    '\x00' ∉ (s.path (joinNames names)).toList := by
  intro hnull
  have hname : ∃ n ∈ components s.root ++ names, '\x00' ∈ n.toList := by
    rcases mem_plainPath hnull with heq | heq | ⟨n, hn, hc⟩
    · exact absurd heq (by decide)
    · exact absurd heq (by decide)
    · rw [← components_plainPath] at hn
      have hpath := h.components_path hentry
      exact ⟨n, hpath ▸ hn, hc⟩
  obtain ⟨n, hn, hc⟩ := hname
  rcases List.mem_append.1 hn with hn | hn
  · have hmem := mem_of_mem_components (s.components_root ▸ hn) hc
    have hlocated := h.located
    unfold Tree.locate Tree.locateLast at hlocated
    rw [if_pos (by simpa using hmem)] at hlocated
    exact nomatch hlocated
  · exact (h.named hentry hn).2.2 hc

/-- An entry is found at its path, unless the path cannot be looked up. -/
theorem locate (hentry : s.tree.entry? (top ++ names) = some e) :
    s.tree.locate (s.path (joinNames names)) =
      match s.obstacle? top names with
      | some f => .error f
      | none => .ok (top ++ names) := by
  have hroot : s.tree.walk true Tree.linkLimit [] (components s.root) = .ok top := by
    have hlocated := h.located
    unfold Tree.locate Tree.locateLast at hlocated
    split at hlocated
    · exact nomatch hlocated
    · split at hlocated
      · exact nomatch hlocated
      · rwa [s.components_root] at hlocated
  have hwalk : s.tree.walk true Tree.linkLimit top names =
      if s.tree.Barred top names then .error .noPermission else .ok (top ++ names) := by
    refine Tree.walk_eq (fun target heq => h.linkless _ target (heq ▸ hentry))
      (fun n hn => (h.named hentry hn).2.1) (fun i hi => ?_) hentry
    have hne : names.drop i ≠ [] := fun hnil => absurd (List.drop_eq_nil_iff.1 hnil) (Nat.not_le.2 hi)
    refine h.proper.entry?_of_append hne ⟨e, ?_⟩
    rw [List.append_assoc, List.take_append_drop, hentry]
  unfold Tree.locate Tree.locateLast
  rw [if_neg (by simpa using h.null_not_mem_path hentry), h.components_path hentry, h.linkless.walk_append,
    hroot]
  by_cases hlong : s.TooLong (joinNames names)
  · rw [obstacle?, if_pos hlong]
    exact if_pos hlong
  · rw [obstacle?, if_neg hlong]
    refine (if_neg hlong).trans (hwalk.trans ?_)
    split <;> rfl

/-- Precompiling sees of an entry whether it is a directory. -/
theorem isDirectory (hentry : s.tree.entry? (top ++ names) = some e) :
    s.tree.isDirectory (s.path (joinNames names)) =
      match s.obstacle? top names with
      | some f => .error f
      | none => .ok (e == .directory) := by
  unfold Tree.isDirectory Tree.check Tree.lookup
  rw [h.locate hentry]
  cases hobstacle : s.obstacle? top names with
  | some f =>
    simp only [bind, Except.bind, isAbsence_of_obstacle? hobstacle]
    rfl
  | none => simp only [bind, Except.bind, hentry]

/-- A directory whose path is not too long has fewer directories above it than precompiling goes down. -/
theorem length_lt (hentry : s.tree.entry? (top ++ names) = some e) (hshort : ¬ s.TooLong (joinNames names)) :
    names.length < Tree.pathLimit := by
  have hlength : (components (s.path (joinNames names))).length ≤ (s.path (joinNames names)).utf8ByteSize := by
    rw [path, under, components_plainPath]
    exact length_components_le _
  rw [h.components_path hentry, List.length_append] at hlength
  have hlt : (s.path (joinNames names)).utf8ByteSize < Tree.pathLimit := Nat.not_le.1 hshort
  omega

/-- What stands in a directory is listed by its identifiers, in the order of its names, unless the directory may not be
listed. -/
theorem children (hlocate : s.tree.locate (s.path (joinNames names)) = .ok (top ++ names))
    (hentry : s.tree.entry? (top ++ names) = some .directory) :
    s.children (joinNames names) =
      if top ++ names ∈ s.tree.unreadable then .error (.listing (s.path (joinNames names)) .noPermission)
      else .ok ((s.tree.childNames (top ++ names)).map fun n => joinNames (names ++ [n])) := by
  have hparts : ((s.tree.childNames (top ++ names)).map fun n =>
        components (s.path (joinNames names)) ++ [n]).mapM (Identifier.afterRoot? (components s.root)) =
      some ((s.tree.childNames (top ++ names)).map fun n => names ++ [n]) := by
    have hpart : ∀ n, Identifier.afterRoot? (components s.root)
        (components (s.path (joinNames names)) ++ [n]) = some (names ++ [n]) := by
      intro n
      rw [Identifier.afterRoot?_eq_some_iff, h.components_path hentry, List.append_assoc]
    rw [List.mapM_map, Function.comp_def]
    simp only [hpart]
    exact List.mapM_pure
  unfold Session.children
  dsimp only
  rw [Tree.list_eq hlocate hentry]
  by_cases hlisted : top ++ names ∈ s.tree.unreadable
  · rw [if_pos hlisted, if_pos hlisted]
  rw [if_neg hlisted, if_neg hlisted]
  dsimp only
  rw [hparts]
  dsimp only
  rw [List.map_map, ascending]
  refine congrArg Except.ok (List.mergeSort_eq_self (· ≤ ·) ?_)
  rw [List.pairwise_map]
  exact h.proper.pairwise_childNames.imp fun hlt => joinNames_concat_le names hlt

end Rooted

end Session

end Stencil
