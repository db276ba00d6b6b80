import Mathlib.Data.List.Induction
import Mathlib.Data.List.Sort
import Mathlib.Data.String.Basic
import Stencil.Proofs.Identifier.Canonical

/-!
# What stands below a directory

In a tree as a file system holds it (`Tree.Proper`) all that stands below a place is found by the lines of names
that lead there (`Tree.inside`). A line of names comes before those that go on from it, and of two lines that part
the one with the lesser name there comes first; so to take them in ascending order is to go down into each
directory as it is met, and to take what stands side by side in the order of the names (`Proper.inside_eq`).
-/

namespace Stencil.Files

/-- The greater of two names makes the greater path in one directory. -/
theorem joinNames_concat_le (names : List String) {n m : String} (h : n < m) :
    joinNames (names ++ [n]) ≤ joinNames (names ++ [m]) := by
  by_cases hnames : names = []
  · rw [hnames, List.nil_append, List.nil_append, joinNames, joinNames, String.intercalate_singleton,
      String.intercalate_singleton]
    exact h.le
  · rw [joinNames_concat hnames, joinNames_concat hnames]
    refine le_of_lt (String.lt_iff_toList_lt.2 ?_)
    rw [String.toList_append, String.toList_append (t := m)]
    exact List.append_left_lt (String.lt_iff_toList_lt.1 h)

namespace Tree

open Identifier (afterRoot? afterRoot?_eq_some_iff)

/-- A tree as a file system holds it: every place has one entry and the names that a file system allows, and it
stands in a directory. -/
structure Proper (t : Tree) : Prop where
  nodup : (t.entries.map Prod.fst).Nodup
  named : ∀ p ∈ t.entries, p.1 ≠ [] ∧ ∀ n ∈ p.1, IsName n ∧ Fits n ∧ '\x00' ∉ n.toList
  parent : ∀ p ∈ t.entries, t.entry? p.1.dropLast = some .directory

/-- The names in a directory, in ascending order. -/
def childNames (t : Tree) (place : Place) : List String :=
  (t.entries.filterMap fun p => childName? place p.1).mergeSort fun a b => decide (a ≤ b)

/-- A line of names is met before another one when directories are gone down into as they are met, and what stands
side by side is taken in the order of the names: the other one goes on from it, or they part, and it goes on with
the lesser name. -/
def Before (names names' : List String) : Prop :=
  (∃ n rest, names' = names ++ n :: rest) ∨
    ∃ shared n m rest rest', n < m ∧ names = shared ++ n :: rest ∧ names' = shared ++ m :: rest'

/-- The lines of names that lead from a place to all that stands below it, in ascending order. -/
def inside (t : Tree) (place : Place) : List (List String) :=
  ((t.entries.filterMap fun p => afterRoot? place p.1).filter (· ≠ [])).mergeSort
    fun a b => decide (a ≤ b)

variable {t : Tree} {place : Place} {names : List String} {n : String}

/-- A directory is listed by the names in it, unless it may not be listed. -/
theorem list_eq {path : String} (hlocate : t.locate path = .ok place)
    (hentry : t.entry? place = some .directory) :
    t.list path = if place ∈ t.unreadable then .error .noPermission else .ok (t.childNames place) := by
  unfold list
  rw [hlocate]
  simp only [bind, Except.bind, hentry, List.contains_iff_mem]
  rfl

theorem childName?_eq_some_iff {parent : Place} :
    childName? parent place = some n ↔ place = parent ++ [n] := by
  unfold childName?
  cases h : place.getLast? with
  | none =>
    rw [List.getLast?_eq_none_iff] at h
    simp [h]
  | some last =>
    obtain ⟨start, rfl⟩ := List.getLast?_eq_some_iff.1 h
    dsimp only
    rw [List.dropLast_concat]
    by_cases hstart : start = parent
    · simp [hstart]
    · rw [if_neg hstart]
      simp only [reduceCtorEq, false_iff]
      exact fun heq => hstart (List.append_inj_left' heq rfl)

theorem mem_entries_iff (hne : place ≠ []) :
    (∃ e, (place, e) ∈ t.entries) ↔ ∃ e, t.entry? place = some e := by
  unfold entry?
  rw [if_neg hne]
  constructor
  · rintro ⟨e, he⟩
    refine Option.ne_none_iff_exists'.1 fun hnone => ?_
    exact absurd (List.lookup_eq_none_iff.1 hnone _ he) (by simp)
  · rintro ⟨e, he⟩
    exact ⟨e, Store.mem_of_lookup he⟩

theorem mem_childNames : n ∈ t.childNames place ↔ ∃ e, t.entry? (place ++ [n]) = some e := by
  rw [← mem_entries_iff (by simp), childNames, List.mem_mergeSort, List.mem_filterMap]
  constructor
  · rintro ⟨⟨p, e⟩, hp, hn⟩
    exact ⟨e, childName?_eq_some_iff.1 hn ▸ hp⟩
  · rintro ⟨e, hp⟩
    exact ⟨_, hp, childName?_eq_some_iff.2 rfl⟩

theorem mem_inside : names ∈ t.inside place ↔ names ≠ [] ∧ ∃ e, t.entry? (place ++ names) = some e := by
  rw [inside, List.mem_mergeSort, List.mem_filter, List.mem_filterMap, decide_eq_true_eq, and_comm]
  refine and_congr_right fun hne => ?_
  rw [← mem_entries_iff (by simp [hne])]
  constructor
  · rintro ⟨⟨p, e⟩, hp, hn⟩
    exact ⟨e, afterRoot?_eq_some_iff.1 hn ▸ hp⟩
  · rintro ⟨e, hp⟩
    exact ⟨_, hp, afterRoot?_eq_some_iff.2 rfl⟩

/-! ### In order -/

/-- That is the order of lists. -/
theorem before_of_lt {names names' : List String} (h : names < names') : Before names names' := by
  induction h with
  | @nil n rest => exact Or.inl ⟨n, rest, rfl⟩
  | @rel n rest m rest' hnm => exact Or.inr ⟨[], n, m, rest, rest', hnm, rfl, rfl⟩
  | @cons k names names' _ ih =>
    rcases ih with ⟨n, rest, rfl⟩ | ⟨shared, n, m, rest, rest', hnm, rfl, rfl⟩
    · exact Or.inl ⟨n, rest, rfl⟩
    · exact Or.inr ⟨k :: shared, n, m, rest, rest', hnm, rfl, rfl⟩

/-- What is not there twice is in strict order when it is sorted. -/
theorem pairwise_lt_mergeSort {α : Type} [LinearOrder α] {l : List α} (h : l.Nodup) :
    (l.mergeSort fun a b => decide (a ≤ b)).Pairwise (· < ·) := by
  have hnodup : (l.mergeSort fun a b => decide (a ≤ b)).Nodup := (List.mergeSort_perm l _).nodup_iff.2 h
  exact (List.pairwise_mergeSort' (· ≤ ·) l).imp₂ (fun a b hle hne => lt_of_le_of_ne hle hne) hnodup

namespace Proper

variable (h : t.Proper)

include h

/-- What is read of the places of a tree is read of each place once, if it tells the place. -/
theorem nodup_filterMap {α : Type} {f : Place → Option α}
    (hf : ∀ p q x, f p = some x → f q = some x → p = q) :
    (t.entries.filterMap fun p => f p.1).Nodup := by
  have hmap : (t.entries.filterMap fun p => f p.1) = (t.entries.map Prod.fst).filterMap f := by
    rw [List.filterMap_map]
    rfl
  rw [hmap]
  exact h.nodup.filterMap fun p q x hp hq => hf p q x hp hq

theorem pairwise_childNames : (t.childNames place).Pairwise (· < ·) := by
  refine pairwise_lt_mergeSort (h.nodup_filterMap fun p q n hp hq => ?_)
  rw [childName?_eq_some_iff.1 hp, childName?_eq_some_iff.1 hq]

theorem pairwise_inside : (t.inside place).Pairwise (· < ·) := by
  refine pairwise_lt_mergeSort ((h.nodup_filterMap fun p q names hp hq => ?_).filter _)
  rw [afterRoot?_eq_some_iff.1 hp, afterRoot?_eq_some_iff.1 hq]

/-- All that leads to an entry are directories. -/
theorem entry?_of_append {rest : List String} (hne : rest ≠ [])
    (hentry : ∃ e, t.entry? (place ++ rest) = some e) : t.entry? place = some .directory := by
  induction rest using List.reverseRecOn with
  | nil => exact absurd rfl hne
  | append_singleton rest n ih =>
    obtain ⟨e, he⟩ := (mem_entries_iff (by simp)).2 hentry
    have hparent := h.parent _ he
    rw [← List.append_assoc, List.dropLast_concat] at hparent
    cases rest with
    | nil => rwa [List.append_nil] at hparent
    | cons m rest => exact ih (List.cons_ne_nil _ _) ⟨_, hparent⟩

/-- Nothing stands below what is no directory. -/
theorem inside_eq_nil (hentry : t.entry? place ≠ some .directory) : t.inside place = [] := by
  rw [List.eq_nil_iff_forall_not_mem]
  intro names hnames
  obtain ⟨hne, hsome⟩ := mem_inside.1 hnames
  exact hentry (h.entry?_of_append hne hsome)

/-- Below a directory there is, name by name, what has the name, and then what stands below that. -/
theorem inside_eq (place : Place) :
    t.inside place =
      (t.childNames place).flatMap fun n => [n] :: (t.inside (place ++ [n])).map (n :: ·) := by
  refine List.Pairwise.eq_of_mem_iff (r := (· < ·)) h.pairwise_inside ?_ fun names => ?_
  · rw [List.pairwise_flatMap]
    refine ⟨fun n _ => ?_, h.pairwise_childNames.imp fun {n m} hnm x hx y hy => ?_⟩
    · rw [List.pairwise_cons, List.pairwise_map]
      refine ⟨fun names hnames => ?_, h.pairwise_inside.imp fun hlt => .cons hlt⟩
      obtain ⟨rest, hrest, rfl⟩ := List.mem_map.1 hnames
      obtain ⟨m, rest, rfl⟩ := List.exists_cons_of_ne_nil (mem_inside.1 hrest).1
      exact .cons .nil
    · have hhead : ∀ {k : String} {z : List String},
          z ∈ [k] :: (t.inside (place ++ [k])).map (k :: ·) → ∃ rest, z = k :: rest := by
        intro k z hz
        rcases List.mem_cons.1 hz with rfl | hz
        · exact ⟨[], rfl⟩
        · obtain ⟨rest, -, rfl⟩ := List.mem_map.1 hz
          exact ⟨rest, rfl⟩
      obtain ⟨rest, rfl⟩ := hhead hx
      obtain ⟨rest', rfl⟩ := hhead hy
      exact .rel hnm
  · rw [mem_inside, List.mem_flatMap]
    constructor
    · rintro ⟨hne, hsome⟩
      obtain ⟨n, rest, rfl⟩ := List.exists_cons_of_ne_nil hne
      have hsplit : place ++ n :: rest = place ++ [n] ++ rest := by simp
      cases rest with
      | nil => exact ⟨n, mem_childNames.2 hsome, List.mem_cons_self⟩
      | cons m rest =>
        rw [hsplit] at hsome
        have hdirectory := h.entry?_of_append (List.cons_ne_nil m rest) hsome
        refine ⟨n, mem_childNames.2 ⟨_, hdirectory⟩, List.mem_cons_of_mem _ ?_⟩
        exact List.mem_map.2 ⟨m :: rest, mem_inside.2 ⟨List.cons_ne_nil _ _, hsome⟩, rfl⟩
    · rintro ⟨n, hn, hnames⟩
      rcases List.mem_cons.1 hnames with rfl | hnames
      · exact ⟨List.cons_ne_nil _ _, mem_childNames.1 hn⟩
      · obtain ⟨rest, hrest, rfl⟩ := List.mem_map.1 hnames
        obtain ⟨-, hsome⟩ := mem_inside.1 hrest
        exact ⟨List.cons_ne_nil _ _, by rwa [List.append_assoc] at hsome⟩

end Proper

end Tree

end Stencil.Files
