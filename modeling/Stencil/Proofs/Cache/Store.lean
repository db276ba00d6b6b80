import Mathlib.Data.List.Basic
import Stencil.Cache.Store

/-!
# What a store holds after each of its operations

A store is read through `get?` alone: what is put is found, what is erased is not, and every other
identifier keeps its value.
-/

namespace Stencil.Store

attribute [ext] Store

variable {α : Type}

theorem lookup_cons_ite {κ : Type} [BEq κ] [LawfulBEq κ] [DecidableEq κ] (k k' : κ) (v : α)
    (rest : List (κ × α)) :
    ((k', v) :: rest).lookup k = if k = k' then some v else rest.lookup k := by
  by_cases h : k = k'
  · simp [h]
  · have hb : (k == k') = false := by simp [h]
    rw [List.lookup_cons, hb, if_neg h]

theorem lookup_putIn (id k : String) (value : α) (entries : List (String × α)) :
    (putIn id value entries).lookup k = if k = id then some value else entries.lookup k := by
  induction entries with
  | nil => rw [putIn, lookup_cons_ite]
  | cons e rest ih =>
    obtain ⟨k', v⟩ := e
    by_cases hk' : k' = id
    · rw [putIn, if_pos hk', lookup_cons_ite, lookup_cons_ite, hk']
      by_cases h : k = id <;> simp [h]
    · rw [putIn, if_neg hk', lookup_cons_ite, lookup_cons_ite, ih]
      by_cases h : k = k'
      · simp [h, hk']
      · simp [h]

/-- Entries are left out by their identifiers alone. -/
theorem lookup_filter {κ : Type} [BEq κ] [LawfulBEq κ] [DecidableEq κ] (keep : κ → Prop)
    [DecidablePred keep] (k : κ) (entries : List (κ × α)) :
    (entries.filter fun e => keep e.1).lookup k = if keep k then entries.lookup k else none := by
  induction entries with
  | nil => simp
  | cons e rest ih =>
    obtain ⟨k', v⟩ := e
    by_cases hk' : keep k'
    · rw [List.filter_cons_of_pos (by simpa using hk'), lookup_cons_ite, lookup_cons_ite, ih]
      by_cases h : k = k'
      · simp [h, hk']
      · simp [h]
    · rw [List.filter_cons_of_neg (by simpa using hk'), lookup_cons_ite, ih]
      by_cases h : k = k'
      · simp [h, hk']
      · simp [h]

@[simp] theorem get?_empty (k : String) : ({} : Store α).get? k = none := rfl

@[simp] theorem get?_put (s : Store α) (id k : String) (value : α) :
    (s.put id value).get? k = if k = id then some value else s.get? k :=
  lookup_putIn id k value s.entries

theorem entries_erase (s : Store α) (id : String) :
    (s.erase id).entries = s.entries.filter fun e => e.1 ≠ id := by
  refine List.filter_congr fun e _ => ?_
  by_cases h : e.1 = id <;> simp [h]

/-- What is left keeps its order. -/
theorem entries_eraseAll (s : Store α) (ids : List String) :
    (s.eraseAll ids).entries = s.entries.filter fun e => e.1 ∉ ids := by
  induction ids generalizing s with
  | nil => simp [eraseAll]
  | cons id ids ih =>
    have hstep : s.eraseAll (id :: ids) = (s.erase id).eraseAll ids := rfl
    rw [hstep, ih, entries_erase, List.filter_filter]
    refine List.filter_congr fun e _ => ?_
    by_cases h : e.1 = id <;> simp [h]

@[simp] theorem get?_erase (s : Store α) (id k : String) :
    (s.erase id).get? k = if k = id then none else s.get? k := by
  rw [get?, entries_erase, lookup_filter (· ≠ id), ite_not]
  rfl

@[simp] theorem get?_eraseAll (s : Store α) (ids : List String) (k : String) :
    (s.eraseAll ids).get? k = if k ∈ ids then none else s.get? k := by
  rw [get?, entries_eraseAll, lookup_filter (· ∉ ids), ite_not]
  rfl

/-- The identifiers of a store are those that have a value. -/
theorem mem_ids_iff {s : Store α} {id : String} : id ∈ s.ids ↔ ∃ value, s.get? id = some value := by
  obtain ⟨entries⟩ := s
  simp only [ids, get?]
  induction entries with
  | nil => simp
  | cons e rest ih =>
    obtain ⟨k, v⟩ := e
    rw [lookup_cons_ite]
    by_cases h : id = k <;> simp [h, ih]

/-- A store in which nothing is found is empty. -/
theorem entries_eq_nil {s : Store α} (h : ∀ k, s.get? k = none) : s.entries = [] := by
  obtain ⟨entries⟩ := s
  cases entries with
  | nil => rfl
  | cons e rest =>
    have hhead : ((e.1, e.2) :: rest).lookup e.1 = none := h e.1
    rw [lookup_cons_ite, if_pos rfl] at hhead
    exact nomatch hhead

theorem mem_of_lookup {κ : Type} [BEq κ] [LawfulBEq κ] {entries : List (κ × α)} {k : κ} {value : α}
    (h : entries.lookup k = some value) : (k, value) ∈ entries := by
  obtain ⟨before, after, rfl, -⟩ := List.lookup_eq_some_iff.1 h
  exact List.mem_append_right _ List.mem_cons_self

end Stencil.Store
