import Mathlib.Data.List.Induction
import Stencil.Datum
import Stencil.Proofs.Decimal.Binary

/-!
# Keys and entries

Values are one as keys if they are the same key, where numbers of any form are told by their value
(`Scalar.same_iff`). Being one is so symmetric and transitive, and what is found under a key is found under every
key that is one with it (`find?_congr`). What is not a number is one with nothing, not even with itself: entries
under such a key are never found.

After a key is given a value, that value is found under it and under any other key what was there (`find?_put`).
Where the keys are texts, and each stands once, every value is found under its name (`forall_mem_iff_field?`).
-/

namespace Stencil

open Decimal

namespace Scalar

/-- What a value is as a key. -/
inductive Key where
  | null
  | number (v : Decimal.Value)
  | text (s : String)
  | bytes (b : List UInt8)
  | date (d : Day)
  | moment (m : Moment)

/-- The value of a number, if it has one. -/
def Number.value? : Number → Option Decimal.Value
  | .whole i => some (.rational i)
  | .double x => (Binary.of x).value?

/-- The key that a value is, if it is one. -/
def key? : Scalar → Option Key
  | null => some .null
  | bool b => some (.number (.rational (if b then 1 else 0)))
  | int i => some (.number (.rational i))
  | float x => (Binary.of x).value?.map .number
  | text s => some (.text s)
  | bytes b => some (.bytes b)
  | date d => some (.date d)
  | moment m => some (.moment m)

theorem Number.same_iff {m n : Number} :
    m.same n = true ↔ ∃ value, m.value? = some value ∧ n.value? = some value := by
  cases m with
  | whole i =>
    cases n with
    | whole j => simpa [same, value?] using eq_comm
    | double x => simp [same, value?, intEq_iff]
  | double x =>
    cases n with
    | whole j => simp [same, value?, intEq_iff]
    | double y => exact beq_iff

/-- Values are one as keys if they are the same key. -/
theorem same_iff {a b : Scalar} : a.same b = true ↔ ∃ k, a.key? = some k ∧ b.key? = some k := by
  cases a <;> cases b <;> simp [same, key?, number?, Number.same_iff, Number.value?] <;> exact eq_comm

variable {a b c : Scalar}

theorem same_symm (h : a.same b = true) : b.same a = true := by
  obtain ⟨k, ha, hb⟩ := same_iff.1 h
  exact same_iff.2 ⟨k, hb, ha⟩

theorem same_trans (h : a.same b = true) (h' : b.same c = true) : a.same c = true := by
  obtain ⟨k, ha, hb⟩ := same_iff.1 h
  obtain ⟨k', hb', hc⟩ := same_iff.1 h'
  obtain rfl := Option.some.inj (hb.symm.trans hb')
  exact same_iff.2 ⟨k, ha, hc⟩

theorem same_comm (a b : Scalar) : a.same b = b.same a := Bool.eq_iff_iff.2 ⟨same_symm, same_symm⟩

/-- Keys that are one are one with the same keys. -/
theorem same_congr (h : a.same b = true) (c : Scalar) : a.same c = b.same c :=
  Bool.eq_iff_iff.2 ⟨same_trans (same_symm h), same_trans h⟩

theorem text_same_iff {s : String} {k : Scalar} : (text s).same k = true ↔ k = text s := by
  cases k with
  | text t => simpa [same] using eq_comm
  | _ => simp [same, number?]

end Scalar

namespace Datum

variable {j k : Scalar} {v : Datum} {entries : List (Scalar × Datum)}

theorem find?_cons (k : Scalar) (p : Scalar × Datum) (entries : List (Scalar × Datum)) :
    find? k (p :: entries) = if p.1.same k then some p.2 else find? k entries := rfl

/-- Under keys that are one the same is found. -/
theorem find?_congr (h : j.same k = true) (entries : List (Scalar × Datum)) : find? j entries = find? k entries := by
  induction entries with
  | nil => rfl
  | cons p entries ih => rw [find?_cons, find?_cons, ih, Scalar.same_comm, Scalar.same_congr h, Scalar.same_comm]

theorem find?_eq_none_iff : find? k entries = none ↔ ∀ p ∈ entries, p.1.same k = false := by
  induction entries with
  | nil => simp [find?]
  | cons p entries ih =>
    rw [find?_cons, List.forall_mem_cons, ← ih]
    cases p.1.same k <;> simp

theorem exists_mem_of_find? (h : find? k entries = some v) : ∃ p ∈ entries, p.1.same k = true ∧ p.2 = v := by
  induction entries with
  | nil => exact nomatch h
  | cons p entries ih =>
    rw [find?_cons] at h
    split at h
    · next hsame => exact ⟨p, List.mem_cons_self, hsame, Option.some.inj h⟩
    · obtain ⟨q, hq, hfound⟩ := ih h
      exact ⟨q, List.mem_cons_of_mem p hq, hfound⟩

/-- A key that is given a value has it after that, and any other one what it had. -/
theorem find?_put (j k : Scalar) (v : Datum) (entries : List (Scalar × Datum)) :
    find? j (put k v entries) = if k.same j then some v else find? j entries := by
  induction entries with
  | nil => rfl
  | cons p entries ih =>
    obtain ⟨i, w⟩ := p
    rw [put]
    split
    · next hsame => rw [find?_cons, find?_cons, Scalar.same_congr hsame]; split <;> rfl
    · next hother =>
      rw [find?_cons, find?_cons, ih]
      split
      · next hij =>
        have hkj : ¬ k.same j = true := fun h => hother (Scalar.same_trans hij (Scalar.same_symm h))
        rw [if_neg hkj]
      · rfl

theorem field?_put (name key : String) (v : Datum) (entries : List (Scalar × Datum)) :
    field? name (put (.text key) v entries) = if name = key then some v else field? name entries := by
  simp only [field?, find?_put, Scalar.text_same_iff, Scalar.text.injEq]

/-- After a value is put there are the entries that were there, and one with the value, under its key or one that was
there. -/
theorem mem_put {p : Scalar × Datum} (h : p ∈ put k v entries) :
    p ∈ entries ∨ (p.1 = k ∨ p.1 ∈ entries.map Prod.fst) ∧ p.2 = v := by
  induction entries with
  | nil =>
    obtain rfl := List.mem_singleton.1 h
    exact Or.inr ⟨Or.inl rfl, rfl⟩
  | cons q entries ih =>
    rw [put] at h
    split at h
    · rcases List.mem_cons.1 h with rfl | h
      · exact Or.inr ⟨Or.inr List.mem_cons_self, rfl⟩
      · exact Or.inl (List.mem_cons_of_mem q h)
    · rcases List.mem_cons.1 h with rfl | h
      · exact Or.inl List.mem_cons_self
      · exact (ih h).imp (List.mem_cons_of_mem q) (And.imp_left (Or.imp_right (List.mem_cons_of_mem q.1)))

theorem field?_map_text (name : String) (fields : List (String × Datum)) :
    field? name (fields.map fun (k, v) => (.text k, v)) = fields.lookup name := by
  induction fields with
  | nil => rfl
  | cons p fields ih =>
    have hsame : (Scalar.text p.1).same (.text name) = (name == p.1) := Bool.beq_comm
    rw [field?] at ih ⊢
    rw [List.map_cons, find?_cons, ih, hsame, List.lookup]
    cases name == p.1 <;> rfl

/-- After entries are put one after the other, the last one with a key is found under it. -/
theorem find?_ofEntries (k : Scalar) (entries : List (Scalar × Datum)) :
    find? k (ofEntries entries) = find? k entries.reverse := by
  induction entries using List.reverseRecOn with
  | nil => rfl
  | append_singleton entries p ih =>
    have hput : ofEntries (entries ++ [p]) = put p.1 p.2 (ofEntries entries) := by
      rw [ofEntries, List.foldl_append]
      rfl
    rw [hput, find?_put, ih, List.reverse_concat, find?_cons]

/-! ### Entries with each key once -/

/-- Each key stands once among the entries. -/
def Distinct (entries : List (Scalar × Datum)) : Prop := entries.Pairwise fun p q => p.1.same q.1 = false

instance (entries : List (Scalar × Datum)) : Decidable (Distinct entries) :=
  inferInstanceAs (Decidable (entries.Pairwise _))

theorem find?_of_mem (h : Distinct entries) {p : Scalar × Datum} (hp : p ∈ entries) (hk : p.1.same k = true) :
    find? k entries = some p.2 := by
  induction entries with
  | nil => exact absurd hp List.not_mem_nil
  | cons q entries ih =>
    obtain ⟨hfirst, hrest⟩ := List.pairwise_cons.1 h
    rw [find?_cons]
    rcases List.mem_cons.1 hp with rfl | hp
    · rw [if_pos hk]
    · have hother : ¬ q.1.same k = true := by
        intro hq
        have := hfirst p hp
        rw [Scalar.same_trans hq (Scalar.same_symm hk)] at this
        exact nomatch this
      rw [if_neg hother]
      exact ih hrest hp

/-- The first of entries with each key once is found nowhere else. -/
theorem Distinct.find?_eq_none {p : Scalar × Datum} (h : Distinct (p :: entries)) : find? p.1 entries = none := by
  rw [find?_eq_none_iff]
  intro q hq
  rw [Scalar.same_comm]
  exact (List.pairwise_cons.1 h).1 q hq

/-- Under a key that stands once its value is left if it is kept. -/
theorem find?_filter (h : Distinct entries) (keep : Datum → Bool) (k : Scalar) :
    find? k (entries.filter fun p => keep p.2) = (find? k entries).filter keep := by
  induction entries with
  | nil => rfl
  | cons p entries ih =>
    have hrest := ih (List.pairwise_cons.1 h).2
    rw [find?_cons, List.filter_cons]
    by_cases hk : p.1.same k = true
    · -- the rest does not have the key
      rw [← find?_congr hk, ← find?_congr hk entries, h.find?_eq_none] at hrest
      rw [if_pos hk, Option.filter_some]
      split
      · rw [find?_cons, if_pos hk]
      · rw [← find?_congr hk, hrest]
        rfl
    · rw [if_neg hk, ← hrest]
      split
      · rw [find?_cons, if_neg hk]
      · rfl

theorem distinct_append_iff {rest : List (Scalar × Datum)} :
    Distinct (entries ++ rest) ↔ Distinct entries ∧ Distinct rest ∧ ∀ p ∈ rest, find? p.1 entries = none := by
  rw [Distinct, List.pairwise_append]
  refine and_congr_right fun _ => and_congr_right fun _ => ?_
  simp only [find?_eq_none_iff]
  exact forall₂_comm

/-- A new key comes after the ones that are there. -/
theorem put_of_find?_eq_none (h : find? k entries = none) (v : Datum) : put k v entries = entries ++ [(k, v)] := by
  induction entries with
  | nil => rfl
  | cons p entries ih =>
    obtain ⟨hp, hrest⟩ := List.forall_mem_cons.1 (find?_eq_none_iff.1 h)
    have hno : ¬ p.1.same k = true := by simp [hp]
    rw [put, if_neg hno, ih (find?_eq_none_iff.2 hrest), List.cons_append]

/-- A key that is there keeps its place. -/
theorem put_of_find?_eq_some (hd : Distinct entries) {w : Datum} (h : find? k entries = some w) (v : Datum) :
    put k v entries = entries.map fun p => if p.1.same k then (p.1, v) else p := by
  induction entries with
  | nil => exact nomatch h
  | cons p entries ih =>
    rw [find?_cons] at h
    rw [put, List.map_cons]
    split at h
    · next hp =>
      have hrest : find? k entries = none := (find?_congr hp entries).symm.trans hd.find?_eq_none
      have hsame : ∀ q ∈ entries, (if q.1.same k then (q.1, v) else q) = q := by
        intro q hq
        rw [find?_eq_none_iff.1 hrest q hq]
        rfl
      rw [if_pos hp, if_pos hp, List.map_congr_left hsame, List.map_id']
    · next hp => rw [if_neg hp, if_neg hp, ih (List.pairwise_cons.1 hd).2 h]

theorem distinct_put (h : Distinct entries) (k : Scalar) (v : Datum) : Distinct (put k v entries) := by
  cases hk : find? k entries with
  | none =>
    rw [put_of_find?_eq_none hk, distinct_append_iff]
    exact ⟨h, List.pairwise_singleton _ _, by simpa using hk⟩
  | some w =>
    rw [put_of_find?_eq_some h hk, Distinct, List.pairwise_map]
    refine h.imp fun {p q} hpq => ?_
    split <;> split <;> exact hpq

theorem distinct_ofEntries (entries : List (Scalar × Datum)) : Distinct (ofEntries entries) := by
  unfold ofEntries
  suffices hfold : ∀ done, Distinct done → Distinct (entries.foldl (fun done p => put p.1 p.2 done) done) from
    hfold [] List.Pairwise.nil
  induction entries with
  | nil => exact fun done hdone => hdone
  | cons p entries ih => exact fun done hdone => ih _ (distinct_put hdone p.1 p.2)

/-- Entries with each key once are put one after the other as they stand. -/
theorem ofEntries_eq_self (h : Distinct entries) : ofEntries entries = entries := by
  unfold ofEntries
  suffices hfold : ∀ done, Distinct (done ++ entries) →
      entries.foldl (fun done p => put p.1 p.2 done) done = done ++ entries from hfold [] h
  clear h
  induction entries with
  | nil => exact fun done _ => (List.append_nil done).symm
  | cons p entries ih =>
    intro done hdone
    have hnew : find? p.1 done = none := (distinct_append_iff.1 hdone).2.2 p List.mem_cons_self
    have hnext : done ++ p :: entries = (done ++ [p]) ++ entries := by rw [List.append_assoc]; rfl
    rw [List.foldl_cons, put_of_find?_eq_none hnew, hnext]
    exact ih _ (hnext ▸ hdone)

/-- Entries with texts for keys, each once, have the values that are found by name. -/
theorem forall_mem_iff_field? (h : Distinct entries) (hnamed : ∀ p ∈ entries, ∃ name, p.1 = .text name)
    {P : Datum → Prop} : (∀ p ∈ entries, P p.2) ↔ ∀ name v, field? name entries = some v → P v := by
  constructor
  · intro hall name v hv
    obtain ⟨p, hp, -, rfl⟩ := exists_mem_of_find? hv
    exact hall p hp
  · intro hall p hp
    obtain ⟨name, hname⟩ := hnamed p hp
    exact hall name p.2 (find?_of_mem h hp (Scalar.text_same_iff.2 hname |> Scalar.same_symm))

/-! ### What can be written out -/

theorem isWritable_list_iff {items : List Datum} :
    (Datum.list items).isWritable = true ↔ ∀ d ∈ items, d.isWritable = true := by
  rw [isWritable]
  induction items with
  | nil => simp [areItemsWritable]
  | cons d items ih => rw [areItemsWritable, Bool.and_eq_true, ih, List.forall_mem_cons]

theorem isWritable_map_iff :
    (Datum.map entries).isWritable = true ↔ ∀ p ∈ entries, p.1.isWritable = true ∧ p.2.isWritable = true := by
  rw [isWritable]
  induction entries with
  | nil => simp [areEntriesWritable]
  | cons p entries ih =>
    rw [areEntriesWritable, Bool.and_eq_true, Bool.and_eq_true, ih, List.forall_mem_cons]

/-- A mapping with texts for keys can be written out if its values can. -/
theorem isWritable_map_iff_of_named (hnamed : ∀ p ∈ entries, ∃ name, p.1 = .text name) :
    (Datum.map entries).isWritable = true ↔ ∀ p ∈ entries, p.2.isWritable = true := by
  rw [isWritable_map_iff]
  refine forall₂_congr fun p hp => and_iff_right ?_
  obtain ⟨name, hname⟩ := hnamed p hp
  rw [hname]
  rfl

end Datum

end Stencil
