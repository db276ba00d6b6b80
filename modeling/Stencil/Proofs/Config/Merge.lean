import Stencil.Config.Merge
import Stencil.Proofs.Datum

/-!
# The law of merging

Entries with others set over them are the ones of the base, each with what the others have under its key set over
its value, and after them those of the others whose keys are new (`merge_eq_append`). From this one form of a
merge follow its keys in their order (`keys_merge`), what is found in it (`find?_merge`), where its leaves come
from (`leafAt_merge_iff`) and that merges of three can be taken in either order (`merge_assoc`), unless under some
path of keys a value that is no mapping comes between two mappings (`Between`): merged first with the mapping
after it, it is gone, and the two mappings are merged. Put together they are the law (`merge_law`).
-/

namespace Stencil

namespace Datum

/-- Whether a value is a mapping. -/
def isMap : Datum → Bool
  | .map _ => true
  | _ => false

theorem isMap_iff {d : Datum} : d.isMap = true ↔ ∃ entries, d = .map entries := by
  cases d <;> simp [isMap]

/-- The value at a path of keys. -/
def at? : Datum → List Scalar → Option Datum
  | d, [] => some d
  | .map entries, k :: path => (find? k entries).bind fun d => d.at? path
  | _, _ :: _ => none

/-- A value that is no mapping stands at the path. -/
def LeafAt (d : Datum) (path : List Scalar) (v : Datum) : Prop := d.at? path = some v ∧ v.isMap = false

/-- Nothing stands at the path, and nothing but mappings on the way to it. -/
def Vacant (d : Datum) (path : List Scalar) : Prop :=
  d.at? path = none ∧ ∀ q v, q <+: path → q ≠ path → d.at? q = some v → v.isMap = true

/-- Every mapping in a value that is reached over keys has each key once. -/
inductive Tidy : Datum → Prop
  | map {entries : List (Scalar × Datum)} (distinct : Distinct entries) (values : ∀ p ∈ entries, Tidy p.2) :
    Tidy (.map entries)
  | leaf {d : Datum} (h : d.isMap = false) : Tidy d

/-- At some path the middle one of three values has a value that is no mapping between two mappings. -/
def Between (a b c : Datum) : Prop :=
  ∃ path va vb vc, a.at? path = some va ∧ va.isMap = true ∧ b.at? path = some vb ∧ vb.isMap = false ∧
    c.at? path = some vc ∧ vc.isMap = true

variable {entries : List (Scalar × Datum)} {k : Scalar} {d v : Datum} {path : List Scalar}

/-! ### Paths and what stands at them -/

theorem at?_nil (d : Datum) : d.at? [] = some d := by rw [at?]

theorem at?_map_cons (entries : List (Scalar × Datum)) (k : Scalar) (path : List Scalar) :
    (Datum.map entries).at? (k :: path) = (find? k entries).bind fun d => d.at? path := by rw [at?]

theorem at?_cons_of_leaf (h : d.isMap = false) (k : Scalar) (path : List Scalar) : d.at? (k :: path) = none := by
  cases d with
  | map entries => exact nomatch h
  | _ => rfl

theorem not_leafAt_nil : ¬ LeafAt (.map entries) [] v := by
  rintro ⟨hat, hleaf⟩
  cases hat
  exact nomatch hleaf

theorem leafAt_cons_iff : LeafAt (.map entries) (k :: path) v ↔ ∃ d, find? k entries = some d ∧ LeafAt d path v := by
  simp only [LeafAt, at?_map_cons, Option.bind_eq_some_iff]
  exact ⟨fun ⟨⟨d, hd, hat⟩, hv⟩ => ⟨d, hd, hat, hv⟩, fun ⟨d, hd, hat, hv⟩ => ⟨⟨d, hd, hat⟩, hv⟩⟩

/-- In a value that is no mapping there is no leaf but itself. -/
theorem LeafAt.eq_nil (h : LeafAt d path v) (hd : d.isMap = false) : path = [] := by
  cases path with
  | nil => rfl
  | cons k path =>
    rw [LeafAt, at?_cons_of_leaf hd] at h
    exact nomatch h.1

theorem not_vacant_nil : ¬ d.Vacant [] := fun h => nomatch (at?_nil d).symm.trans h.1

theorem Vacant.isMap (h : d.Vacant path) : d.isMap = true := by
  refine h.2 [] d List.nil_prefix ?_ (at?_nil d)
  rintro rfl
  exact not_vacant_nil h

theorem vacant_cons_iff : (Datum.map entries).Vacant (k :: path) ↔ ∀ d, find? k entries = some d → d.Vacant path := by
  constructor
  · rintro ⟨hat, hway⟩ d hd
    rw [at?_map_cons, hd] at hat
    refine ⟨hat, fun q v hq hne hv => ?_⟩
    refine hway (k :: q) v ((List.prefix_cons_inj k).2 hq) (fun h => hne (List.cons.inj h).2) ?_
    rw [at?_map_cons, hd]
    exact hv
  · intro h
    refine ⟨?_, fun q v hq hne hv => ?_⟩
    · rw [at?_map_cons, Option.bind_eq_none_iff]
      exact fun d hd => (h d hd).1
    · cases q with
      | nil =>
        cases hv
        rfl
      | cons j q =>
        obtain ⟨rfl, hq'⟩ := List.cons_prefix_cons.1 hq
        rw [at?_map_cons, Option.bind_eq_some_iff] at hv
        obtain ⟨d, hd, hv⟩ := hv
        exact (h d hd).2 q v hq' (fun heq => hne (heq ▸ rfl)) hv

theorem Tidy.distinct (h : Tidy (.map entries)) : Distinct entries := by
  cases h with
  | map distinct values => exact distinct
  | leaf h => exact nomatch h

theorem Tidy.of_find? (h : Tidy (.map entries)) (hv : find? k entries = some v) : Tidy v := by
  obtain ⟨p, hp, -, rfl⟩ := exists_mem_of_find? hv
  cases h with
  | map distinct values => exact values p hp
  | leaf h => exact nomatch h

end Datum

namespace Config

open Datum

variable {base later : List (Scalar × Datum)} {k : Scalar} {v w : Datum}

/-! ### One form of a merge -/

/-- A value with another one set over it, if there is one. -/
def overlay (v : Datum) (later : Option Datum) : Datum := (later.map fun w => mergeValue (some v) w).getD v

theorem mergeValue_none (v : Datum) : mergeValue none v = v := mergeValue.eq_2 none v fun _ _ h _ => nomatch h

theorem mergeValue_of_leaf (v? : Option Datum) (h : w.isMap = false) : mergeValue v? w = w := by
  refine mergeValue.eq_2 v? w ?_
  rintro base later - rfl
  exact nomatch h

theorem mergeValue_over_leaf (h : v.isMap = false) (w : Datum) : mergeValue (some v) w = w := by
  refine mergeValue.eq_2 (some v) w ?_
  rintro base later ⟨⟩ -
  exact nomatch h

theorem mergeValue_map (base later : List (Scalar × Datum)) :
    mergeValue (some (.map base)) (.map later) = .map (merge base later) := by
  rw [mergeValue]

/-- Entries with others set over them: the ones of the base in their places, and then the ones with new keys. -/
theorem merge_eq_append (hbase : Distinct base) (hlater : Distinct later) :
    merge base later =
      (base.map fun p => (p.1, overlay p.2 (find? p.1 later))) ++ later.filter fun p => (find? p.1 base).isNone := by
  induction later generalizing base with
  | nil =>
    have hsame : ∀ p ∈ base, (p.1, overlay p.2 (find? p.1 [])) = p := fun p _ => rfl
    rw [merge, List.map_congr_left hsame, List.map_id', List.filter_nil, List.append_nil]
  | cons q later ih =>
    obtain ⟨k, v⟩ := q
    have hnew : find? k later = none := hlater.find?_eq_none
    -- the rest does not have the key, so whether its keys are new does not depend on it
    have hrest : ∀ x, ∀ p ∈ later, (find? p.1 (put k x base)).isNone = (find? p.1 base).isNone := by
      intro x p hp
      have hother : ¬ k.same p.1 = true := by
        rw [Scalar.same_comm, find?_eq_none_iff.1 hnew p hp]
        exact Bool.false_ne_true
      rw [find?_put, if_neg hother]
    rw [merge, ih (distinct_put hbase k _) (List.pairwise_cons.1 hlater).2, List.filter_congr (hrest _)]
    cases hk : find? k base with
    | none =>
      have hsame : ∀ p ∈ base, (p.1, overlay p.2 (find? p.1 later)) =
          (p.1, overlay p.2 (find? p.1 ((k, v) :: later))) := by
        intro p hp
        have hother : ¬ k.same p.1 = true := by
          rw [Scalar.same_comm, find?_eq_none_iff.1 hk p hp]
          exact Bool.false_ne_true
        rw [find?_cons, if_neg hother]
      rw [put_of_find?_eq_none hk, mergeValue_none, List.filter_cons_of_pos (by rw [hk]; rfl), List.map_append,
        List.map_congr_left hsame, List.map_singleton, hnew, List.append_assoc]
      rfl
    | some u =>
      have hsame : ∀ p ∈ base, ((fun p => (p.1, overlay p.2 (find? p.1 later))) ∘ fun p =>
            if p.1.same k then (p.1, mergeValue (some u) v) else p) p =
          (p.1, overlay p.2 (find? p.1 ((k, v) :: later))) := by
        intro p hp
        rw [Function.comp_apply, find?_cons, Scalar.same_comm k]
        by_cases hpk : p.1.same k = true
        · have hu : u = p.2 := Option.some.inj (hk.symm.trans (find?_of_mem hbase hp hpk))
          rw [if_pos hpk, if_pos hpk, find?_congr hpk, hnew, hu]
          rfl
        · rw [if_neg hpk, if_neg hpk]
      rw [put_of_find?_eq_some hbase hk, List.map_map, List.map_congr_left hsame,
        List.filter_cons_of_neg (by rw [hk]; exact Bool.false_ne_true)]

/-- The keys of a merge are those of the base and then the new ones, in their orders. -/
theorem keys_merge (hbase : Distinct base) (hlater : Distinct later) :
    (merge base later).map Prod.fst =
      base.map Prod.fst ++ (later.map Prod.fst).filter fun k => (find? k base).isNone := by
  rw [merge_eq_append hbase hlater, List.map_append, List.map_map, List.filter_map]
  rfl

theorem distinct_merge (hbase : Distinct base) (hlater : Distinct later) : Distinct (merge base later) := by
  induction later generalizing base with
  | nil =>
    rw [merge]
    exact hbase
  | cons q later ih =>
    rw [merge]
    exact ih (distinct_put hbase _ _) (List.pairwise_cons.1 hlater).2

/-- In a merge the value of the later entries is found, set over the one of the base if there is one. -/
theorem find?_merge (hlater : Distinct later) (k : Scalar) :
    find? k (merge base later) =
      ((find? k later).map (mergeValue (find? k base))).or (find? k base) := by
  induction later generalizing base with
  | nil => rw [merge]; rfl
  | cons q later ih =>
    obtain ⟨j, v⟩ := q
    rw [merge, ih (List.pairwise_cons.1 hlater).2, find?_put, find?_cons]
    split
    · next hsame =>
      rw [← find?_congr hsame later, ← find?_congr hsame base, hlater.find?_eq_none]
      rfl
    · rfl

/-! ### Leaves -/

/-- The leaves of a merge are those of the later entries, and those of the base where the later entries have nothing
and nothing but mappings on the way. -/
theorem leafAt_merge_iff (hlater : Tidy (.map later)) {path : List Scalar} :
    LeafAt (.map (merge base later)) path v ↔
      LeafAt (.map later) path v ∨ LeafAt (.map base) path v ∧ (Datum.map later).Vacant path := by
  induction path generalizing base later with
  | nil => exact iff_of_false not_leafAt_nil fun h => h.elim not_leafAt_nil fun h => not_leafAt_nil h.1
  | cons k path ih =>
    rw [leafAt_cons_iff, leafAt_cons_iff, leafAt_cons_iff, vacant_cons_iff, find?_merge hlater.distinct]
    cases hw : find? k later with
    | none => simp
    | some w =>
      simp only [Option.map_some, Option.some_or, Option.some.injEq, exists_eq_left', forall_eq']
      cases hleaf : w.isMap with
      | false =>
        -- what is no mapping covers whatever is there
        rw [mergeValue_of_leaf _ hleaf]
        have hcovered : ¬ w.Vacant path := fun h => Bool.false_ne_true (hleaf.symm.trans h.isMap)
        exact ⟨Or.inl, fun h => h.resolve_right fun h => hcovered h.2⟩
      | true =>
        cases hu : find? k base with
        | none =>
          rw [mergeValue_none]
          exact ⟨Or.inl, fun h => h.resolve_right fun ⟨⟨d, hd, _⟩, _⟩ => nomatch hd⟩
        | some u =>
          simp only [Option.some.injEq, exists_eq_left']
          obtain ⟨later', rfl⟩ := isMap_iff.1 hleaf
          cases hbase : u.isMap with
          | false =>
            -- a value that is no mapping is gone, and the mapping set over it has something at its place
            rw [mergeValue_over_leaf hbase]
            refine ⟨Or.inl, fun h => h.resolve_right ?_⟩
            rintro ⟨hu, hvacant⟩
            exact not_vacant_nil (hu.eq_nil hbase ▸ hvacant)
          | true =>
            obtain ⟨base', rfl⟩ := isMap_iff.1 hbase
            rw [mergeValue_map]
            exact ih (hlater.of_find? hw)

/-! ### Merges of three -/

variable {a b c : List (Scalar × Datum)}

theorem find?_merge_isNone (hlater : Distinct later) (k : Scalar) :
    (find? k (merge base later)).isNone = ((find? k base).isNone && (find? k later).isNone) := by
  rw [find?_merge hlater]
  cases find? k later <;> cases find? k base <;> rfl

/-- Merges of three can be taken in either order if those of the values under each key of all three can. -/
theorem merge_assoc_of_values (ha : Distinct a) (hb : Distinct b) (hc : Distinct c)
    (h : ∀ p ∈ a, ∀ v w, find? p.1 b = some v → find? p.1 c = some w →
      mergeValue (some (mergeValue (some p.2) v)) w = mergeValue (some p.2) (mergeValue (some v) w)) :
    merge (merge a b) c = merge a (merge b c) := by
  have hvalues : ∀ p ∈ a, overlay (overlay p.2 (find? p.1 b)) (find? p.1 c) = overlay p.2 (find? p.1 (merge b c)) := by
    intro p hp
    rw [find?_merge hc]
    cases hv : find? p.1 b with
    | none =>
      cases find? p.1 c with
      | none => rfl
      | some w => exact congrArg (mergeValue (some p.2)) (mergeValue_none w).symm
    | some v =>
      cases hw : find? p.1 c with
      | none => rfl
      | some w => exact h p hp v w hv hw
  have hplaced : ((a.map fun p => (p.1, overlay p.2 (find? p.1 b))).map fun p => (p.1, overlay p.2 (find? p.1 c))) =
      a.map fun p => (p.1, overlay p.2 (find? p.1 (merge b c))) := by
    rw [List.map_map]
    exact List.map_congr_left fun p hp => congrArg (Prod.mk p.1) (hvalues p hp)
  have hfirst : ((b.map fun p => (p.1, overlay p.2 (find? p.1 c))).filter fun p => (find? p.1 a).isNone) =
      (b.filter fun p => (find? p.1 a).isNone).map fun p => (p.1, overlay p.2 (find? p.1 c)) := List.filter_map
  have hnew : (c.filter fun p => (find? p.1 (merge a b)).isNone) =
      (c.filter fun p => (find? p.1 b).isNone).filter fun p => (find? p.1 a).isNone := by
    rw [List.filter_filter]
    exact List.filter_congr fun p _ => find?_merge_isNone hb p.1
  -- the entries of the first one in their places, then those that are new in the second, and those new in the third
  rw [merge_eq_append (distinct_merge ha hb) hc, hnew, merge_eq_append ha hb, List.map_append, hplaced, ← hfirst,
    merge_eq_append ha (distinct_merge hb hc), merge_eq_append hb hc, List.filter_append, List.append_assoc]

/-- A value that comes between two mappings under a key of all three comes between the three. -/
theorem between_of_find? {p : Scalar × Datum} {v w : Datum} (ha : Distinct a) (hp : p ∈ a) (hv : find? p.1 b = some v)
    (hw : find? p.1 c = some w) (h : Between p.2 v w) : Between (.map a) (.map b) (.map c) := by
  have hu : find? p.1 a = some p.2 := by
    obtain ⟨q, -, hq, -⟩ := exists_mem_of_find? hv
    exact find?_of_mem ha hp (Scalar.same_trans (Scalar.same_symm hq) hq)
  obtain ⟨path, u', v', w', hu', hu'map, hv', hv'leaf, hw', hw'map⟩ := h
  refine ⟨p.1 :: path, u', v', w', ?_, hu'map, ?_, hv'leaf, ?_, hw'map⟩
  · rw [at?_map_cons, hu, Option.bind_some, hu']
  · rw [at?_map_cons, hv, Option.bind_some, hv']
  · rw [at?_map_cons, hw, Option.bind_some, hw']

/-- Values can be merged in either order if nothing comes between two mappings. -/
theorem mergeValue_assoc {u v w : Datum} (hu : Tidy u) (hv : Tidy v) (hw : Tidy w) (h : ¬ Between u v w) :
    mergeValue (some (mergeValue (some u) v)) w = mergeValue (some u) (mergeValue (some v) w) := by
  induction hw generalizing u v with
  | leaf hleaf => rw [mergeValue_of_leaf _ hleaf, mergeValue_of_leaf _ hleaf, mergeValue_of_leaf _ hleaf]
  | @map c hc hcvalues ih =>
    cases hv with
    | leaf hleaf =>
      have humap : u.isMap = false := by
        rw [← Bool.not_eq_true]
        exact fun humap => h ⟨[], u, v, _, at?_nil u, humap, at?_nil v, hleaf, at?_nil _, rfl⟩
      rw [mergeValue_of_leaf _ hleaf, mergeValue_over_leaf hleaf, mergeValue_over_leaf humap]
    | @map b hb hbvalues =>
      rw [mergeValue_map]
      cases hu with
      | leaf hleaf => rw [mergeValue_over_leaf hleaf, mergeValue_over_leaf hleaf, mergeValue_map]
      | @map a ha havalues =>
        rw [mergeValue_map, mergeValue_map, mergeValue_map, merge_assoc_of_values ha hb hc]
        intro p hp v w hv hw
        obtain ⟨q, hq, -, rfl⟩ := exists_mem_of_find? hw
        exact ih q hq (havalues p hp) ((Tidy.map hb hbvalues).of_find? hv)
          fun hbetween => h (between_of_find? ha hp hv hw hbetween)

theorem merge_assoc (ha : Tidy (.map a)) (hb : Tidy (.map b)) (hc : Tidy (.map c))
    (h : ¬ Between (.map a) (.map b) (.map c)) : merge (merge a b) c = merge a (merge b c) := by
  have hvalues := mergeValue_assoc ha hb hc h
  rw [mergeValue_map, mergeValue_map, mergeValue_map, mergeValue_map] at hvalues
  exact Datum.map.inj hvalues

/-- A number between two mappings is gone if it is merged with the second one first. -/
example :
    let a := [(.text "k", .map [(.text "x", .int 1)])]
    let b := [(.text "k", .int 0)]
    let c := [(.text "k", .map [(.text "y", .int 2)])]
    merge (merge a b) c = [(.text "k", .map [(.text "y", .int 2)])] ∧
      merge a (merge b c) = [(.text "k", .map [(.text "x", .int 1), (.text "y", .int 2)])] :=
  ⟨rfl, rfl⟩

/-- The leaves of a merge are those of the second mapping and what of the first it leaves uncovered, the keys are
those of the first one before the new ones, and a third mapping can be merged in either order. -/
theorem merge_law (ha : Tidy (.map a)) (hb : Tidy (.map b)) (hc : Tidy (.map c)) :
    (∀ path v, LeafAt (.map (merge a b)) path v ↔
      LeafAt (.map b) path v ∨ LeafAt (.map a) path v ∧ (Datum.map b).Vacant path) ∧
    (merge a b).map Prod.fst = a.map Prod.fst ++ (b.map Prod.fst).filter (fun k => (find? k a).isNone) ∧
    (¬ Between (.map a) (.map b) (.map c) → merge (merge a b) c = merge a (merge b c)) :=
  ⟨fun _ _ => leafAt_merge_iff hb, keys_merge ha.distinct hb.distinct, merge_assoc ha hb hc⟩

/-- A mapping with a mapping in it, one that changes a value of it, and one that puts a number in its place. -/
theorem merge_law_nested :
    let a := [(.text "a", .map [(.text "x", .int 1), (.text "y", .int 2)]), (.text "b", .int 1)]
    let b := [(.text "a", .map [(.text "y", .int 3)]), (.text "c", .int 4)]
    let c := [(.text "a", .int 5)]
    Tidy (.map a) ∧ Tidy (.map b) ∧ Tidy (.map c) ∧
      merge a b = [(.text "a", .map [(.text "x", .int 1), (.text "y", .int 3)]), (.text "b", .int 1),
        (.text "c", .int 4)] ∧
      LeafAt (.map (merge a b)) [.text "a", .text "x"] (.int 1) ∧
      (merge a b).map Prod.fst = [.text "a", .text "b", .text "c"] ∧
      merge (merge a b) c = merge a (merge b c) := by
  intro a b c
  have hnumber : ∀ i, Tidy (.int i) := fun i => .leaf rfl
  have ha : Tidy (.map a) := by
    refine .map (by decide) (List.forall_mem_cons.2 ⟨.map (by decide) ?_, List.forall_mem_singleton.2 (hnumber 1)⟩)
    exact List.forall_mem_cons.2 ⟨hnumber 1, List.forall_mem_singleton.2 (hnumber 2)⟩
  have hb : Tidy (.map b) := by
    refine .map (by decide) (List.forall_mem_cons.2 ⟨.map (by decide) ?_, List.forall_mem_singleton.2 (hnumber 4)⟩)
    exact List.forall_mem_singleton.2 (hnumber 3)
  have hc : Tidy (.map c) := .map (by decide) (List.forall_mem_singleton.2 (hnumber 5))
  obtain ⟨hleaves, hkeys, hassoc⟩ := merge_law ha hb hc
  refine ⟨ha, hb, hc, ?_, ?_, ?_, hassoc ?_⟩
  · rfl
  · refine (hleaves _ _).2 (Or.inr ⟨⟨rfl, rfl⟩, vacant_cons_iff.2 fun d hd => ?_⟩)
    obtain rfl := Option.some.inj hd
    exact vacant_cons_iff.2 fun d hd => nomatch hd
  · exact hkeys
  · rintro ⟨path, u, v, w, -, -, hv, hleaf, hw, hmap⟩
    cases path with
    | nil =>
      cases hv
      exact nomatch hleaf
    | cons k path =>
      -- the third one has no mapping in it
      obtain ⟨d, hd, hat⟩ := Option.bind_eq_some_iff.1 ((at?_map_cons c k path).symm.trans hw)
      obtain ⟨p, hp, -, rfl⟩ := exists_mem_of_find? hd
      obtain rfl := List.mem_singleton.1 hp
      cases path with
      | nil =>
        cases hat
        exact nomatch hmap
      | cons j path => exact nomatch (at?_cons_of_leaf rfl j path).symm.trans hat

end Config

end Stencil
