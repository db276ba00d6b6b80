import Stencil.Proofs.Config.Merge
import Stencil.Proofs.Config.Reports
import Stencil.Proofs.Text.Find

/-!
# Which source an option comes from

The options that a configuration is read from are those of a file with those of the environment set over them, and
over both the ones of a caller (`together`). Variables of different names can set the same option, since the case of
their letters does not count, so the environment is read as the last of them (`find?_ofVariables`). Where no value of
the caller is a mapping, no values are mixed: under each key stands what the caller gives, if that is something, else
what the environment says, and else what the file has (`find?_together`). There are no other keys
(`mem_keys_together`), and loading a configuration reads exactly these options (`load_precedence`).
-/

namespace Stencil.Config

open Datum

variable {stem : String} {environment : List (String × String)} {base later options : List (Scalar × Datum)}
  {k : Scalar}

/-! ### What the environment says -/

/-- Whether a variable sets an option: its name starts with the stem, and the rest of it in lower case is the
option's. -/
def sets (stem name option : String) : Bool :=
  stem.toList.isPrefixOf name.toList &&
    Text.toLower (String.ofList (name.toList.drop stem.toList.length)) == option

/-- The value of the last of the variables that set an option. -/
def lastSetting? (stem : String) (environment : List (String × String)) (option : String) : Option String :=
  (environment.reverse.find? fun p => sets stem p.1 option).map Prod.snd

/-- What the environment says under a key, which has to be the name of an option. -/
def setting? (stem : String) (environment : List (String × String)) : Scalar → Option Datum
  | .text option =>
    if (Field.ofLabel? option).isSome then (lastSetting? stem environment option).map .text else none
  | _ => none

/-- The option that a variable sets, if it sets one. -/
def optionOf? (stem : String) (p : String × String) : Option (Scalar × Datum) := do
  let rest ← Text.dropPrefix? stem.toList p.1.toList
  let field ← Field.ofLabel? (Text.toLower (String.ofList rest))
  return (.text field.label, .text p.2)

theorem ofVariables_eq (stem : String) (environment : List (String × String)) :
    ofVariables stem environment = ofEntries (environment.filterMap (optionOf? stem)) := rfl

theorem ofLabel?_label (field : Field) : Field.ofLabel? field.label = some field := by
  cases field <;> decide

theorem label_of_ofLabel? {name : String} {field : Field} (h : Field.ofLabel? name = some field) :
    field.label = name := by
  rw [Field.ofLabel?, List.find?_eq_some_iff_append] at h
  exact beq_iff_eq.1 h.1

theorem sets_iff {name option : String} :
    sets stem name option = true ↔ ∃ rest, name.toList = stem.toList ++ rest ∧
      Text.toLower (String.ofList rest) = option := by
  rw [sets, Bool.and_eq_true, List.isPrefixOf_iff_prefix, beq_iff_eq]
  constructor
  · rintro ⟨⟨rest, hname⟩, hlower⟩
    rw [← hname, List.drop_left] at hlower
    exact ⟨rest, hname.symm, hlower⟩
  · rintro ⟨rest, hname, hlower⟩
    rw [hname, List.drop_left]
    exact ⟨List.prefix_append stem.toList rest, hlower⟩

/-- A variable sets one option at most. -/
theorem sets_unique {name a b : String} (ha : sets stem name a = true) (hb : sets stem name b = true) : a = b := by
  rw [sets, Bool.and_eq_true, beq_iff_eq] at ha hb
  exact ha.2.symm.trans hb.2

theorem optionOf?_eq_some_iff {p : String × String} {q : Scalar × Datum} :
    optionOf? stem p = some q ↔
      ∃ field : Field, sets stem p.1 field.label = true ∧ q = (.text field.label, .text p.2) := by
  simp only [optionOf?, sets_iff, Option.bind_eq_bind, Option.bind_eq_some_iff, Option.pure_def, Option.some.injEq,
    Text.dropPrefix?_eq_some_iff]
  constructor
  · rintro ⟨rest, hname, field, hfield, rfl⟩
    exact ⟨field, ⟨rest, hname, (label_of_ofLabel? hfield).symm⟩, rfl⟩
  · rintro ⟨field, ⟨rest, hname, hlower⟩, rfl⟩
    exact ⟨rest, hname, field, hlower ▸ ofLabel?_label field, rfl⟩

/-- A variable that sets the option gives it under its name, and any other one something else or nothing. -/
theorem find?_optionOf_cons (field : Field) (p : String × String) (environment : List (String × String)) :
    find? (.text field.label) ((p :: environment).filterMap (optionOf? stem)) =
      if sets stem p.1 field.label then some (.text p.2)
      else find? (.text field.label) (environment.filterMap (optionOf? stem)) := by
  rw [List.filterMap_cons]
  cases hq : optionOf? stem p with
  | none =>
    have hno : ¬ sets stem p.1 field.label = true := fun h => by simp [optionOf?_eq_some_iff.2 ⟨field, h, rfl⟩] at hq
    rw [if_neg hno]
  | some q =>
    obtain ⟨other, hsets, rfl⟩ := optionOf?_eq_some_iff.1 hq
    have hsame : (Scalar.text other.label).same (.text field.label) = true ↔ sets stem p.1 field.label = true := by
      rw [Scalar.text_same_iff, Scalar.text.injEq]
      exact ⟨fun h => h ▸ hsets, fun h => sets_unique h hsets⟩
    simp only [find?_cons, hsame]

/-- Under each key the environment has what the last variable says that sets the option. -/
theorem find?_ofVariables (stem : String) (environment : List (String × String)) (k : Scalar) :
    find? k (ofVariables stem environment) = setting? stem environment k := by
  have hother : (∀ field : Field, k ≠ .text field.label) →
      find? k (environment.reverse.filterMap (optionOf? stem)) = none := by
    intro hk
    refine find?_eq_none_iff.2 fun q hq => ?_
    obtain ⟨p, -, hp⟩ := List.mem_filterMap.1 hq
    obtain ⟨field, -, rfl⟩ := optionOf?_eq_some_iff.1 hp
    rw [← Bool.not_eq_true, Scalar.text_same_iff]
    exact hk field
  rw [ofVariables_eq, find?_ofEntries, ← List.filterMap_reverse]
  cases k with
  | text option =>
    rw [setting?]
    cases hfield : Field.ofLabel? option with
    | none =>
      refine hother fun field hk => ?_
      rw [Scalar.text.inj hk, ofLabel?_label] at hfield
      exact nomatch hfield
    | some field =>
      obtain rfl := label_of_ofLabel? hfield
      rw [Option.isSome_some, if_pos rfl, lastSetting?]
      induction environment.reverse with
      | nil => rfl
      | cons p rest ih =>
        rw [find?_optionOf_cons, List.find?_cons, ih]
        cases sets stem p.1 field.label <;> rfl
  | _ => exact hother fun field hk => nomatch hk

theorem distinct_ofVariables (stem : String) (environment : List (String × String)) :
    Distinct (ofVariables stem environment) :=
  distinct_ofEntries _

theorem setting?_of_mem {p : Scalar × Datum} (h : p ∈ ofVariables stem environment) :
    setting? stem environment p.1 = some p.2 := by
  obtain ⟨name, hname⟩ := named_ofVariables stem environment p h
  rw [← find?_ofVariables]
  exact find?_of_mem (distinct_ofVariables stem environment) h (hname ▸ Scalar.text_same_iff.2 rfl)

/-- The environment says texts, which are no mappings. -/
theorem isMap_of_setting? {v : Datum} (h : setting? stem environment k = some v) : v.isMap = false := by
  unfold setting? at h
  split at h
  · split at h
    · obtain ⟨s, -, rfl⟩ := Option.map_eq_some_iff.1 h
      rfl
    · exact nomatch h
  · exact nomatch h

/-! ### Sources set over each other -/

/-- Values that are no mappings take the place of what was there. -/
theorem find?_merge_of_leaves (hlater : Distinct later) (hleaves : ∀ p ∈ later, p.2.isMap = false) (k : Scalar) :
    find? k (merge base later) = (find? k later).or (find? k base) := by
  rw [find?_merge hlater]
  cases hv : find? k later with
  | none => rfl
  | some v =>
    obtain ⟨p, hp, -, rfl⟩ := exists_mem_of_find? hv
    rw [Option.map_some, mergeValue_of_leaf _ (hleaves p hp)]

theorem mem_keys_put {j : Scalar} {v : Datum} (h : k ∈ (put j v options).map Prod.fst) :
    k ∈ options.map Prod.fst ∨ k = j := by
  obtain ⟨p, hp, rfl⟩ := List.mem_map.1 h
  rcases mem_put hp with hp | ⟨hkey | hkey, -⟩
  · exact Or.inl (List.mem_map_of_mem hp)
  · exact Or.inr hkey
  · exact Or.inl hkey

theorem mem_keys_merge (h : k ∈ (merge base later).map Prod.fst) :
    k ∈ base.map Prod.fst ∨ k ∈ later.map Prod.fst := by
  induction later generalizing base with
  | nil =>
    rw [merge] at h
    exact Or.inl h
  | cons q later ih =>
    rw [merge] at h
    rw [List.map_cons, List.mem_cons]
    rcases ih h with h | h
    · exact (mem_keys_put h).imp_right Or.inl
    · exact Or.inr (Or.inr h)

/-- Whether a value is something. -/
def isGiven : Datum → Bool
  | .null => false
  | _ => true

theorem together_eq (env : Surroundings) (stem : String) (options later : List (Scalar × Datum)) :
    together env stem options later =
      merge (merge options (ofVariables stem env.environment)) (later.filter fun p => isGiven p.2) := rfl

/-- What stands under a key: what the caller gives, if that is something, else what the environment says, and else
what the file has. -/
def prevailing? (stem : String) (environment : List (String × String)) (options later : List (Scalar × Datum))
    (k : Scalar) : Option Datum :=
  ((find? k later).filter isGiven).or ((setting? stem environment k).or (find? k options))

theorem find?_together (env : Surroundings) (hlater : Distinct later) (hleaves : ∀ p ∈ later, p.2.isMap = false)
    (k : Scalar) :
    find? k (together env stem options later) = prevailing? stem env.environment options later k := by
  have hgiven : ∀ p ∈ later.filter fun p => isGiven p.2, p.2.isMap = false :=
    fun p hp => hleaves p (List.mem_of_mem_filter hp)
  rw [together_eq, find?_merge_of_leaves (hlater.sublist List.filter_sublist) hgiven,
    find?_merge_of_leaves (distinct_ofVariables _ _) fun p hp => isMap_of_setting? (setting?_of_mem hp),
    find?_filter hlater, find?_ofVariables, prevailing?]

/-- There are no keys but those of the file, those that the environment sets and those that the caller gives. -/
theorem mem_keys_together {env : Surroundings} (h : k ∈ (together env stem options later).map Prod.fst) :
    k ∈ options.map Prod.fst ∨ (setting? stem env.environment k).isSome = true ∨
      ∃ v, (k, v) ∈ later ∧ isGiven v = true := by
  rw [together_eq] at h
  rcases mem_keys_merge h with h | h
  · refine (mem_keys_merge h).imp_right fun h => Or.inl ?_
    obtain ⟨p, hp, rfl⟩ := List.mem_map.1 h
    rw [setting?_of_mem hp, Option.isSome_some]
  · obtain ⟨p, hp, rfl⟩ := List.mem_map.1 h
    exact Or.inr (Or.inr ⟨p.2, List.mem_filter.1 hp⟩)

/-- The options that a configuration is read from have under each key what the caller gives, if that is something,
else what the last variable says that sets the option of that name, and else what the file has; and no other keys. -/
theorem load_precedence {env : Surroundings} {file : Option String} (hfile : fileOptions env file = .ok options)
    (hlater : Distinct later) (hleaves : ∀ p ∈ later, p.2.isMap = false) :
    load env file stem later = settings env (together env stem options later) ∧
      (∀ k, find? k (together env stem options later) = prevailing? stem env.environment options later k) ∧
      ∀ k ∈ (together env stem options later).map Prod.fst,
        k ∈ options.map Prod.fst ∨ (setting? stem env.environment k).isSome = true ∨
          ∃ v, (k, v) ∈ later ∧ isGiven v = true := by
  refine ⟨?_, find?_together env hlater hleaves, fun k => mem_keys_together⟩
  rw [load_eq, hfile]
  rfl

/-- Two variables that set the same option, and one whose option the caller gives, over a file with another one. -/
theorem load_precedence_variables :
    let said : List UInt8 := "\x7b\"log\": true\x7d".toList.map fun c => c.toNat.toUInt8
    let env := { holding said with
      environment := [("TEMPLATE_COMPILER_WATCH", "true"), ("TEMPLATE_COMPILER_Watch", "false"),
        ("TEMPLATE_COMPILER_LOG_LEVEL", "debug")] }
    let options := [(.text "log", .bool true)]
    let later := [(.text "log", .null), (.text "log_level", .text "info")]
    fileOptions env (some "c.json") = .ok options ∧ Distinct later ∧ (∀ p ∈ later, p.2.isMap = false) ∧
      load env (some "c.json") variableStem later = settings env (together env variableStem options later) ∧
      find? (.text "log") (together env variableStem options later) = some (.bool true) ∧
      find? (.text "watch") (together env variableStem options later) = some (.text "false") ∧
      find? (.text "log_level") (together env variableStem options later) = some (.text "info") := by
  intro said env options later
  have hfile : fileOptions env (some "c.json") = .ok options := by
    have hpath : expandPath env "c.json" = .ok "c.json" := rfl
    have hread : env.tree.read (env.absolute "c.json") = .ok said := read_holding said
    have hdecode : Text.decode said = .ok "\x7b\"log\": true\x7d" := rfl
    have htext : ofText "c.json" ".json" "\x7b\"log\": true\x7d" = .ok options := by cbv
    rw [fileOptions, if_neg (by decide), ofFile_of_read hpath hread, hdecode]
    exact htext
  have hlater : Distinct later := by decide
  have hleaves : ∀ p ∈ later, p.2.isMap = false := by decide
  obtain ⟨hload, hfound, -⟩ := load_precedence hfile hlater hleaves
  refine ⟨hfile, hlater, hleaves, hload, (hfound _).trans ?_, (hfound _).trans ?_, (hfound _).trans ?_⟩
  · cbv
  · cbv
  · cbv

end Stencil.Config
