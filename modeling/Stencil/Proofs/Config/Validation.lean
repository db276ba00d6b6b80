import Stencil.Proofs.Config.Precedence

/-!
# Which options are accepted

An option is set to what is made of a value, and all others keep what they have (`set_eq_ok_iff`); what is made of
the value does not depend on the settings. So settings that are read from options hold each of them, and where an
option is not given they have what it is otherwise (`settings_eq_ok_iff`). Options are accepted if they have the names
of options, if the root is given and if each value is accepted alone (`exists_settings_iff`).
-/

namespace Stencil.Config

namespace Settings

variable {env : Surroundings} {s s' : Settings} {f g : Field} {v : Datum}

/-- Settings are known by the values of their options. -/
theorem ext_get (h : ∀ f, s.get f = s'.get f) : s = s' := by
  have htext : ∀ {a b : String}, Datum.text a = .text b → a = b := fun h => Scalar.text.inj (Datum.scalar.inj h)
  have hbool : ∀ {a b : Bool}, Datum.bool a = .bool b → a = b := fun h => Scalar.bool.inj (Datum.scalar.inj h)
  have hinterval : s.watchInterval = s'.watchInterval := Scalar.float.inj (Datum.scalar.inj (h .watchInterval))
  have hlevel : s.logLevel = s'.logLevel := by
    have hlabel := htext (h .logLevel)
    cases hs : s.logLevel <;> cases hs' : s'.logLevel <;> simp_all [Level.label]
  have hfile : s.logFile = s'.logFile := by
    have hvalue : (s.logFile.map Datum.text).getD .null = (s'.logFile.map Datum.text).getD .null := h .logFile
    revert hvalue
    cases s.logFile <;> cases s'.logFile <;> intro hvalue
    · rfl
    · exact nomatch Datum.scalar.inj hvalue
    · exact nomatch Datum.scalar.inj hvalue
    · exact congrArg some (htext hvalue)
  have hroot := htext (h .root)
  have hcompress := hbool (h .compress)
  have hwatch := hbool (h .watch)
  have hprecompile := hbool (h .precompile)
  have hlog := hbool (h .log)
  have hstructured := hbool (h .structuredLogging)
  cases s
  cases s'
  simp only [Settings.mk.injEq]
  exact ⟨hroot, hcompress, hwatch, hinterval, hprecompile, hlog, hlevel, hfile, hstructured⟩

/-- The settings have what an option is set to by a value. -/
def Holds (env : Surroundings) (s : Settings) (f : Field) (v : Datum) : Prop := s.set env f v = .ok (.ok s)

/-- A value that is accepted makes the same of its option in all settings, and leaves the others. -/
theorem exists_put_of_map {α : Type} {x : Except Complaint α} {mk : Settings → α → Settings}
    (hset : ∀ r : Settings, r.set env f v = .ok (x.map (mk r))) (h : s.set env f v = .ok (.ok s'))
    (hsame : ∀ r r' a, (mk r a).get f = (mk r' a).get f) (hother : ∀ r a g, g ≠ f → (mk r a).get g = r.get g) :
    ∃ put : Settings → Settings, (∀ r : Settings, r.set env f v = .ok (.ok (put r))) ∧ put s = s' ∧
      (∀ r r', (put r).get f = (put r').get f) ∧ ∀ r g, g ≠ f → (put r).get g = r.get g := by
  cases x with
  | error c =>
    rw [hset] at h
    exact nomatch Except.ok.inj h
  | ok a =>
    refine ⟨fun r => mk r a, hset, ?_, fun r r' => hsame r r' a, fun r => hother r a⟩
    rw [hset] at h
    exact Except.ok.inj (Except.ok.inj h)

theorem exists_put (h : s.set env f v = .ok (.ok s')) :
    ∃ put : Settings → Settings, (∀ r : Settings, r.set env f v = .ok (.ok (put r))) ∧ put s = s' ∧
      (∀ r r', (put r).get f = (put r').get f) ∧ ∀ r g, g ≠ f → (put r).get g = r.get g := by
  cases f with
  | root =>
    cases hdirectory : asDirectory env v with
    | error e => simp [set, hdirectory] at h
    | ok answer =>
      refine exists_put_of_map (fun r => by rw [set, hdirectory]) h (fun _ _ _ => rfl) ?_
      intro r a g hg
      cases g <;> first | rfl | exact absurd rfl hg
  | _ =>
    refine exists_put_of_map (fun r => rfl) h (fun _ _ _ => rfl) ?_
    intro r a g hg
    cases g <;> first | rfl | exact absurd rfl hg

/-- To set an option is to come to settings that have what its value is made into, and all else as it was. -/
theorem set_eq_ok_iff :
    s.set env f v = .ok (.ok s') ↔ s'.Holds env f v ∧ ∀ g, g ≠ f → s'.get g = s.get g := by
  constructor
  · intro h
    obtain ⟨put, hset, rfl, hsame, hother⟩ := exists_put h
    have hput : put (put s) = put s := by
      refine ext_get fun g => ?_
      by_cases hg : g = f
      · exact hg ▸ hsame (put s) s
      · exact hother (put s) g hg
    exact ⟨(hset (put s)).trans (congrArg (fun r => Except.ok (Except.ok r)) hput), hother s⟩
  · rintro ⟨hholds, hkept⟩
    obtain ⟨put, hset, hput, hsame, hother⟩ := exists_put hholds
    rw [hset s]
    refine congrArg (fun r => Except.ok (Except.ok r)) (ext_get fun g => ?_)
    by_cases hg : g = f
    · rw [hg, hsame s s', hput]
    · rw [hother s g hg, hkept g hg]

/-- Settings hold a value that others hold if they have the same of its option. -/
theorem Holds.iff_get_eq (h : s.Holds env f v) : s'.Holds env f v ↔ s'.get f = s.get f := by
  obtain ⟨put, hset, hput, hsame, hother⟩ := exists_put h
  have hholds : s'.Holds env f v ↔ put s' = s' := by
    rw [Holds, hset s', Except.ok.injEq, Except.ok.injEq]
  rw [hholds]
  constructor
  · intro hput'
    rw [← hput, ← hput']
    exact hsame _ _
  · intro hget
    refine ext_get fun g => ?_
    by_cases hg : g = f
    · rw [hg, hsame s' s, hput, hget]
    · exact hother s' g hg

/-- A value is accepted for an option. -/
def Accepted (env : Surroundings) (f : Field) (v : Datum) : Prop := ∃ s s' : Settings, s.set env f v = .ok (.ok s')

theorem Accepted.exists_set (h : Accepted env f v) (s : Settings) : ∃ s', s.set env f v = .ok (.ok s') := by
  obtain ⟨r, r', hr⟩ := h
  obtain ⟨put, hset, -⟩ := exists_put hr
  exact ⟨put s, hset s⟩

/-- What an option is read as: what is made of its value, and without a value what it is otherwise, if it may be
left out. -/
def Reads (env : Surroundings) (given : List (Scalar × Datum)) (s s' : Settings) (f : Field) : Prop :=
  match Datum.field? f.label given with
  | none => f ≠ .root ∧ s'.get f = s.get f
  | some v => s'.Holds env f v

theorem reads_of_some {given : List (Scalar × Datum)} (h : Datum.field? f.label given = some v) :
    Reads env given s s' f ↔ s'.Holds env f v := by
  unfold Reads
  rw [h]

theorem reads_of_none {given : List (Scalar × Datum)} (h : Datum.field? f.label given = none) :
    Reads env given s s' f ↔ f ≠ .root ∧ s'.get f = s.get f := by
  unfold Reads
  rw [h]

theorem Reads.congr {given : List (Scalar × Datum)} {r : Settings} (h : s.get f = r.get f) :
    Reads env given s s' f ↔ Reads env given r s' f := by
  unfold Reads
  rw [h]

theorem forall_not_mem_iff {rest : List Field} (hf : f ∉ rest) {p : Field → Prop} :
    (∀ g, g ∉ rest → p g) ↔ p f ∧ ∀ g, g ∉ f :: rest → p g := by
  constructor
  · exact fun h => ⟨h f hf, fun g hg => h g fun hmem => hg (List.mem_cons_of_mem f hmem)⟩
  · rintro ⟨hp, hrest⟩ g hg
    by_cases heq : g = f
    · exact heq ▸ hp
    · exact hrest g (List.not_mem_cons_of_ne_of_not_mem heq hg)

/-- The options that are left are read over the ones that are set as they are over those before. -/
theorem reads_of_set {given : List (Scalar × Datum)} {r : Settings} {rest : List Field} (hf : f ∉ rest)
    (hset : s.set env f v = .ok (.ok r)) :
    ((∀ g ∈ rest, Reads env given r s' g) ∧ ∀ g, g ∉ rest → s'.get g = r.get g) ↔
      (s'.Holds env f v ∧ ∀ g ∈ rest, Reads env given s s' g) ∧ ∀ g, g ∉ f :: rest → s'.get g = s.get g := by
  obtain ⟨hholds, hkept⟩ := set_eq_ok_iff.1 hset
  have hne : ∀ g ∈ rest, g ≠ f := fun g hg heq => hf (heq ▸ hg)
  have hothers : (∀ g ∈ rest, Reads env given r s' g) ↔ ∀ g ∈ rest, Reads env given s s' g :=
    forall₂_congr fun g hg => Reads.congr (hkept g (hne g hg))
  have hleft : (∀ g, g ∉ f :: rest → s'.get g = r.get g) ↔ ∀ g, g ∉ f :: rest → s'.get g = s.get g :=
    forall₂_congr fun g hg => by rw [hkept g fun heq => hg (heq ▸ List.mem_cons_self)]
  rw [forall_not_mem_iff hf, hothers, hleft, ← hholds.iff_get_eq]
  tauto

/-- Options are read without a problem exactly as each of them is read alone. -/
theorem readFields_eq_ok_iff {given : List (Scalar × Datum)} {fields : List Field} (hfields : fields.Nodup)
    {problems : List Problem} : readFields env given fields s problems = .ok (s', []) ↔
      problems = [] ∧ (∀ f ∈ fields, Reads env given s s' f) ∧ ∀ f, f ∉ fields → s'.get f = s.get f := by
  induction fields generalizing s problems with
  | nil =>
    simp only [readFields, Except.ok.injEq, Prod.mk.injEq]
    constructor
    · rintro ⟨rfl, rfl⟩
      exact ⟨rfl, fun f hf => absurd hf List.not_mem_nil, fun f _ => rfl⟩
    · rintro ⟨rfl, -, hsame⟩
      exact ⟨(ext_get fun f => hsame f List.not_mem_nil).symm, rfl⟩
  | cons f rest ih =>
    obtain ⟨hf, hrest⟩ := List.nodup_cons.1 hfields
    rw [readFields, List.forall_mem_cons]
    cases hgiven : Datum.field? f.label given with
    | none =>
      have hmissing : problems ++ (if f = .root then [⟨f.label, .missing⟩] else []) = [] ↔
          problems = [] ∧ f ≠ .root := by
        by_cases hroot : f = .root <;> simp [hroot]
      dsimp only
      rw [ih hrest, reads_of_none hgiven, hmissing, forall_not_mem_iff hf]
      tauto
    | some v =>
      dsimp only
      rw [reads_of_some hgiven]
      cases hset : s.set env f v with
      | error e =>
        -- a value that some settings hold is accepted
        refine iff_of_false (by rintro ⟨⟩) fun h => ?_
        obtain ⟨r, hr⟩ := Accepted.exists_set ⟨s', s', h.2.1.1⟩ s
        cases hset.symm.trans hr
      | ok answer =>
        cases answer with
        | error c =>
          dsimp only
          rw [ih hrest]
          refine iff_of_false (fun h => by simp at h) fun h => ?_
          obtain ⟨r, hr⟩ := Accepted.exists_set ⟨s', s', h.2.1.1⟩ s
          cases hset.symm.trans hr
        | ok r =>
          dsimp only
          rw [ih hrest, reads_of_set hf hset]

theorem exists_readFields {given : List (Scalar × Datum)} {fields : List Field}
    (hroot : .root ∈ fields → (Datum.field? Field.root.label given).isSome)
    (h : ∀ f v, Datum.field? f.label given = some v → Accepted env f v) :
    ∃ s', readFields env given fields s [] = .ok (s', []) := by
  induction fields generalizing s with
  | nil => exact ⟨s, rfl⟩
  | cons f rest ih =>
    have hrest : .root ∈ rest → (Datum.field? Field.root.label given).isSome :=
      fun hmem => hroot (List.mem_cons_of_mem f hmem)
    rw [readFields]
    cases hgiven : Datum.field? f.label given with
    | none =>
      have hne : f ≠ .root := by
        rintro rfl
        have := hroot List.mem_cons_self
        rw [hgiven] at this
        cases this
      dsimp only
      rw [if_neg hne]
      exact ih hrest
    | some v =>
      obtain ⟨r, hr⟩ := (h f v hgiven).exists_set s
      dsimp only
      rw [hr]
      exact ih hrest

theorem read_eq_ok_iff {given : List (Scalar × Datum)} : read env given = .ok (.ok s) ↔
    readFields env given Field.all { root := "" } [] = .ok (s, []) ∧ unknownNames given = [] := by
  unfold read
  cases readFields env given Field.all { root := "" } [] with
  | error e => exact iff_of_false (fun h => nomatch h) fun h => nomatch h.1
  | ok p =>
    obtain ⟨r, problems⟩ := p
    simp only [bind, Except.bind, Except.ok.injEq, Prod.mk.injEq]
    split
    · next hnone =>
      obtain ⟨hproblems, hunknown⟩ := List.append_eq_nil_iff.1 hnone
      simp [pure, Except.pure, hproblems, List.map_eq_nil_iff.1 hunknown]
    · next hsome =>
      refine iff_of_false (fun h => by simp [pure, Except.pure] at h) ?_
      rintro ⟨⟨-, hproblems⟩, hunknown⟩
      exact hsome (by rw [hproblems, hunknown]; rfl)

end Settings

open Datum

variable {env : Surroundings} {options : List (Scalar × Datum)} {s : Settings}

theorem label_injective {f g : Field} (h : f.label = g.label) : f = g :=
  Option.some.inj ((ofLabel?_label f).symm.trans (h ▸ ofLabel?_label g))

/-- All options have names of options. -/
def Known (options : List (Scalar × Datum)) : Prop := ∀ p ∈ options, ∃ f : Field, p.1 = .text f.label

theorem known_iff : Known options ↔ Named options ∧ Settings.unknownNames options = [] := by
  constructor
  · intro h
    refine ⟨fun p hp => let ⟨f, hf⟩ := h p hp; ⟨f.label, hf⟩, List.filterMap_eq_nil_iff.2 fun p hp => ?_⟩
    obtain ⟨f, hf⟩ := h p hp
    simp [hf, ofLabel?_label]
  · rintro ⟨hnamed, hunknown⟩ ⟨k, v⟩ hp
    obtain ⟨name, rfl⟩ := hnamed _ hp
    have hnone := List.filterMap_eq_nil_iff.1 hunknown _ hp
    cases hlabel : Field.ofLabel? name with
    | none => simp [hlabel] at hnone
    | some f => exact ⟨f, congrArg Scalar.text (label_of_ofLabel? hlabel).symm⟩

theorem settings_eq_ok_iff_read :
    settings env options = .ok s ↔ Named options ∧ Settings.read env options = .ok (.ok s) := by
  rcases settings_eq env options with ⟨hnamed, heq⟩ | ⟨hnamed, heq⟩
  · rw [heq, and_iff_right hnamed]
    cases Settings.read env options with
    | error e => simp
    | ok answer => cases answer <;> simp
  · rw [heq]
    exact iff_of_false (fun h => nomatch h) fun h => hnamed h.1

theorem nodup_all : Field.all.Nodup := by decide

theorem mem_all (f : Field) : f ∈ Field.all := by cases f <;> decide

/-- Settings are read from options if all are known and each is read alone. -/
theorem settings_eq_ok_iff : settings env options = .ok s ↔
    Known options ∧ ∀ f, Settings.Reads env options { root := "" } s f := by
  have hall : (∀ f ∈ Field.all, Settings.Reads env options { root := "" } s f) ↔
      ∀ f, Settings.Reads env options { root := "" } s f := forall_congr' fun f => imp_iff_right (mem_all f)
  rw [settings_eq_ok_iff_read, Settings.read_eq_ok_iff, Settings.readFields_eq_ok_iff nodup_all, hall, known_iff]
  have hnone : ∀ f, f ∉ Field.all → s.get f = ({ root := "" } : Settings).get f := fun f hf => absurd (mem_all f) hf
  tauto

/-- Options are accepted if all are known, the root is given, and each value is accepted alone. -/
theorem exists_settings_iff : (∃ s, settings env options = .ok s) ↔
    Known options ∧ (field? "root" options).isSome ∧
      ∀ f v, field? f.label options = some v → Settings.Accepted env f v := by
  constructor
  · rintro ⟨s, hs⟩
    obtain ⟨hknown, hreads⟩ := settings_eq_ok_iff.1 hs
    refine ⟨hknown, ?_, fun f v hv => ?_⟩
    · cases hgiven : field? Field.root.label options with
      | none => exact absurd rfl ((Settings.reads_of_none hgiven).1 (hreads .root)).1
      | some v => exact Option.isSome_of_mem hgiven
    · exact ⟨s, s, (Settings.reads_of_some hv).1 (hreads f)⟩
  · rintro ⟨hknown, hroot, haccepted⟩
    obtain ⟨hnamed, hunknown⟩ := known_iff.1 hknown
    obtain ⟨s, hs⟩ := Settings.exists_readFields (fun _ => hroot) haccepted
    exact ⟨s, settings_eq_ok_iff_read.2 ⟨hnamed, Settings.read_eq_ok_iff.2 ⟨hs, hunknown⟩⟩⟩

end Stencil.Config
