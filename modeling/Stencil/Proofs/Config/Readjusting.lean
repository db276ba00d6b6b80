import Stencil.Proofs.Config.Validation
import Stencil.Proofs.Files.Settling

/-!
# Settings that are adjusted

Settings are adjusted by reading all their options once more, with others set over them. What an option was read as
is read as itself (`holds_get`), so an adjustment changes what it is given and nothing else (`adjust_keeps`), with one
exception: the root is looked up again, and it is kept only if no link stands on the way to it. None does if the root
was found without meeting a circle of links; behind a circle a link may be left on the way, and an adjustment that
says nothing about the root then moves it (`root_moved`).
-/

namespace Stencil.Config

open Datum

/-- Settings that were read from options and whose options were then set, each to a value that was accepted, together
with the surroundings and the value that the root was last given in. -/
inductive Built : Surroundings → Datum → Settings → Prop
  | read {env : Surroundings} {options : List (Scalar × Datum)} {v : Datum} {s : Settings}
      (hroot : field? "root" options = some v) (h : settings env options = .ok s) : Built env v s
  | root {env₀ env : Surroundings} {v₀ v : Datum} {s s' : Settings} (hs : Built env₀ v₀ s)
      (h : s.set env .root v = .ok (.ok s')) : Built env v s'
  | field {env₀ env : Surroundings} {v₀ v : Datum} {f : Field} {s s' : Settings} (hs : Built env₀ v₀ s)
      (hf : f ≠ .root) (h : s.set env f v = .ok (.ok s')) : Built env₀ v₀ s'

/-- The path that the root is given by leads in a circle of links. -/
def GivenInCircle (env : Surroundings) (v : Datum) : Prop :=
  ∃ given, v = .text given ∧ env.tree.Circular (env.absolute (env.expandHome given))

variable {env env₀ : Surroundings} {v v₀ : Datum} {c c' s : Settings} {o : List (Scalar × Datum)} {root : String}

theorem holds_of_settings {options : List (Scalar × Datum)} {f : Field} (h : settings env options = .ok s)
    (hv : field? f.label options = some v) : s.Holds env f v :=
  (Settings.reads_of_some hv).1 ((settings_eq_ok_iff.1 h).2 f)

/-- Settings stay built when an option is changed by its name. -/
theorem Built.change {name : String} (hs : Built env₀ v₀ s) (h : s.change env name v = .ok (.ok c)) :
    Built env₀ v₀ c ∨ Built env v c := by
  unfold Settings.change at h
  split at h
  · cases h
    exact Or.inl hs
  · split at h
    · exact nomatch Except.ok.inj h
    · next f _ =>
      have hset : s.set env f v = .ok (.ok c) := by
        split at h
        · exact nomatch h
        · next answer hset =>
          cases answer with
          | error complaint => exact nomatch Except.ok.inj h
          | ok r =>
            obtain rfl : r = c := Except.ok.inj (Except.ok.inj h)
            exact hset
      by_cases hf : f = .root
      · subst hf
        exact Or.inr (.root hs hset)
      · exact Or.inl (.field hs hf hset)

/-! ### Roots -/

theorem asDirectory_text_iff {given : String} (hne : given ≠ "") : asDirectory env (.text given) = .ok (.ok root) ↔
    '\x00' ∉ (env.expandHome given).toList ∧
      root = env.tree.realPath (env.absolute (env.expandHome given)) ∧ env.tree.lookup root = .ok .directory := by
  have hempty : Datum.text given ≠ .text "" := fun h => hne (Scalar.text.inj (Datum.scalar.inj h))
  unfold asDirectory
  split
  · next h => exact nomatch Datum.scalar.inj h
  · next h => exact absurd h hempty
  · next given' _ h =>
    obtain rfl : given = given' := Scalar.text.inj (Datum.scalar.inj h)
    dsimp only
    generalize env.tree.realPath (env.absolute (env.expandHome given)) = path
    split
    · next hnull =>
      exact iff_of_false (fun h => nomatch Except.ok.inj h) fun h => h.1 (by simpa using hnull)
    · next hnull =>
      rw [and_iff_right (by simpa using hnull)]
      constructor
      · intro h
        split at h
        · exact nomatch h
        · split at h
          · next hdirectory =>
            obtain rfl : path = root := Except.ok.inj (Except.ok.inj h)
            exact ⟨rfl, Files.Tree.isDirectory_iff.1 hdirectory⟩
          · exact nomatch Except.ok.inj h
          · exact nomatch h
      · rintro ⟨rfl, hlookup⟩
        rw [hlookup, Files.Tree.isDirectory_iff.2 hlookup]
  · next hno => exact absurd rfl (hno given)

/-- A root that is accepted is a real path that leads to a directory. -/
theorem exists_text_of_asDirectory (h : asDirectory env v = .ok (.ok root)) :
    ∃ given, v = .text given ∧ root = env.tree.realPath (env.absolute (env.expandHome given)) ∧
      env.tree.lookup root = .ok .directory := by
  have htext : ∃ given, v = .text given ∧ given ≠ "" := by
    unfold asDirectory at h
    split at h
    · exact nomatch Except.ok.inj h
    · exact nomatch Except.ok.inj h
    · next given hne => exact ⟨given, rfl, hne⟩
    · exact nomatch Except.ok.inj h
  obtain ⟨given, rfl, hne⟩ := htext
  exact ⟨given, rfl, ((asDirectory_text_iff hne).1 h).2⟩

theorem holds_root_iff : s.Holds env .root v ↔ asDirectory env v = .ok (.ok s.root) := by
  rw [Settings.Holds, Settings.set]
  cases asDirectory env v with
  | error e => exact iff_of_false (by rintro ⟨⟩) (by rintro ⟨⟩)
  | ok answer =>
    cases answer with
    | error c => exact iff_of_false (by rintro ⟨⟩) (by rintro ⟨⟩)
    | ok root =>
      simp only [Except.ok.injEq]
      constructor
      · intro h
        exact (congrArg Settings.root (Except.ok.inj h) : _)
      · rintro rfl
        rfl

/-- Only the root is another one after the root is set, and it stays as it is when another option is set. -/
theorem root_of_set {f : Field} (hf : f ≠ .root) (h : s.set env f v = .ok (.ok c)) : c.root = s.root :=
  Scalar.text.inj (Datum.scalar.inj ((Settings.set_eq_ok_iff.1 h).2 .root (Ne.symm hf)))

theorem Built.asDirectory (h : Built env₀ v₀ c) : asDirectory env₀ v₀ = .ok (.ok c.root) := by
  induction h with
  | read hroot h =>
    exact holds_root_iff.1 (holds_of_settings h hroot)
  | root _ h _ => exact holds_root_iff.1 (Settings.set_eq_ok_iff.1 h).1
  | field _ hf h ih => rw [root_of_set hf h, ih]

/-! ### The other options -/

theorem interval_of_holds (h : s.Holds env .watchInterval v) : s.watchInterval > 0 := by
  rw [Settings.Holds, Settings.set, asPositive] at h
  cases hnumber : asNumber v with
  | error c =>
    rw [hnumber] at h
    cases h
  | ok x =>
    rw [hnumber] at h
    simp only [bind, Except.bind] at h
    split at h
    · next hx =>
      have hsame : x = s.watchInterval := congrArg Settings.watchInterval (Except.ok.inj (Except.ok.inj h))
      exact hsame ▸ hx
    · cases h

theorem interval_of_set {f : Field} (hs : s.watchInterval > 0) (h : s.set env f v = .ok (.ok c)) :
    c.watchInterval > 0 := by
  obtain ⟨hholds, hkept⟩ := Settings.set_eq_ok_iff.1 h
  by_cases hf : f = .watchInterval
  · subst hf
    exact interval_of_holds hholds
  · have hsame : c.watchInterval = s.watchInterval :=
      Scalar.float.inj (Datum.scalar.inj (hkept .watchInterval (Ne.symm hf)))
    exact hsame ▸ hs

theorem Built.interval (h : Built env₀ v₀ c) : c.watchInterval > 0 := by
  induction h with
  | @read env options v s hroot h =>
    cases hgiven : field? Field.watchInterval.label options with
    | some w => exact interval_of_holds (holds_of_settings h hgiven)
    | none =>
      have hread := (Settings.reads_of_none hgiven).1 ((settings_eq_ok_iff.1 h).2 .watchInterval)
      have hsame : s.watchInterval = 1 := Scalar.float.inj (Datum.scalar.inj hread.2)
      rw [hsame]
      decide
  | root _ h ih => exact interval_of_set ih h
  | field _ _ h ih => exact interval_of_set ih h

/-- What an option was read as is read as itself. -/
theorem holds_get {f : Field} (hf : f ≠ .root) (h : s.watchInterval > 0) (env : Surroundings) :
    s.Holds env f (s.get f) := by
  rw [Settings.Holds]
  cases f with
  | root => exact absurd rfl hf
  | watchInterval =>
    have hpositive : asPositive (.float s.watchInterval) = .ok s.watchInterval := by
      simp [asPositive, asNumber, bind, Except.bind, pure, Except.pure, h]
    rw [Settings.set, Settings.get, hpositive]
    rfl
  | logLevel =>
    have hlevel : asLevel (.text s.logLevel.label) = .ok s.logLevel := by
      cases s.logLevel <;> rfl
    rw [Settings.set, Settings.get, hlevel]
    rfl
  | logFile =>
    have hfile : asTextOrNone ((s.logFile.map Datum.text).getD .null) = .ok s.logFile := by
      cases s.logFile <;> rfl
    rw [Settings.set, Settings.get, hfile]
    rfl
  | _ => rfl

/-! ### Adjusting -/

theorem field?_entries (c : Settings) (f : Field) : field? f.label c.entries = some (c.get f) := by
  cases f <;> rfl

theorem isMap_get (c : Settings) (f : Field) : (c.get f).isMap = false := by
  cases f with
  | logFile =>
    rw [Settings.get]
    cases c.logFile <;> rfl
  | _ => rfl

/-- Set over settings, options leave under the name of each option what they say, or what it was read as. -/
theorem field?_merge_entries (ho : Distinct o) (c : Settings) (f : Field) :
    field? f.label (merge c.entries o) = some ((field? f.label o).getD (c.get f)) := by
  have hentry : find? (.text f.label) c.entries = some (c.get f) := field?_entries c f
  rw [field?, find?_merge ho, hentry, field?]
  cases find? (.text f.label) o with
  | none => rfl
  | some v => exact congrArg some (mergeValue_over_leaf (isMap_get c f) v)

theorem known_entries (c : Settings) : Known c.entries := by
  intro p hp
  obtain ⟨f, -, rfl⟩ := List.mem_map.1 hp
  exact ⟨f, rfl⟩

theorem known_merge_iff (ho : Distinct o) : Known (merge c.entries o) ↔ Known o := by
  constructor
  · intro h p hp
    obtain ⟨name, hname⟩ := (named_merge_iff.1 (known_iff.1 h).1).2 p hp
    have hsame : p.1.same (.text name) = true := hname ▸ Scalar.text_same_iff.2 rfl
    have hfound : find? (.text name) o = some p.2 := find?_of_mem ho hp hsame
    obtain ⟨w, hw⟩ : ∃ w, find? (.text name) (merge c.entries o) = some w := by
      rw [find?_merge ho, hfound]
      exact ⟨_, rfl⟩
    obtain ⟨q, hq, hkey, -⟩ := exists_mem_of_find? hw
    obtain ⟨f, hf⟩ := h q hq
    rw [hf, Scalar.text_same_iff] at hkey
    exact ⟨f, hname.trans hkey⟩
  · intro h q hq
    rcases mem_keys_merge (List.mem_map_of_mem hq) with hkey | hkey
    · obtain ⟨p, hp, heq⟩ := List.mem_map.1 hkey
      exact heq ▸ known_entries c p hp
    · obtain ⟨p, hp, heq⟩ := List.mem_map.1 hkey
      exact heq ▸ h p hp

theorem adjust_of_ne_nil (hne : o ≠ []) (env : Surroundings) (c : Settings) :
    adjust env c o = settings env (merge c.entries o) := by
  rw [adjust, if_neg (fun h => hne (List.isEmpty_iff.1 h))]

/-- Adjusted settings hold what they are given, and for each other option what it was read as. -/
theorem adjust_eq_ok_iff (hne : o ≠ []) (ho : Distinct o) : adjust env c o = .ok c' ↔
    Known o ∧ ∀ f, c'.Holds env f ((field? f.label o).getD (c.get f)) := by
  have hreads : ∀ f, Settings.Reads env (merge c.entries o) { root := "" } c' f ↔
      c'.Holds env f ((field? f.label o).getD (c.get f)) :=
    fun f => Settings.reads_of_some (field?_merge_entries ho c f)
  rw [adjust_of_ne_nil hne, settings_eq_ok_iff, known_merge_iff ho, forall_congr' hreads]

/-- An adjustment is accepted if it has the names of options, each value is accepted alone, and the root is too if it
is not given another one. -/
theorem exists_adjust_iff (hc : Built env₀ v₀ c) (hne : o ≠ []) (ho : Distinct o) :
    (∃ c', adjust env c o = .ok c') ↔ Known o ∧
      (∀ f v, field? f.label o = some v → Settings.Accepted env f v) ∧
        (field? "root" o = none → Settings.Accepted env .root (.text c.root)) := by
  have hgiven : (field? "root" (merge c.entries o)).isSome := Option.isSome_of_mem (field?_merge_entries ho c .root)
  rw [adjust_of_ne_nil hne, exists_settings_iff, known_merge_iff ho, and_iff_right hgiven]
  refine and_congr_right fun _ => ?_
  constructor
  · intro h
    have haccepted : ∀ f, Settings.Accepted env f ((field? f.label o).getD (c.get f)) :=
      fun f => h f _ (field?_merge_entries ho c f)
    refine ⟨fun f v hv => ?_, fun hroot => ?_⟩
    · have hf := haccepted f
      rwa [hv] at hf
    · have hnone : field? Field.root.label o = none := hroot
      have hf := haccepted .root
      rwa [hnone] at hf
  · rintro ⟨haccepted, hroot⟩ f v hv
    obtain rfl := Option.some.inj ((field?_merge_entries ho c f).symm.trans hv)
    cases hfield : field? f.label o with
    | some w => exact haccepted f w hfield
    | none =>
      by_cases hf : f = .root
      · subst hf
        exact hroot hfield
      · exact ⟨c, c, holds_get hf hc.interval env⟩

/-! ### What is kept -/

/-- A root that is looked up again, if it is accepted, is its real path in the tree that is there now. -/
theorem root_of_readjusted (hc : Built env₀ v₀ c) (h : c'.Holds env .root (.text c.root)) :
    c'.root = env.tree.realPath c.root ∧ ∃ place, env.tree.locate c'.root = .ok place := by
  obtain ⟨given₀, -, hroot, -⟩ := exists_text_of_asDirectory hc.asDirectory
  obtain ⟨names, -, -, hpath⟩ := Files.Tree.exists_realPath env₀.tree (env₀.absolute (env₀.expandHome given₀))
  have hslash : c.root.toList = '/' :: (Files.joinNames names).toList := by
    rw [hroot, hpath, String.toList_append]
    rfl
  have hexpand : env.expandHome c.root = c.root := by
    unfold Surroundings.expandHome
    rw [hslash]
    rfl
  have habsolute : env.absolute c.root = c.root := by
    rw [Surroundings.absolute, Files.join, Files.isAbsolute, hslash]
    rfl
  obtain ⟨given, hgiven, hreal, hlookup⟩ := exists_text_of_asDirectory (holds_root_iff.1 h)
  obtain rfl : c.root = given := Scalar.text.inj (Datum.scalar.inj hgiven)
  rw [hexpand, habsolute] at hreal
  refine ⟨hreal, ?_⟩
  rw [Files.Tree.lookup] at hlookup
  cases hlocate : env.tree.locate c'.root with
  | ok place => exact ⟨place, rfl⟩
  | error f =>
    rw [hlocate] at hlookup
    cases hlookup

/-- A root that is looked up again is kept if no link stands on the way to it, and only then. -/
theorem root_kept_iff (hc : Built env₀ v₀ c) (h : c'.Holds env .root (.text c.root)) :
    c'.root = c.root ↔ env.tree.Straight (Files.components c.root) := by
  obtain ⟨hreal, place, hplace⟩ := root_of_readjusted hc h
  obtain ⟨given, -, hroot, -⟩ := exists_text_of_asDirectory hc.asDirectory
  obtain ⟨names, hnames, hdots, hpath⟩ := Files.Tree.exists_realPath env₀.tree (env₀.absolute (env₀.expandHome given))
  rw [← hroot] at hpath
  rw [hpath, Files.Tree.components_slash_joinNames hnames]
  rw [hpath] at hreal
  constructor
  · intro hkept
    rw [hkept] at hplace
    exact (Files.Tree.realPath_eq_self_iff hnames hdots hplace).1 (hreal.symm.trans hkept)
  · exact fun hstraight => hreal.trans (Files.Tree.realPath_of_straight hnames hdots hstraight)

/-- A root that was found without meeting a circle has no link on its way. -/
theorem straight_root (hc : Built env₀ v₀ c) (h : ¬ GivenInCircle env₀ v₀) :
    env₀.tree.Straight (Files.components c.root) := by
  obtain ⟨given, hgiven, hroot, -⟩ := exists_text_of_asDirectory hc.asDirectory
  rw [hroot]
  exact Files.Tree.straight_realPath fun hcircle => h ⟨given, hgiven, hcircle⟩

theorem adjust_nil (env : Surroundings) (c : Settings) : adjust env c [] = .ok c := rfl

/-- An adjustment is accepted if each option that it gives is, and the root once more if it gives none. -/
theorem adjust_accepted_iff (hc : Built env₀ v₀ c) (ho : Distinct o) :
    (∃ c', adjust env c o = .ok c') ↔ o = [] ∨
      (∀ p ∈ o, ∃ f : Field, p.1 = .text f.label ∧ ∃ s, c.set env f p.2 = .ok (.ok s)) ∧
        (field? "root" o = none → ∃ s, c.set env .root (.text c.root) = .ok (.ok s)) := by
  by_cases hne : o = []
  · subst hne
    exact iff_of_true ⟨c, adjust_nil env c⟩ (Or.inl rfl)
  rw [or_iff_right hne, exists_adjust_iff hc hne ho]
  have haccepted : ∀ f w, Settings.Accepted env f w ↔ ∃ s, c.set env f w = .ok (.ok s) :=
    fun f w => ⟨fun h => h.exists_set c, fun ⟨s, hs⟩ => ⟨c, s, hs⟩⟩
  simp only [haccepted]
  constructor
  · rintro ⟨hknown, hgiven, hroot⟩
    refine ⟨fun p hp => ?_, hroot⟩
    obtain ⟨f, hf⟩ := hknown p hp
    exact ⟨f, hf, hgiven f p.2 (find?_of_mem ho hp (hf ▸ Scalar.text_same_iff.2 rfl))⟩
  · rintro ⟨hall, hroot⟩
    refine ⟨fun p hp => (hall p hp).imp fun f hf => hf.1, fun f v hv => ?_, hroot⟩
    obtain ⟨p, hp, hkey, rfl⟩ := exists_mem_of_find? hv
    obtain ⟨g, hg, hset⟩ := hall p hp
    rw [hg, Scalar.text_same_iff, Scalar.text.injEq] at hkey
    exact label_injective hkey ▸ hset

section Adjusted

variable (hc : Built env₀ v₀ c) (ho : Distinct o) (h : adjust env c o = .ok c')

include ho h

/-- An option that is given is what its value is made into. -/
theorem adjusted_given {f : Field} (hv : field? f.label o = some v) :
    ∃ s, c.set env f v = .ok (.ok s) ∧ c'.get f = s.get f := by
  have hne : o ≠ [] := by
    rintro rfl
    exact nomatch hv
  have hholds := ((adjust_eq_ok_iff hne ho).1 h).2 f
  rw [hv, Option.getD_some] at hholds
  obtain ⟨s, hs⟩ := Settings.Accepted.exists_set ⟨c', c', hholds⟩ c
  exact ⟨s, hs, (Settings.set_eq_ok_iff.1 hs).1.iff_get_eq.1 hholds⟩

include hc

/-- An option that is not given is kept, if it is not the root. -/
theorem adjusted_kept {f : Field} (hf : f ≠ .root) (hnone : field? f.label o = none) : c'.get f = c.get f := by
  by_cases hne : o = []
  · subst hne
    obtain rfl := Except.ok.inj ((adjust_nil env c).symm.trans h)
    rfl
  · have hholds := ((adjust_eq_ok_iff hne ho).1 h).2 f
    rw [hnone, Option.getD_none] at hholds
    exact (holds_get hf hc.interval env).iff_get_eq.1 hholds

/-- All options that are not given are kept if no link stands on the way to the root, and only then, unless the root is
given or nothing is. -/
theorem adjusted_kept_iff : (∀ f : Field, field? f.label o = none → c'.get f = c.get f) ↔
    o = [] ∨ (field? "root" o).isSome ∨ env.tree.Straight (Files.components c.root) := by
  by_cases hne : o = []
  · refine iff_of_true (fun f _ => ?_) (Or.inl hne)
    subst hne
    obtain rfl := Except.ok.inj ((adjust_nil env c).symm.trans h)
    rfl
  · rw [or_iff_right hne]
    cases hroot : field? "root" o with
    | some v =>
      refine iff_of_true (fun f hf => adjusted_kept hc ho h ?_ hf) (Or.inl rfl)
      rintro rfl
      exact nomatch hroot.symm.trans hf
    | none =>
      have hholds := ((adjust_eq_ok_iff hne ho).1 h).2 .root
      have hnone : field? Field.root.label o = none := hroot
      rw [hnone, Option.getD_none] at hholds
      rw [← root_kept_iff hc hholds, or_iff_right (by simp)]
      constructor
      · exact fun hall => Scalar.text.inj (Datum.scalar.inj (hall .root hroot))
      · intro hkept f hf
        by_cases heq : f = .root
        · subst heq
          exact congrArg Datum.text hkept
        · exact adjusted_kept hc ho h heq hf

end Adjusted

/-- An adjustment is accepted if each option that it gives is, and the root once more if it gives none. Without options
it leaves the settings as they are. Otherwise every option that it gives is what its value is made into, and all others
but the root are kept; the root is kept as well exactly if no link stands on the way to it. None does where the links
are as they were when the root was given, unless it was given by a path that leads in a circle. -/
theorem adjust_keeps (hc : Built env₀ v₀ c) (ho : Distinct o) :
    ((∃ c', adjust env c o = .ok c') ↔ o = [] ∨
      (∀ p ∈ o, ∃ f : Field, p.1 = .text f.label ∧ ∃ s, c.set env f p.2 = .ok (.ok s)) ∧
        (field? "root" o = none → ∃ s, c.set env .root (.text c.root) = .ok (.ok s))) ∧
    ∀ c', adjust env c o = .ok c' →
      (o = [] → c' = c) ∧
      (∀ (f : Field) v, field? f.label o = some v → ∃ s, c.set env f v = .ok (.ok s) ∧ c'.get f = s.get f) ∧
      (∀ f : Field, f ≠ .root → field? f.label o = none → c'.get f = c.get f) ∧
      ((∀ f : Field, field? f.label o = none → c'.get f = c.get f) ↔
        o = [] ∨ (field? "root" o).isSome ∨ env.tree.Straight (Files.components c.root)) ∧
      (env₀.tree.SameLinks env.tree → ¬ GivenInCircle env₀ v₀ →
        ∀ f : Field, field? f.label o = none → c'.get f = c.get f) := by
  refine ⟨adjust_accepted_iff hc ho, fun c' h => ⟨?_, fun f v => adjusted_given ho h,
    fun f => adjusted_kept hc ho h, adjusted_kept_iff hc ho h, fun hlinks hcircle => ?_⟩⟩
  · rintro rfl
    exact (Except.ok.inj ((adjust_nil env c).symm.trans h)).symm
  · refine (adjusted_kept_iff hc ho h).2 (Or.inr (Or.inr ?_))
    exact fun way hway target => mt (hlinks way target).2 (straight_root hc hcircle way hway target)

/-- Surroundings with a directory, a link to it and a link to itself. -/
def linked : Surroundings :=
  { tree := { entries := [(["d"], .directory), (["l"], .link "d"), (["loop"], .link "loop")] } }

theorem entry?_linked_directory : linked.tree.entry? ["d"] = some .directory := rfl

theorem entry?_linked_link : linked.tree.entry? ["l"] = some (.link "d") := rfl

/-- Every name can be looked up. -/
theorem glimpse?_linked (place : Files.Place) : linked.tree.glimpse? place = linked.tree.entry? place := rfl

theorem settle_linked_directory (above : List Files.Place) : linked.tree.settle above [] ["d"] = .ok ["d"] := by
  rw [Files.Tree.settle_plain (by decide) (by simp [glimpse?_linked, entry?_linked_directory]), List.nil_append]
  exact Files.Tree.settle_nil _ _ _

theorem settle_linked_link : linked.tree.settle [] [] ["l"] = .ok ["d"] := by
  have hstart : Files.Tree.startOf [] "d" = [] := by decide
  have hcomponents : Files.components "d" = ["d"] := by decide
  have hlink : linked.tree.glimpse? ([] ++ ["l"]) = some (.link "d") := rfl
  rw [Files.Tree.settle_link (by decide) hlink (by decide), List.nil_append, hstart, hcomponents,
    settle_linked_directory]
  exact Files.Tree.settle_nil _ _ _

/-- Behind the circle the link is left as it stands. -/
theorem settle_linked_circle : linked.tree.settle [] [] ["loop", "..", "l"] = .error ["loop", "..", "l"] := by
  have hstart : Files.Tree.startOf [] "loop" = [] := by decide
  have hcomponents : Files.components "loop" = ["loop"] := by decide
  have hloop : linked.tree.glimpse? ([] ++ ["loop"]) = some (.link "loop") := rfl
  rw [Files.Tree.settle_link (by decide) hloop (by decide), List.nil_append, hstart, hcomponents,
    Files.Tree.settle_circle (by decide) hloop (by decide)]
  rfl

theorem walk_linked_directory (links : Nat) : linked.tree.walk true links [] ["d"] = .ok ["d"] :=
  Files.Tree.walk_of_entries (e := .directory) (by simp) (by decide)
    (fun i hi => by obtain rfl : i = 0 := Nat.lt_one_iff.1 hi; exact ⟨rfl, List.not_mem_nil⟩) entry?_linked_directory

theorem walk_linked_link (links : Nat) : linked.tree.walk true (links + 1) [] ["l"] = .ok ["d"] := by
  have htop : linked.tree.entry? [] = some .directory := rfl
  have hopen : linked.tree.closed = [] := rfl
  have hcomponents : Files.components "d" = ["d"] := by decide
  have hsize : ¬ Files.Tree.nameLimit < "l".utf8ByteSize := by decide
  rw [Files.Tree.walk]
  simp [htop, hopen, entry?_linked_link, hsize, hcomponents, walk_linked_directory]

theorem lookup_linked {path name : String} (hcomponents : Files.components path = [name])
    (hnull : '\x00' ∉ path.toList) (hlong : ¬ path.utf8ByteSize ≥ Files.Tree.pathLimit)
    (hwalk : linked.tree.walk true Files.Tree.linkLimit [] [name] = .ok ["d"]) :
    linked.tree.lookup path = .ok .directory := by
  rw [Files.Tree.lookup, Files.Tree.locate, Files.Tree.locateLast, if_neg (by simpa using hnull), if_neg hlong,
    hcomponents, hwalk]
  rfl

theorem asDirectory_linked_directory : asDirectory linked (.text "/d") = .ok (.ok "/d") := by
  have hcomponents : Files.components (linked.absolute (linked.expandHome "/d")) = ["d"] := by decide
  refine (asDirectory_text_iff (by decide)).2 ⟨by decide, ?_, ?_⟩
  · rw [Files.Tree.realPath, hcomponents, settle_linked_directory]
    rfl
  · exact lookup_linked (by decide) (by decide) (by decide) (walk_linked_directory _)

theorem asDirectory_linked_link : asDirectory linked (.text "/l") = .ok (.ok "/d") := by
  have hcomponents : Files.components (linked.absolute (linked.expandHome "/l")) = ["l"] := by decide
  refine (asDirectory_text_iff (by decide)).2 ⟨by decide, ?_, ?_⟩
  · rw [Files.Tree.realPath, hcomponents, settle_linked_link]
    rfl
  · exact lookup_linked (by decide) (by decide) (by decide) (walk_linked_directory _)

theorem asDirectory_linked_circle : asDirectory linked (.text "/loop/../l") = .ok (.ok "/l") := by
  have hcomponents : Files.components (linked.absolute (linked.expandHome "/loop/../l")) = ["loop", "..", "l"] := by
    decide
  refine (asDirectory_text_iff (by decide)).2 ⟨by decide, ?_, ?_⟩
  · rw [Files.Tree.realPath, hcomponents, settle_linked_circle]
    decide
  · exact lookup_linked (by decide) (by decide) (by decide) (walk_linked_link _)

theorem settings_of_root (h : asDirectory env v = .ok (.ok root)) :
    settings env [(.text "root", v)] = .ok { root := root } := by
  refine settings_eq_ok_iff.2 ⟨fun p hp => ⟨.root, by rw [List.mem_singleton.1 hp]; rfl⟩, fun f => ?_⟩
  cases f with
  | root => exact holds_root_iff.2 h
  | _ => exact ⟨by decide, rfl⟩

/-- A root that is given by a link is kept when another option is adjusted. -/
theorem adjust_keeps_link :
    Built linked (.text "/l") { root := "/d" } ∧ Distinct [(.text "compress", .bool false)] ∧
      ∃ c', adjust linked { root := "/d" } [(.text "compress", .bool false)] = .ok c' ∧
        c'.root = "/d" ∧ c'.get .compress = .bool false := by
  have hbuilt : Built linked (.text "/l") { root := "/d" } :=
    .read rfl (settings_of_root asDirectory_linked_link)
  have hdistinct : Distinct [(.text "compress", .bool false)] := List.pairwise_singleton _ _
  obtain ⟨haccepted, hkeeps⟩ := @adjust_keeps linked _ _ _ _ hbuilt hdistinct
  obtain ⟨c', hc'⟩ := haccepted.2 <| Or.inr
    ⟨fun p hp => ⟨.compress, by rw [List.mem_singleton.1 hp]; exact ⟨rfl, _, rfl⟩⟩,
      fun _ => ⟨_, holds_root_iff.2 asDirectory_linked_directory⟩⟩
  obtain ⟨-, hgiven, -, -, hsame⟩ := hkeeps c' hc'
  have hstraight : ¬ GivenInCircle linked (.text "/l") := by
    rintro ⟨given, hgiven, stuck, hstuck⟩
    obtain rfl := Scalar.text.inj (Datum.scalar.inj hgiven)
    have hcomponents : Files.components (linked.absolute (linked.expandHome "/l")) = ["l"] := by decide
    rw [hcomponents, settle_linked_link] at hstuck
    exact nomatch hstuck
  have hroot : c'.get .root = .text "/d" := hsame (fun _ _ => Iff.rfl) hstraight .root rfl
  obtain ⟨s, hs, hcompress⟩ := hgiven .compress _ rfl
  obtain rfl := Except.ok.inj (Except.ok.inj hs)
  exact ⟨hbuilt, hdistinct, c', hc', Scalar.text.inj (Datum.scalar.inj hroot), hcompress⟩

/-- Behind a circle the root is found at a link, which leads further when another option is adjusted. -/
theorem root_moved :
    Built linked (.text "/loop/../l") { root := "/l" } ∧ linked.tree.isDirectory "/l" = .ok true ∧
      adjust linked { root := "/l" } [(.text "compress", .bool false)] = .ok { root := "/d", compress := false } ∧
      field? "root" [(.text "compress", .bool false)] = none ∧ "/d" ≠ "/l" := by
  have hbuilt : Built linked (.text "/loop/../l") { root := "/l" } :=
    .read rfl (settings_of_root asDirectory_linked_circle)
  refine ⟨hbuilt, ?_, ?_, rfl, by decide⟩
  · exact Files.Tree.isDirectory_iff.2 (lookup_linked (by decide) (by decide) (by decide) (walk_linked_link _))
  · refine (adjust_eq_ok_iff (List.cons_ne_nil _ _) (List.pairwise_singleton _ _)).2
      ⟨fun p hp => ⟨.compress, by rw [List.mem_singleton.1 hp]; rfl⟩, fun f => ?_⟩
    by_cases hroot : f = .root
    · subst hroot
      exact holds_root_iff.2 asDirectory_linked_link
    · cases f with
      | root => exact absurd rfl hroot
      | compress => rfl
      | _ => exact holds_get (s := { root := "/d", compress := false }) hroot hbuilt.interval linked

end Stencil.Config
