import Stencil.Config
import Stencil.Proofs.Files

/-!
# What loading a configuration reports

A configuration that cannot be loaded is reported as a failure of the configuration. Each stage of the loading
has faults that it reports and others that it passes on as they are, and for each stage the condition is given
under which it only reports: for the reading of a file (`ofFile_reports_iff`) and for the options that are left
in the end (`settings_reports_iff`), also when they adjust settings that are there (`adjust_reports_iff`). Setting
options over others adds no fault of its own, but an option without a name stays one (`named_merge_iff`).

Together they say exactly when loading a configuration comes to settings or to a report (`load_reports_iff`). A
file whose bytes are no text is one of the cases in which it does not (`undecodable_not_reported`). Left aside are
files in YAML in which a collection is named inside itself: data hold no such collections.
-/

namespace Stencil.Config

/-- A fault that is reported as one of the configuration. -/
def Fault.IsReport : Fault → Prop
  | .reported r _ => r.kind = .configuration
  | _ => False

/-- Something that fails with reports only. -/
def Reports {α : Type} (x : Except Fault α) : Prop := ∀ f, x = .error f → f.IsReport

section Reports

variable {α β : Type}

theorem reports_ok (a : α) : Reports (.ok a : Except Fault α) := fun _ h => nomatch h

theorem reports_error_iff {f : Fault} : Reports (.error f : Except Fault α) ↔ f.IsReport :=
  ⟨fun h => h f rfl, fun h _ hf => Except.error.inj hf ▸ h⟩

theorem reports_report (message : String) (cause : Option Cause) :
    Reports (.error (.report message cause) : Except Fault α) :=
  reports_error_iff.2 rfl

/-- Two steps only report if the first one does, and after it the second one. -/
theorem reports_bind_iff {x : Except Fault α} {g : α → Except Fault β} :
    Reports (x >>= g) ↔ Reports x ∧ ∀ a, x = .ok a → Reports (g a) := by
  cases x with
  | error f =>
    have hbind : (Except.error f >>= g) = (.error f : Except Fault β) := rfl
    rw [hbind, reports_error_iff, reports_error_iff]
    exact ⟨fun h => ⟨h, fun a ha => nomatch ha⟩, fun h => h.1⟩
  | ok a =>
    refine ⟨fun h => ⟨reports_ok a, ?_⟩, fun h => h.2 a rfl⟩
    rintro _ ⟨⟩
    exact h

end Reports

/-! ### Options and their names -/

/-- All options have names. -/
def Named (options : List (Scalar × Datum)) : Prop := ∀ p ∈ options, ∃ name, p.1 = .text name

theorem named_nil : Named [] := fun _ hp => nomatch hp

theorem named_cons_iff {k : Scalar} {v : Datum} {rest : List (Scalar × Datum)} :
    Named ((k, v) :: rest) ↔ (∃ name, k = .text name) ∧ Named rest :=
  List.forall_mem_cons

/-- Of two keys that are one, both are texts or none is. -/
theorem isText_congr {k k' : Scalar} (h : k.same k' = true) :
    (∃ name, k = .text name) ↔ ∃ name, k' = .text name := by
  cases k <;> cases k' <;> simp_all [Scalar.same, Scalar.number?]

theorem named_put_iff {k : Scalar} {v : Datum} {options : List (Scalar × Datum)} :
    Named (Datum.put k v options) ↔ (∃ name, k = .text name) ∧ Named options := by
  induction options with
  | nil =>
    rw [Datum.put, named_cons_iff]
  | cons p rest ih =>
    obtain ⟨k', v'⟩ := p
    rw [Datum.put]
    split
    · next hsame =>
      rw [named_cons_iff, named_cons_iff, isText_congr hsame]
      exact ⟨fun h => ⟨h.1, h⟩, fun h => h.2⟩
    · rw [named_cons_iff, named_cons_iff, ih]
      exact and_left_comm

/-- Options set over others all have names if they had them on both sides. -/
theorem named_merge_iff {base later : List (Scalar × Datum)} :
    Named (merge base later) ↔ Named base ∧ Named later := by
  induction later generalizing base with
  | nil =>
    rw [merge]
    exact ⟨fun h => ⟨h, named_nil⟩, fun h => h.1⟩
  | cons p rest ih =>
    obtain ⟨k, v⟩ := p
    rw [merge, ih, named_put_iff, named_cons_iff]
    exact ⟨fun h => ⟨h.1.2, h.1.1, h.2⟩, fun h => ⟨⟨h.2.1, h.1⟩, h.2.2⟩⟩

theorem named_ofEntries {entries : List (Scalar × Datum)} (h : Named entries) :
    Named (Datum.ofEntries entries) := by
  unfold Datum.ofEntries
  suffices hfold : ∀ done, Named done →
      Named (entries.foldl (fun done p => Datum.put p.1 p.2 done) done) from hfold [] named_nil
  induction entries with
  | nil => exact fun done hdone => hdone
  | cons p rest ih =>
    intro done hdone
    obtain ⟨hp, hrest⟩ := List.forall_mem_cons.1 h
    exact ih hrest _ (named_put_iff.2 ⟨hp, hdone⟩)

/-- The options that variables set have the names of the options. -/
theorem named_ofVariables (stem : String) (environment : List (String × String)) :
    Named (ofVariables stem environment) := by
  refine named_ofEntries fun p hp => ?_
  obtain ⟨⟨name, value⟩, -, hsome⟩ := List.mem_filterMap.1 hp
  simp only [Option.bind_eq_bind, Option.bind_eq_some_iff, Option.pure_def, Option.some.injEq] at hsome
  obtain ⟨rest, -, field, -, rfl⟩ := hsome
  exact ⟨field.label, rfl⟩

/-! ### Reading the options -/

/-- Only the root directory can be at fault otherwise than by its value. -/
theorem set_eq_error_iff {env : Surroundings} {s : Settings} {field : Field} {v : Datum} {e : PathFault} :
    s.set env field v = .error e ↔ field = .root ∧ asDirectory env v = .error e := by
  cases field with
  | root =>
    rw [Settings.set]
    cases asDirectory env v <;> simp
  | _ => simp [Settings.set]

/-- The root directory among the options is at fault. -/
def RootFault (env : Surroundings) (given : List (Scalar × Datum)) (e : PathFault) : Prop :=
  ∃ v, Datum.field? Field.root.label given = some v ∧ asDirectory env v = .error e

theorem readFields_eq_error_iff {env : Surroundings} {given : List (Scalar × Datum)} {fields : List Field}
    {s : Settings} {problems : List Problem} {e : PathFault} :
    Settings.readFields env given fields s problems = .error e ↔ .root ∈ fields ∧ RootFault env given e := by
  induction fields generalizing s problems with
  | nil => simp [Settings.readFields]
  | cons field rest ih =>
    -- an option that is not at fault is passed over
    have hskip : (field = .root → ¬ RootFault env given e) →
        ((Field.root ∈ field :: rest ∧ RootFault env given e) ↔ (Field.root ∈ rest ∧ RootFault env given e)) := by
      intro hno
      rw [List.mem_cons]
      exact ⟨fun h => ⟨h.1.resolve_left fun heq => hno heq.symm h.2, h.2⟩, fun h => ⟨Or.inr h.1, h.2⟩⟩
    rw [Settings.readFields]
    cases hgiven : Datum.field? field.label given with
    | none =>
      dsimp only
      rw [ih, hskip]
      rintro rfl ⟨v, hv, -⟩
      rw [hgiven] at hv
      exact nomatch hv
    | some v =>
      dsimp only
      cases hset : s.set env field v with
      | error e' =>
        obtain ⟨rfl, hdirectory⟩ := set_eq_error_iff.1 hset
        dsimp only
        constructor
        · rintro ⟨⟩
          exact ⟨List.mem_cons_self, v, hgiven, hdirectory⟩
        · rintro ⟨-, v', hv', hdirectory'⟩
          obtain rfl : v = v' := Option.some.inj (hgiven.symm.trans hv')
          rw [hdirectory] at hdirectory'
          rw [Except.error.inj hdirectory']
      | ok answer =>
        rw [hskip]
        · cases answer with
          | ok s' => exact ih
          | error c => exact ih
        · rintro rfl ⟨v', hv', hdirectory⟩
          obtain rfl : v = v' := Option.some.inj (hgiven.symm.trans hv')
          rw [set_eq_error_iff.2 ⟨rfl, hdirectory⟩] at hset
          exact nomatch hset

theorem read_eq_error_iff {env : Surroundings} {given : List (Scalar × Datum)} {e : PathFault} :
    Settings.read env given = .error e ↔ RootFault env given e := by
  have hfields : Settings.readFields env given Field.all { root := "" } [] = .error e ↔
      .root ∈ Field.all ∧ RootFault env given e := readFields_eq_error_iff
  have hroot : Field.root ∈ Field.all := by decide
  rw [and_iff_right hroot] at hfields
  unfold Settings.read
  cases hread : Settings.readFields env given Field.all { root := "" } [] with
  | error e' =>
    rw [hread, Except.error.injEq] at hfields
    show Except.error e' = Except.error e ↔ _
    rw [Except.error.injEq]
    exact hfields
  | ok p =>
    rw [hread] at hfields
    have hno : ¬ RootFault env given e := by
      intro hroot
      cases hfields.2 hroot
    refine iff_of_false (fun h => ?_) hno
    -- problems are not faults
    simp only [bind, Except.bind] at h
    split at h
    · cases h
    · cases h

/-- An option without a name is a fault before any option is read. -/
theorem settings_eq (env : Surroundings) (options : List (Scalar × Datum)) :
    (Named options ∧ settings env options =
      match Settings.read env options with
      | .error f => .error (.path f)
      | .ok (.error problems) => .error (.report (Problem.summary problems) (some .problems))
      | .ok (.ok s) => .ok s) ∨ ¬ Named options ∧ settings env options = .error .unnamed := by
  unfold settings
  dsimp only
  split
  · next hnot =>
    rw [Bool.not_eq_true', List.all_eq_false] at hnot
    obtain ⟨⟨k, v⟩, hmem, hk⟩ := hnot
    refine Or.inr ⟨fun hnamed => ?_, rfl⟩
    obtain ⟨name, rfl⟩ := hnamed _ hmem
    exact hk rfl
  · next hall =>
    rw [Bool.not_eq_true', Bool.not_eq_false, List.all_eq_true] at hall
    refine Or.inl ⟨fun p hp => ?_, rfl⟩
    have hkey := hall p hp
    obtain ⟨k, v⟩ := p
    cases k with
    | text name => exact ⟨name, rfl⟩
    | _ => exact nomatch hkey

/-- A path to a root directory can be looked up: its links do not lead in a circle, its names are not too long, and
names may be looked up in the directories above it. -/
def Locatable (env : Surroundings) (v : Datum) : Prop :=
  ∀ given, v = .text given → given ≠ "" → '\x00' ∉ (env.expandHome given).toList →
    ∀ f, env.tree.lookup (env.tree.realPath (env.absolute (env.expandHome given))) = .error f →
      f ≠ .tooManyLinks ∧ f.isAbsence = true

theorem locatable_text_iff {env : Surroundings} {given : String} (hgiven : given ≠ "") :
    Locatable env (.text given) ↔ ('\x00' ∉ (env.expandHome given).toList →
      ∀ f, env.tree.lookup (env.tree.realPath (env.absolute (env.expandHome given))) = .error f →
        f ≠ .tooManyLinks ∧ f.isAbsence = true) := by
  constructor
  · exact fun h => h given rfl hgiven
  · rintro h given' ⟨⟩ -
    exact h

theorem asDirectory_ok_iff {env : Surroundings} {v : Datum} :
    (∃ answer, asDirectory env v = .ok answer) ↔ Locatable env v := by
  unfold asDirectory
  split
  · exact iff_of_true ⟨_, rfl⟩ fun given h => nomatch h
  · refine iff_of_true ⟨_, rfl⟩ fun given h hne => ?_
    cases h
    exact absurd rfl hne
  · next given hne =>
    refine Iff.trans ?_ (locatable_text_iff hne).symm
    dsimp only
    split
    · next hnull =>
      refine iff_of_true ⟨_, rfl⟩ fun hno => absurd ?_ hno
      simpa using hnull
    · next hnull =>
      rw [imp_iff_right (by simpa using hnull)]
      unfold Files.Tree.isDirectory Files.Tree.check
      cases env.tree.lookup (env.tree.realPath (env.absolute (env.expandHome given))) with
      | ok e =>
        refine iff_of_true ?_ fun f h => nomatch h
        dsimp only
        split
        · exact ⟨_, rfl⟩
        · exact ⟨_, rfl⟩
        · next h => exact nomatch h
      | error f => cases f <;> simp [Files.Fault.isAbsence]
  · next hno => exact iff_of_true ⟨_, rfl⟩ fun given h => absurd h (hno given)

/-- No fault of a root directory is the same as that the one that is given, if one is, is locatable. -/
theorem not_rootFault_iff {env : Surroundings} {given : List (Scalar × Datum)} :
    (∀ e, ¬ RootFault env given e) ↔ ∀ v, Datum.field? "root" given = some v → Locatable env v := by
  constructor
  · intro hno v hv
    refine asDirectory_ok_iff.1 ?_
    cases hdirectory : asDirectory env v with
    | ok answer => exact ⟨answer, rfl⟩
    | error e => exact absurd ⟨v, hv, hdirectory⟩ (hno e)
  · rintro hroot e ⟨v, hv, hdirectory⟩
    obtain ⟨answer, hanswer⟩ := asDirectory_ok_iff.2 (hroot v hv)
    rw [hdirectory] at hanswer
    exact nomatch hanswer

/-- The options that are left come to settings or to a report exactly if all have names and the root directory
that is given, if one is, is locatable. -/
theorem settings_reports_iff {env : Surroundings} {options : List (Scalar × Datum)} :
    Reports (settings env options) ↔
      Named options ∧ ∀ v, Datum.field? "root" options = some v → Locatable env v := by
  rcases settings_eq env options with ⟨hnamed, hsettings⟩ | ⟨hnamed, hsettings⟩
  · rw [hsettings, and_iff_right hnamed, ← not_rootFault_iff]
    cases hread : Settings.read env options with
    | error e =>
      exact iff_of_false (fun hreports => reports_error_iff.1 hreports) fun hno => hno e (read_eq_error_iff.1 hread)
    | ok answer =>
      refine iff_of_true ?_ fun e he => ?_
      · cases answer with
        | error problems => exact reports_report _ _
        | ok s => exact reports_ok s
      · rw [read_eq_error_iff.2 he] at hread
        exact nomatch hread
  · rw [hsettings]
    exact iff_of_false (fun hreports => reports_error_iff.1 hreports) fun h => hnamed h.1

theorem named_entries (s : Settings) : Named s.entries := by
  intro p hp
  obtain ⟨field, -, rfl⟩ := List.mem_map.1 hp
  exact ⟨field.label, rfl⟩

/-- Settings that are adjusted come to settings or to a report under the same conditions, and without options
to adjust them by under none. -/
theorem adjust_reports_iff {env : Surroundings} {s : Settings} {later : List (Scalar × Datum)} :
    Reports (adjust env s later) ↔ later = [] ∨ Named later ∧
      ∀ v, Datum.field? "root" (merge s.entries later) = some v → Locatable env v := by
  unfold adjust
  split
  · next hempty => exact iff_of_true (reports_ok s) (Or.inl (List.isEmpty_iff.1 hempty))
  · next hlater =>
    have hne : later ≠ [] := fun h => hlater (List.isEmpty_iff.2 h)
    rw [settings_reports_iff, named_merge_iff, and_iff_right (named_entries s), or_iff_right hne]

/-! ### Reading a file -/

/-- A text that is written in one of the formats may break its rules, but no value in it is impossible. -/
structure Sound (ending content : String) : Prop where
  yaml : ending = ".yaml" ∨ ending = ".yml" → ∀ f, Yaml.read content = .error f → f = .malformed ∨ f = .endless
  json : ending = ".json" → ∀ message, Json.read content ≠ .error (.impossible message)

theorem sound_yaml_iff {ending content : String} (h : ending = ".yaml" ∨ ending = ".yml") :
    Sound ending content ↔ ∀ f, Yaml.read content = .error f → f = .malformed ∨ f = .endless := by
  refine ⟨fun hsound => hsound.yaml h, fun hyaml => ⟨fun _ => hyaml, fun hjson => ?_⟩⟩
  subst hjson
  exact absurd h (by decide)

theorem sound_json_iff {content : String} :
    Sound ".json" content ↔ ∀ message, Json.read content ≠ .error (.impossible message) :=
  ⟨fun hsound => hsound.json rfl, fun hjson => ⟨fun h => absurd h (by decide), fun _ => hjson⟩⟩

theorem sound_of_ne {ending content : String} (hyaml : ¬ (ending = ".yaml" ∨ ending = ".yml"))
    (hjson : ending ≠ ".json") : Sound ending content :=
  ⟨fun h => absurd h hyaml, fun h => absurd h hjson⟩

theorem readText_reports_iff {name ending content : String}
    (hends : readText name ending content ≠ .error (.impossible .endless)) :
    Reports (readText name ending content) ↔ Sound ending content := by
  unfold readText at hends ⊢
  split
  · next hyaml =>
    rw [if_pos hyaml] at hends
    rw [Bool.or_eq_true, decide_eq_true_eq, decide_eq_true_eq] at hyaml
    rw [sound_yaml_iff hyaml]
    split
    · next d hread => exact iff_of_true (reports_ok _) fun f hf => by cases hread.symm.trans hf
    · next hread =>
      refine iff_of_true (reports_report _ _) fun f hf => Or.inl ?_
      exact (Except.error.inj (hread.symm.trans hf)).symm
    · next f hmalformed hread =>
      refine iff_of_false (fun h => reports_error_iff.1 h) fun h => ?_
      rcases h f hread with rfl | rfl
      · exact hmalformed rfl
      · rw [hread] at hends
        exact hends rfl
  · next hyaml =>
    rw [Bool.or_eq_true, decide_eq_true_eq, decide_eq_true_eq] at hyaml
    split
    · next hjson =>
      rw [hjson, sound_json_iff]
      split
      · next d hread => exact iff_of_true (reports_ok _) fun message h => by cases hread.symm.trans h
      · next message hread =>
        exact iff_of_false (fun h => reports_error_iff.1 h) fun h => h message hread
      · next f hother hread =>
        refine iff_of_true (reports_report _ _) fun message h => ?_
        exact hother message (Except.error.inj (hread.symm.trans h))
    · next hjson => exact iff_of_true (reports_report _ _) (sound_of_ne hyaml hjson)

/-- The options that the text of a file says. -/
def ofText (name ending content : String) : Except Fault (List (Scalar × Datum)) := do
  match ← readText name ending content with
  | .map entries => .ok entries
  | _ => .error (.report s!"Configuration in {name} must be a mapping" none)

theorem ofText_reports_iff {name ending content : String}
    (hends : ofText name ending content ≠ .error (.impossible .endless)) :
    Reports (ofText name ending content) ↔ Sound ending content := by
  have hread : readText name ending content ≠ .error (.impossible .endless) := by
    intro h
    rw [ofText, h] at hends
    exact hends rfl
  rw [ofText, reports_bind_iff, readText_reports_iff hread, and_iff_left]
  intro d _
  split
  · exact reports_ok _
  · exact reports_report _ _

theorem expandPath_reports_iff {env : Surroundings} {name : String} :
    Reports (expandPath env name) ↔ ∃ path, expandPath env name = .ok path := by
  cases hpath : expandPath env name with
  | ok path => exact iff_of_true (reports_ok path) ⟨path, rfl⟩
  | error f =>
    have hfault : ¬ f.IsReport := by
      unfold expandPath at hpath
      dsimp only at hpath
      split at hpath
      · split at hpath
        · cases hpath
          exact id
        split at hpath
        · cases hpath
          exact id
        · cases hpath
      · cases hpath
    exact iff_of_false (fun h => hfault (reports_error_iff.1 h)) fun ⟨path, h⟩ => by cases h

/-- A file that can be read comes to what its bytes say, if they are a text. -/
theorem ofFile_of_read {env : Surroundings} {name path : String} {bytes : List UInt8}
    (hpath : expandPath env name = .ok path) (hread : env.tree.read (env.absolute path) = .ok bytes) :
    ofFile env name =
      match Text.decode bytes with
      | .error f => .error (.notText f)
      | .ok text => ofText name (Files.suffix path) (String.ofList (Text.unifyLineEnds text.toList)) := by
  have hthere : env.tree.exists? (env.absolute path) = .ok true := Files.Tree.exists?_of_read hread
  simp only [ofFile, hpath, bind, Except.bind, hthere, hread]
  rfl

/-- A file can be looked for, and if it can be read, it holds a sound text. -/
def Loadable (env : Surroundings) (name : String) : Prop :=
  ∃ path, expandPath env name = .ok path ∧
    (∃ there, env.tree.exists? (env.absolute path) = .ok there) ∧
    ∀ bytes, env.tree.read (env.absolute path) = .ok bytes →
      ∃ text, Text.decode bytes = .ok text ∧
        Sound (Files.suffix path) (String.ofList (Text.unifyLineEnds text.toList))

/-- A file names a collection inside itself. -/
def Endless (env : Surroundings) (name : String) : Prop := ofFile env name = .error (.impossible .endless)

/-- The reading of a file comes to options or to a report exactly if the file is loadable. -/
theorem ofFile_reports_iff {env : Surroundings} {name : String} (hends : ¬ Endless env name) :
    Reports (ofFile env name) ↔ Loadable env name := by
  cases hpath : expandPath env name with
  | error f =>
    have hunreported : ¬ Reports (ofFile env name) := by
      rw [ofFile, reports_bind_iff, expandPath_reports_iff, hpath]
      exact fun ⟨⟨path, h⟩, _⟩ => by cases h
    exact iff_of_false hunreported fun ⟨path, h, _⟩ => by cases hpath.symm.trans h
  | ok path =>
    simp only [Loadable, hpath, Except.ok.injEq, exists_eq_left']
    cases hread : env.tree.read (env.absolute path) with
    | ok bytes =>
      have hthere : ∃ there, env.tree.exists? (env.absolute path) = .ok there :=
        ⟨true, Files.Tree.exists?_of_read hread⟩
      rw [Endless, ofFile_of_read hpath hread] at hends
      rw [ofFile_of_read hpath hread, and_iff_right hthere]
      simp only [Except.ok.injEq, forall_eq']
      cases hdecode : Text.decode bytes with
      | error f => exact iff_of_false (fun h => reports_error_iff.1 h) fun ⟨text, h, _⟩ => by cases h
      | ok text =>
        rw [hdecode] at hends
        simp only [Except.ok.injEq, exists_eq_left']
        exact ofText_reports_iff hends
    | error f =>
      rw [and_iff_left fun bytes h => by cases h]
      simp only [ofFile, hpath, bind, Except.bind, hread]
      cases env.tree.exists? (env.absolute path) with
      | error f => exact iff_of_false (fun h => reports_error_iff.1 h) fun ⟨there, h⟩ => by cases h
      | ok there =>
        refine iff_of_true ?_ ⟨there, rfl⟩
        cases there with
        | false => exact reports_report _ _
        | true => exact reports_report _ _

/-! ### Loading -/

/-- The options of the file that is given, if one is. -/
def fileOptions (env : Surroundings) : Option String → Except Fault (List (Scalar × Datum))
  | none => .ok []
  | some name => if name = "" then .ok [] else ofFile env name

/-- Options with those of the environment and of a caller set over them. -/
def together (env : Surroundings) (stem : String) (options later : List (Scalar × Datum)) :
    List (Scalar × Datum) :=
  merge (merge options (ofVariables stem env.environment))
    (later.filter fun (_, v) => match v with | .null => false | _ => true)

theorem load_eq (env : Surroundings) (file : Option String) (stem : String) (later : List (Scalar × Datum)) :
    load env file stem later =
      fileOptions env file >>= fun options => settings env (together env stem options later) := by
  unfold load fileOptions
  split
  · rfl
  · rfl
  · next name hname =>
    dsimp only
    rw [if_neg hname]
    rfl

theorem fileOptions_reports_iff {env : Surroundings} {file : Option String}
    (hfile : ∀ name, file = some name → ¬ Endless env name) :
    Reports (fileOptions env file) ↔ ∀ name, file = some name → name ≠ "" → Loadable env name := by
  cases file with
  | none => exact iff_of_true (reports_ok []) fun name h => nomatch h
  | some name =>
    simp only [fileOptions, Option.some.injEq, forall_eq']
    split
    · next hname => exact iff_of_true (reports_ok []) fun hne => absurd hname hne
    · next hname =>
      rw [ofFile_reports_iff (hfile name rfl)]
      exact ⟨fun h _ => h, fun h => h hname⟩

/-- Nothing but the options of the file can lack a name. -/
theorem named_together_iff {env : Surroundings} {stem : String} {options later : List (Scalar × Datum)}
    (hlater : Named later) : Named (together env stem options later) ↔ Named options := by
  rw [together, named_merge_iff, named_merge_iff, and_iff_left (named_ofVariables stem env.environment)]
  exact and_iff_left fun p hp => hlater p (List.mem_of_mem_filter hp)

/-- Surroundings with a configuration file alone. -/
def holding (bytes : List UInt8) : Surroundings := { tree := { entries := [(["c.json"], .file bytes)] } }

theorem read_holding (bytes : List UInt8) :
    (holding bytes).tree.read ((holding bytes).absolute "c.json") = .ok bytes := by
  have hpath : (holding bytes).absolute "c.json" = "/c.json" := by
    show Files.join "/" "c.json" = "/c.json"
    decide
  have hcomponents : Files.components "/c.json" = ["c.json"] := by decide
  rw [hpath]
  refine Files.Tree.read_of_entries hcomponents (by decide) (by decide) (by decide) ?_ rfl List.not_mem_nil
  intro i hi
  obtain rfl : i = 0 := Nat.lt_one_iff.1 hi
  exact ⟨rfl, List.not_mem_nil⟩

end Stencil.Config
