import Stencil.Log.Line
import Stencil.Proofs.Json.RoundTrip

/-!
# What a log line says

A record that is written as an object is one line of visible characters, whatever stands in its message and its
fields, so that no record can end its line or begin another. The line is read as a mapping with texts for keys, each
once, and under each name stands what the record says there (`Record.said?`): its data under their own name, else
the last of the fields for all lines that has the name, else the record's own field. There is no line only where
something keeps the record unsaid (`Unsaid`): its time is in no calendar, its arguments do not fit its format, it is
to tell of an error where none was raised, or a number in it is too long to be written.
-/

namespace Stencil

namespace Json

open Datum

theorem plain_map_iff {entries : List (Scalar × Datum)} : Plain (.map entries) ↔
    Distinct entries ∧ (∀ p ∈ entries, ∃ name, p.1 = .text name) ∧ ∀ p ∈ entries, Plain p.2 :=
  ⟨fun | .map distinct named values => ⟨distinct, named, values⟩,
    fun ⟨distinct, named, values⟩ => .map distinct named values⟩

theorem plain_ofFields {fields : List (String × Datum)} (hnames : (fields.map Prod.fst).Nodup)
    (hvalues : ∀ p ∈ fields, Plain p.2) : Plain (.ofFields fields) := by
  refine .map ?_ ?_ ?_
  · have hother : ∀ {k j : String}, k ≠ j → (Scalar.text k).same (.text j) = false := fun {k j} h => by
      simpa [Scalar.same] using h
    rw [Distinct, List.pairwise_map]
    exact (List.pairwise_map.1 hnames).imp hother
  · exact List.forall_mem_map.2 fun p _ => ⟨p.1, rfl⟩
  · exact List.forall_mem_map.2 hvalues

theorem plain_put {entries : List (Scalar × Datum)} (h : Plain (.map entries)) (name : String) {v : Datum}
    (hv : Plain v) : Plain (.map (put (.text name) v entries)) := by
  obtain ⟨hdistinct, hnamed, hvalues⟩ := plain_map_iff.1 h
  refine .map (distinct_put hdistinct _ v) (fun p hp => ?_) fun p hp => ?_
  · rcases mem_put hp with hp | ⟨hkey | hkey, -⟩
    · exact hnamed p hp
    · exact ⟨name, hkey⟩
    · obtain ⟨q, hq, heq⟩ := List.mem_map.1 hkey
      exact heq ▸ hnamed q hq
  · rcases mem_put hp with hp | ⟨-, rfl⟩
    · exact hvalues p hp
    · exact hv

end Json

namespace Log

open Datum Json

namespace Record

/-- The error that a record tells of. -/
def error? (r : Record) : Option Exception :=
  match r.incident with
  | .raised e => some e
  | _ => none

/-- What a record of a moment, with its message filled in, has under a name of its own. -/
def own? (r : Record) (time : Moment) (message : String) : String → Option Datum
  | "timestamp" => some (.text (time.textWith "T"))
  | "level" => some (.text (levelName r.level))
  | "logger" => some (.text r.name)
  | "message" => some (.text message)
  | "module" => some (.text r.module)
  | "line" => some (.int r.line)
  | "template" => r.template
  | "root" => r.root
  | "exception" => r.error?.map Exception.asDatum
  | _ => none

/-- What is said under a name: the data under theirs, else the last of the fields for all lines that has the name,
else what the record has. -/
def said? (more : List (String × Datum)) (r : Record) (time : Moment) (message name : String) : Option Datum :=
  if name = "data" ∧ r.data.isSome then r.data
  else (more.reverse.lookup name).or (r.own? time message name)

variable {r : Record} {more : List (String × Datum)} {time : Moment} {message : String}

theorem exception?_eq (h : r.incident ≠ .missing) : r.incident.exception? = .ok r.error? := by
  unfold error?
  cases hincident : r.incident with
  | none => rfl
  | missing => exact absurd hincident h
  | raised e => rfl

theorem plain_asDatum (e : Exception) : Plain e.asDatum := by
  refine plain_ofFields (by simp) ?_
  simp only [List.forall_mem_cons]
  exact ⟨.text _, .text _, .text _, by simp⟩

theorem lookup_cons (name key : String) (v : Datum) (fields : List (String × Datum)) :
    ((key, v) :: fields).lookup name = if name = key then some v else fields.lookup name := by
  by_cases h : name = key <;> simp [List.lookup, h, beq_false_of_ne]

/-- A field that may be there is found under its name. -/
theorem lookup_map_toList {α : Type} (o : Option α) (key : String) (value : α → Datum) (name : String) :
    (o.toList.map fun a => (key, value a)).lookup name = if name = key then o.map value else none := by
  cases o with
  | none => simp
  | some a => rw [Option.toList_some, List.map_singleton, lookup_cons, List.lookup_nil, Option.map_some]

theorem plain_map_toList {α : Type} {o : Option α} {value : α → Datum} (h : ∀ a ∈ o, Plain (value a)) (key : String) :
    ∀ p ∈ o.toList.map fun a => (key, value a), Plain p.2 :=
  List.forall_mem_map.2 fun a ha => h a (Option.mem_toList.1 ha)

/-- The own fields of a record are its own by name. -/
theorem exists_fields (htime : r.moment = .ok time) (hmessage : r.message = .ok message)
    (hincident : r.incident ≠ .missing) (htemplate : ∀ d ∈ r.template, Plain d) (hroot : ∀ d ∈ r.root, Plain d) :
    ∃ own, r.fields = .ok own ∧ Plain (.map own) ∧ ∀ name, field? name own = r.own? time message name := by
  rw [fields, htime, hmessage, exception?_eq hincident]
  refine ⟨_, rfl, plain_ofFields ?_ ?_, fun name => ?_⟩
  · cases r.template <;> cases r.root <;> cases r.error? <;> simp
  · simp only [Option.toList_map, List.forall_mem_append]
    refine ⟨⟨?_, plain_map_toList htemplate "template", plain_map_toList hroot "root"⟩,
      plain_map_toList (fun e _ => plain_asDatum e) "exception"⟩
    simp only [List.forall_mem_cons]
    exact ⟨.text _, .text _, .text _, .text _, .text _, .int _, by simp⟩
  · rw [field?_map_text]
    rw [List.lookup_append, List.lookup_append, List.lookup_append, Option.toList_map, Option.toList_map,
      lookup_map_toList r.template "template" fun d => d,
      lookup_map_toList r.root "root" fun d => d, lookup_map_toList r.error? "exception"]
    simp only [lookup_cons, List.lookup_nil]
    symm
    unfold own?
    split
    case h_9 => simp only [String.reduceEq, ↓reduceIte, Option.or_none, Option.none_or]
    case h_10 => simp_all
    all_goals simp

/-- The fields for all lines are put over those that are there, the last of a name over the ones before. -/
theorem plain_foldl_put {entries : List (Scalar × Datum)} (h : Plain (.map entries))
    (hmore : ∀ p ∈ more, Plain p.2) : Plain (.map (more.foldl (fun done (k, v) => put (.text k) v done) entries)) ∧
      ∀ name, field? name (more.foldl (fun done (k, v) => put (.text k) v done) entries) =
        (more.reverse.lookup name).or (field? name entries) := by
  induction more using List.reverseRecOn with
  | nil => exact ⟨h, fun _ => rfl⟩
  | append_singleton more p ih =>
    obtain ⟨hbefore, hlast⟩ := List.forall_mem_append.1 hmore
    obtain ⟨hplain, hfields⟩ := ih hbefore
    rw [List.foldl_append, List.foldl_cons, List.foldl_nil, List.reverse_concat]
    refine ⟨plain_put hplain p.1 (hlast p List.mem_cons_self), fun name => ?_⟩
    rw [field?_put, lookup_cons, hfields]
    split <;> simp

/-- A record whose time and message are made is an object of what it says. -/
theorem exists_object (htime : r.moment = .ok time) (hmessage : r.message = .ok message)
    (hincident : r.incident ≠ .missing) (hmore : ∀ p ∈ more, Plain p.2) (htemplate : ∀ d ∈ r.template, Plain d)
    (hroot : ∀ d ∈ r.root, Plain d) (hdata : ∀ d ∈ r.data, Plain d) :
    ∃ entries, r.object more = .ok (.map entries) ∧ Plain (.map entries) ∧
      ∀ name, field? name entries = r.said? more time message name := by
  obtain ⟨own, hown, hplain, hnames⟩ := exists_fields htime hmessage hincident htemplate hroot
  obtain ⟨hall, hfields⟩ := plain_foldl_put hplain hmore
  rw [object, hown]
  refine ⟨_, rfl, ?_, fun name => ?_⟩
  · cases hd : r.data with
    | none => exact hall
    | some d => exact plain_put hall "data" (hdata d hd)
  · cases hd : r.data with
    | none =>
      have hother : ¬ (name = "data" ∧ r.data.isSome) := by simp [hd]
      rw [hfields, hnames, said?, if_neg hother]
    | some d =>
      rw [field?_put, hfields, hnames, said?, hd]
      simp

/-- Of what a record says of itself only the number of its line can be too long. -/
theorem own?_isWritable (hline : Decimal.isWritable r.line = true) (htemplate : ∀ d ∈ r.template, d.isWritable = true)
    (hroot : ∀ d ∈ r.root, d.isWritable = true) {name : String} {d : Datum}
    (h : r.own? time message name = some d) : d.isWritable = true := by
  unfold own? at h
  split at h
  case h_6 =>
    cases h
    exact hline
  case h_7 => exact htemplate d h
  case h_8 => exact hroot d h
  case h_9 =>
    obtain ⟨e, -, rfl⟩ := Option.map_eq_some_iff.1 h
    rfl
  case h_10 => cases h
  all_goals
    cases h
    rfl

/-- No number that a record says is too long if none is in what it is given. -/
theorem said?_isWritable (hline : Decimal.isWritable r.line = true) (hmore : ∀ p ∈ more, p.2.isWritable = true)
    (htemplate : ∀ d ∈ r.template, d.isWritable = true) (hroot : ∀ d ∈ r.root, d.isWritable = true)
    (hdata : ∀ d ∈ r.data, d.isWritable = true) {name : String} {d : Datum}
    (h : r.said? more time message name = some d) : d.isWritable = true := by
  unfold said? at h
  split at h
  · exact hdata d h
  · rcases Option.or_eq_some_iff.1 h with h | ⟨-, h⟩
    · obtain ⟨before, after, heq, -⟩ := List.lookup_eq_some_iff.1 h
      have hmem : (name, d) ∈ more.reverse := by simp [heq]
      exact hmore _ (List.mem_reverse.1 hmem)
    · exact own?_isWritable hline htemplate hroot h

end Record

/-- A line of visible characters that says what is given by name and nothing else: it is read as a mapping with
texts for keys, each once. -/
structure Says (line : String) (said : String → Option Datum) : Prop where
  visible : ∀ c ∈ line.toList, Visible c
  entries : ∃ entries, Json.read line = .ok (.map entries) ∧ Distinct entries ∧
    (∀ p ∈ entries, ∃ name, p.1 = .text name) ∧ ∀ name, field? name entries = said name

variable {r : Record} {more : List (String × Datum)} {time : Moment} {message : String}

/-- Why a record is not written as an object. -/
inductive Unsaid (more : List (String × Datum)) (r : Record) : Fault → Prop
  | time {f : Fault} (no_time : r.moment = .error f) : Unsaid more r f
  | message {f : Fault} {time : Moment} (has_time : r.moment = .ok time) (no_message : r.message = .error f) :
      Unsaid more r f
  | noError {time : Moment} {message : String} (has_time : r.moment = .ok time) (has_message : r.message = .ok message)
      (no_error : r.incident = .missing) : Unsaid more r .noError
  | tooLong {time : Moment} {message name : String} {d : Datum} (has_time : r.moment = .ok time)
      (has_message : r.message = .ok message) (has_error : r.incident ≠ .missing)
      (said : r.said? more time message name = some d) (too_long : d.isWritable = false) :
      Unsaid more r (.unwritable .tooLong)

theorem line_of_object {d : Datum} (h : r.object more = .ok d) :
    (Style.json more).line r = (Json.write d).mapError .unwritable := by
  simp only [Style.line, h, bind, Except.bind]
  cases Json.write d <;> rfl

/-- A record whose time and message are made, with an error where it tells of one, has a line of what it says, or it
says a number that is too long. -/
theorem line_of_said (htime : r.moment = .ok time) (hmessage : r.message = .ok message)
    (hincident : r.incident ≠ .missing) (hmore : ∀ p ∈ more, Plain p.2) (htemplate : ∀ d ∈ r.template, Plain d)
    (hroot : ∀ d ∈ r.root, Plain d) (hdata : ∀ d ∈ r.data, Plain d) :
    ((∀ name d, r.said? more time message name = some d → d.isWritable = true) →
      ∃ line, (Style.json more).line r = .ok line ∧ Says line (r.said? more time message)) ∧
    ∀ f, (Style.json more).line r = .error f ↔
      (∃ name d, r.said? more time message name = some d ∧ d.isWritable = false) ∧ f = .unwritable .tooLong := by
  obtain ⟨entries, hobject, hplain, hfields⟩ :=
    Record.exists_object htime hmessage hincident hmore htemplate hroot hdata
  obtain ⟨hdistinct, hnamed, -⟩ := plain_map_iff.1 hplain
  have hwritable : (Datum.map entries).isWritable = true ↔
      ∀ name d, r.said? more time message name = some d → d.isWritable = true := by
    rw [isWritable_map_iff_of_named hnamed,
      forall_mem_iff_field? (P := fun d => d.isWritable = true) hdistinct hnamed]
    simp only [hfields]
  rw [line_of_object hobject, ← hwritable]
  constructor
  · intro hshort
    obtain ⟨line, hwrite, hvisible, hread⟩ := read_write hplain hshort
    exact ⟨line, by rw [hwrite]; rfl, hvisible, entries, hread, hdistinct, hnamed, hfields⟩
  · intro f
    have hlong : (∃ name d, r.said? more time message name = some d ∧ d.isWritable = false) ↔
        (Datum.map entries).isWritable = false := by
      rw [← Bool.not_eq_true, hwritable]
      simp
    rw [hlong]
    cases hwrite : Json.write (.map entries) with
    | ok line =>
      refine iff_of_false (fun h => by cases h) fun ⟨hlong, _⟩ => ?_
      have herror := (write_eq_error_iff hplain).2 ⟨hlong, rfl⟩
      rw [hwrite] at herror
      cases herror
    | error g =>
      obtain ⟨hlong, rfl⟩ := (write_eq_error_iff hplain).1 hwrite
      show Except.error (Fault.unwritable .tooLong) = .error f ↔ _
      rw [and_iff_right hlong, Except.error.injEq, eq_comm]

section Fault

variable {f : Fault} (hmore : ∀ p ∈ more, Plain p.2) (htemplate : ∀ d ∈ r.template, Plain d)
  (hroot : ∀ d ∈ r.root, Plain d) (hdata : ∀ d ∈ r.data, Plain d)

/-- What is missing before the object is made is the fault. -/
theorem line_eq_error_of_object (h : r.object more = .error f) : (Style.json more).line r = .error f := by
  simp only [Style.line, h, bind, Except.bind]

include hmore htemplate hroot hdata

theorem line_of_unsaid (h : Unsaid more r f) : (Style.json more).line r = .error f := by
  cases h with
  | time no_time =>
    exact line_eq_error_of_object (by simp [Record.object, Record.fields, no_time, bind, Except.bind])
  | message has_time no_message =>
    exact line_eq_error_of_object (by simp [Record.object, Record.fields, has_time, no_message, bind, Except.bind])
  | noError has_time has_message no_error =>
    have hfault : r.incident.exception? = .error .noError := by rw [no_error]; rfl
    exact line_eq_error_of_object
      (by simp [Record.object, Record.fields, has_time, has_message, hfault, bind, Except.bind])
  | tooLong has_time has_message has_error said too_long =>
    have hline := (line_of_said has_time has_message has_error hmore htemplate hroot hdata).2
    exact (hline _).2 ⟨⟨_, _, said, too_long⟩, rfl⟩

theorem unsaid_of_line (h : (Style.json more).line r = .error f) : Unsaid more r f := by
  -- there is one fault only
  have hsame : ∀ {g}, Unsaid more r g → Unsaid more r f := by
    intro g hg
    have hline := line_of_unsaid hmore htemplate hroot hdata hg
    rw [h] at hline
    exact Except.error.inj hline ▸ hg
  cases htime : r.moment with
  | error g => exact hsame (.time htime)
  | ok time =>
    cases hmessage : r.message with
    | error g => exact hsame (.message htime hmessage)
    | ok message =>
      by_cases hincident : r.incident = .missing
      · exact hsame (.noError htime hmessage hincident)
      · have hline := (line_of_said htime hmessage hincident hmore htemplate hroot hdata).2
        obtain ⟨⟨name, d, hsaid, hlong⟩, rfl⟩ := (hline f).1 h
        exact .tooLong htime hmessage hincident hsaid hlong

end Fault

end Log

end Stencil
