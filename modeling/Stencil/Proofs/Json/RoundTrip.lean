import Stencil.Proofs.Datum
import Stencil.Proofs.Json.Numbers
import Stencil.Proofs.Json.Strings

/-!
# What is written in JSON is read again

Values that are made of texts and whole numbers, with lists and with mappings that have texts for keys, are
written on one line of visible characters, and the line is read as the same value (`read_write`), unless one of the
numbers is too long to be written (`write_eq_error_iff`). A value is read where it ends, whatever comes after it,
and no value starts with a blank or a closing bracket, so the parts of a list and of a mapping are read one after
the other. The reader has more fuel than there are characters, and each part leaves some.
-/

namespace Stencil

namespace Json

open Datum

/-- A value made of texts and whole numbers, of lists, and of mappings with texts for keys, each once. -/
inductive Plain : Datum → Prop
  | text (s : String) : Plain (.text s)
  | int (i : Int) : Plain (.int i)
  | list {items : List Datum} (items_plain : ∀ d ∈ items, Plain d) : Plain (.list items)
  | map {entries : List (Scalar × Datum)} (distinct : Distinct entries)
      (named : ∀ p ∈ entries, ∃ name, p.1 = .text name) (values : ∀ p ∈ entries, Plain p.2) : Plain (.map entries)

/-- Characters that start with neither white space nor a closing bracket. -/
def Begins (cs : List Char) : Prop := ∃ c rest, cs = c :: rest ∧ isSpace c = false ∧ c ≠ ']' ∧ c ≠ '\x7d'

/-- How a value is written: in visible characters, which are read as the value wherever it ends. -/
structure Written (d : Datum) (cs : List Char) : Prop where
  eq : writeChars d = .ok cs
  visible : ∀ c ∈ cs, Visible c
  begins : Begins cs
  value : ∀ fuel rest, cs.length ≤ fuel → Ends rest → value fuel (cs ++ rest) = .ok (d, rest)

variable {cs rest : List Char} {items : List Datum} {entries : List (Scalar × Datum)}

theorem skipSpace_cons {c : Char} (h : isSpace c = false) (rest : List Char) : skipSpace (c :: rest) = c :: rest := by
  rw [skipSpace, List.dropWhile_cons_of_neg (by simp [h])]

theorem Begins.skipSpace_append (h : Begins cs) (rest : List Char) : skipSpace (cs ++ rest) = cs ++ rest := by
  obtain ⟨c, more, rfl, hc, -⟩ := h
  exact skipSpace_cons hc (more ++ rest)

theorem Begins.length_pos (h : Begins cs) : 0 < cs.length := by
  obtain ⟨c, more, rfl, -⟩ := h
  exact Nat.succ_pos _

theorem Begins.append (h : Begins cs) (rest : List Char) : Begins (cs ++ rest) := by
  obtain ⟨c, more, rfl, hc⟩ := h
  exact ⟨c, more ++ rest, rfl, hc⟩

theorem begins_writeString (s : String) : Begins (writeString s) :=
  ⟨'"', _, rfl, by decide, by decide, by decide⟩

theorem stringRest_writeString (s : String) (rest : List Char) :
    writeString s ++ rest = '"' :: (s.toList.flatMap writeChar ++ '"' :: rest) ∧
      ∀ opening, stringRest opening (s.toList.flatMap writeChar ++ '"' :: rest) = .ok (s.toList, rest) := by
  refine ⟨?_, fun opening => stringRest_string s.toList rest⟩
  rw [writeString, List.cons_append, List.append_assoc, List.singleton_append]

/-! ### Values without parts -/

theorem written_text (s : String) : Written (.text s) (writeString s) where
  eq := rfl
  visible := visible_writeString s
  begins := begins_writeString s
  value := by
    intro fuel rest hfuel _
    have hpos := (begins_writeString s).length_pos
    obtain ⟨fuel, rfl⟩ := Nat.exists_eq_succ_of_ne_zero (Nat.ne_zero_of_lt (hpos.trans_le hfuel))
    obtain ⟨hchars, hread⟩ := stringRest_writeString s rest
    rw [hchars, Json.value, hread]
    simp [bind, Except.bind, pure, Except.pure]

theorem visible_of_isDigit {c : Char} (h : c.isDigit = true) : Visible c := by
  simp only [Char.isDigit, Bool.and_eq_true, decide_eq_true_eq, ge_iff_le, UInt32.le_iff_toNat_le] at h
  exact ⟨Nat.le_trans (by decide) h.1, Nat.lt_of_le_of_lt h.2 (by decide)⟩

theorem value_plain {c : Char} (h : c.isDigit = true ∨ c = '-') (fuel : Nat) (cs : List Char) :
    Json.value (fuel + 1) (c :: cs) = plainValue (c :: cs) := by
  have hother : ∀ d, d.isDigit = false → d ≠ '-' → c ≠ d := by
    rintro d hd hminus rfl
    exact h.elim (by simp [hd]) hminus
  rw [Json.value]
  · exact fun _ heq => hother '"' rfl (by decide) (List.cons.inj heq).1
  · exact fun _ heq => hother '[' rfl (by decide) (List.cons.inj heq).1
  · exact fun _ heq => hother '\x7b' rfl (by decide) (List.cons.inj heq).1

theorem writeChars_int (i : Int) : writeChars (.int i) = (writeInt i).map String.toList := rfl

theorem written_int {i : Int} (hi : Decimal.isWritable i = true) : Written (.int i) (toString i).toList := by
  obtain ⟨c, ds, hc, hds, hchars⟩ := exists_digits i
  -- the first character is a digit or a minus sign, and all others are digits
  obtain ⟨d, more, hd, hmore, hchars⟩ : ∃ d more, (d.isDigit = true ∨ d = '-') ∧ (∀ x ∈ more, x.isDigit = true) ∧
      (toString i).toList = d :: more := by
    rcases hchars with hchars | hchars
    · exact ⟨c, ds, Or.inl hc, hds, hchars⟩
    · exact ⟨'-', c :: ds, Or.inr rfl, List.forall_mem_cons.2 ⟨hc, hds⟩, hchars⟩
  have hother : ∀ x : Char, x.isDigit = false → x ≠ '-' → d ≠ x := by
    rintro x hx hminus rfl
    exact hd.elim (by simp [hx]) hminus
  refine ⟨?_, ?_, ⟨d, more, hchars, ?_, ?_, ?_⟩, fun fuel rest hfuel hrest => ?_⟩
  · rw [writeChars_int, writeInt, if_pos hi]
    rfl
  · rw [hchars, List.forall_mem_cons]
    refine ⟨hd.elim visible_of_isDigit ?_, fun x hx => visible_of_isDigit (hmore x hx)⟩
    rintro rfl
    decide
  · simp [isSpace, hother]
  · exact hother ']' rfl (by decide)
  · exact hother '\x7d' rfl (by decide)
  · have hpos : 0 < (toString i).toList.length := by
      rw [hchars]
      exact Nat.succ_pos _
    obtain ⟨fuel, rfl⟩ := Nat.exists_eq_succ_of_ne_zero (Nat.ne_zero_of_lt (hpos.trans_le hfuel))
    have hread := plainValue_int hi hrest
    rw [hchars, List.cons_append] at hread ⊢
    rw [value_plain hd, hread]

/-! ### Lists -/

/-- Items that are written one after the other are read up to the closing bracket. -/
theorem exists_writeItems (hne : items ≠ []) (h : ∀ d ∈ items, ∃ cs, Written d cs) :
    ∃ parts, writeItems items = .ok parts ∧ (∀ c ∈ parts, Visible c) ∧ Begins parts ∧
      ∀ fuel rest, parts.length < fuel → elements fuel (parts ++ ']' :: rest) = .ok (items, rest) := by
  induction items with
  | nil => exact absurd rfl hne
  | cons d items ih =>
    obtain ⟨⟨here, hhere⟩, hitems⟩ := List.forall_mem_cons.1 h
    cases items with
    | nil =>
      refine ⟨here, ?_, hhere.visible, hhere.begins, fun fuel rest hfuel => ?_⟩
      · rw [writeItems, hhere.eq]
      · obtain ⟨fuel, rfl⟩ := Nat.exists_eq_succ_of_ne_zero (Nat.ne_zero_of_lt hfuel)
        have hvalue := hhere.value fuel (']' :: rest) (Nat.le_of_lt_succ hfuel) (ends_cons (by simp) rest)
        rw [elements, hvalue]
        simp [skipSpace_cons, isSpace, bind, Except.bind, pure, Except.pure]
    | cons d' items =>
      obtain ⟨parts, heq, hvisible, hbegins, hread⟩ := ih (List.cons_ne_nil d' items) hitems
      refine ⟨here ++ ',' :: ' ' :: parts, ?_, ?_, hhere.begins.append _, fun fuel rest hfuel => ?_⟩
      · rw [writeItems, hhere.eq, heq]
        · rfl
        · exact List.cons_ne_nil d' items
      · simp only [List.forall_mem_append, List.forall_mem_cons]
        exact ⟨hhere.visible, by decide, by decide, hvisible⟩
      · rw [List.length_append, List.length_cons, List.length_cons] at hfuel
        obtain ⟨fuel, rfl⟩ := Nat.exists_eq_succ_of_ne_zero (Nat.ne_zero_of_lt hfuel)
        have hvalue := hhere.value fuel (',' :: ' ' :: (parts ++ ']' :: rest)) (by omega) (ends_cons (by simp) _)
        have hblank : skipSpace (' ' :: (parts ++ ']' :: rest)) = parts ++ ']' :: rest :=
          hbegins.skipSpace_append (']' :: rest)
        have hmore := hread fuel rest (by omega)
        simp only [List.append_assoc, List.cons_append]
        rw [elements, hvalue]
        simp [skipSpace_cons, isSpace, hblank, hmore, bind, Except.bind, pure, Except.pure]

theorem exists_written_list (h : ∀ d ∈ items, ∃ cs, Written d cs) : ∃ cs, Written (.list items) cs := by
  by_cases hne : items = []
  · subst hne
    refine ⟨['[', ']'], rfl, ?_, ⟨'[', [']'], rfl, by decide⟩, fun fuel rest hfuel _ => ?_⟩
    · exact List.forall_mem_cons.2 ⟨by decide, List.forall_mem_singleton.2 (by decide)⟩
    · obtain ⟨fuel, rfl⟩ := Nat.exists_eq_succ_of_ne_zero (Nat.ne_zero_of_lt hfuel)
      rw [List.cons_append, List.singleton_append, Json.value, skipSpace_cons (by decide)]
      rfl
  · obtain ⟨parts, heq, hvisible, hbegins, hread⟩ := exists_writeItems hne h
    refine ⟨'[' :: (parts ++ [']']), ?_, ?_, ⟨'[', _, rfl, by decide⟩, fun fuel rest hfuel _ => ?_⟩
    · rw [writeChars, heq]
      rfl
    · rw [List.forall_mem_cons, List.forall_mem_append]
      exact ⟨by decide, hvisible, List.forall_mem_singleton.2 (by decide)⟩
    · rw [List.length_cons, List.length_append, List.length_singleton] at hfuel
      obtain ⟨fuel, rfl⟩ := Nat.exists_eq_succ_of_ne_zero (Nat.ne_zero_of_lt hfuel)
      have hitems := hread fuel rest (by omega)
      obtain ⟨c, more, hparts, hspace, hlist, -⟩ := hbegins
      rw [hparts] at hitems ⊢
      simp only [List.cons_append, List.append_assoc, List.nil_append] at hitems ⊢
      rw [Json.value, skipSpace_cons hspace]
      split
      · next heq => exact absurd (List.cons.inj heq).1 hlist
      · rw [hitems]
        rfl

/-! ### Mappings -/

section Field

variable {d : Datum} {here : List Char} {fuel : Nat}

/-- After a name and its value the object may be closed. -/
theorem members_closed (name : String) (hhere : Written d here) (hfuel : here.length ≤ fuel) (rest : List Char) :
    members (fuel + 1) (writeString name ++ ':' :: ' ' :: (here ++ '\x7d' :: rest)) =
      .ok ([(.text name, d)], rest) := by
  have hvalue := hhere.value fuel ('\x7d' :: rest) hfuel (ends_cons (by simp) rest)
  have hblank : skipSpace (' ' :: (here ++ '\x7d' :: rest)) = here ++ '\x7d' :: rest :=
    hhere.begins.skipSpace_append ('\x7d' :: rest)
  obtain ⟨hchars, hname⟩ := stringRest_writeString name (':' :: ' ' :: (here ++ '\x7d' :: rest))
  rw [hchars, members, hname]
  simp [skipSpace_cons, isSpace, hblank, hvalue, bind, Except.bind, pure, Except.pure]

/-- After a name and its value more may follow behind a comma. -/
theorem members_comma (name : String) (hhere : Written d here) (hfuel : here.length ≤ fuel) {tail : List Char}
    (htail : members fuel (skipSpace tail) = .ok (entries, rest)) :
    members (fuel + 1) (writeString name ++ ':' :: ' ' :: (here ++ ',' :: tail)) =
      .ok ((.text name, d) :: entries, rest) := by
  have hvalue := hhere.value fuel (',' :: tail) hfuel (ends_cons (by simp) tail)
  have hblank : skipSpace (' ' :: (here ++ ',' :: tail)) = here ++ ',' :: tail :=
    hhere.begins.skipSpace_append (',' :: tail)
  obtain ⟨hchars, hname⟩ := stringRest_writeString name (':' :: ' ' :: (here ++ ',' :: tail))
  rw [hchars, members, hname]
  simp [skipSpace_cons, isSpace, hblank, hvalue, htail, bind, Except.bind, pure, Except.pure]

end Field

/-- Entries that are written one after the other are read up to the closing brace. -/
theorem exists_writeEntries (hne : entries ≠ []) (hnamed : ∀ p ∈ entries, ∃ name, p.1 = .text name)
    (h : ∀ p ∈ entries, ∃ cs, Written p.2 cs) :
    ∃ parts, writeEntries entries = .ok parts ∧ (∀ c ∈ parts, Visible c) ∧ Begins parts ∧
      ∀ fuel rest, parts.length < fuel → members fuel (parts ++ '\x7d' :: rest) = .ok (entries, rest) := by
  induction entries with
  | nil => exact absurd rfl hne
  | cons p entries ih =>
    obtain ⟨k, d⟩ := p
    obtain ⟨⟨name, rfl⟩, hnames⟩ := List.forall_mem_cons.1 hnamed
    obtain ⟨⟨here, hhere⟩, hentries⟩ := List.forall_mem_cons.1 h
    have hkey := visible_writeString name
    cases entries with
    | nil =>
      refine ⟨writeString name ++ ':' :: ' ' :: here, ?_, ?_, (begins_writeString name).append _,
        fun fuel rest hfuel => ?_⟩
      · rw [writeEntries, writeKey, hhere.eq]
        rfl
      · simp only [List.forall_mem_append, List.forall_mem_cons]
        exact ⟨hkey, by decide, by decide, hhere.visible⟩
      · rw [List.length_append, List.length_cons, List.length_cons] at hfuel
        obtain ⟨fuel, rfl⟩ := Nat.exists_eq_succ_of_ne_zero (Nat.ne_zero_of_lt hfuel)
        rw [List.append_assoc, List.cons_append, List.cons_append]
        exact members_closed name hhere (by omega) rest
    | cons p entries =>
      obtain ⟨parts, heq, hvisible, hbegins, hread⟩ := ih (List.cons_ne_nil p entries) hnames hentries
      refine ⟨writeString name ++ ':' :: ' ' :: (here ++ ',' :: ' ' :: parts), ?_, ?_,
        (begins_writeString name).append _, fun fuel rest hfuel => ?_⟩
      · rw [writeEntries, writeKey, hhere.eq, heq]
        · rfl
        · exact List.cons_ne_nil p entries
      · simp only [List.forall_mem_append, List.forall_mem_cons]
        exact ⟨hkey, by decide, by decide, hhere.visible, by decide, by decide, hvisible⟩
      · simp only [List.length_append, List.length_cons] at hfuel
        obtain ⟨fuel, rfl⟩ := Nat.exists_eq_succ_of_ne_zero (Nat.ne_zero_of_lt hfuel)
        have hmore : members fuel (skipSpace (' ' :: (parts ++ '\x7d' :: rest))) = .ok (p :: entries, rest) :=
          (congrArg _ (hbegins.skipSpace_append ('\x7d' :: rest))).trans (hread fuel rest (by omega))
        simp only [List.append_assoc, List.cons_append]
        exact members_comma name hhere (by omega) hmore

theorem exists_written_map (hdistinct : Distinct entries) (hnamed : ∀ p ∈ entries, ∃ name, p.1 = .text name)
    (h : ∀ p ∈ entries, ∃ cs, Written p.2 cs) : ∃ cs, Written (.map entries) cs := by
  by_cases hne : entries = []
  · subst hne
    refine ⟨['\x7b', '\x7d'], rfl, ?_, ⟨'\x7b', ['\x7d'], rfl, by decide⟩, fun fuel rest hfuel _ => ?_⟩
    · exact List.forall_mem_cons.2 ⟨by decide, List.forall_mem_singleton.2 (by decide)⟩
    · obtain ⟨fuel, rfl⟩ := Nat.exists_eq_succ_of_ne_zero (Nat.ne_zero_of_lt hfuel)
      rw [List.cons_append, List.singleton_append, Json.value, skipSpace_cons (by decide)]
      rfl
  · obtain ⟨parts, heq, hvisible, hbegins, hread⟩ := exists_writeEntries hne hnamed h
    refine ⟨'\x7b' :: (parts ++ ['\x7d']), ?_, ?_, ⟨'\x7b', _, rfl, by decide⟩, fun fuel rest hfuel _ => ?_⟩
    · rw [writeChars, heq]
      rfl
    · rw [List.forall_mem_cons, List.forall_mem_append]
      exact ⟨by decide, hvisible, List.forall_mem_singleton.2 (by decide)⟩
    · rw [List.length_cons, List.length_append, List.length_singleton] at hfuel
      obtain ⟨fuel, rfl⟩ := Nat.exists_eq_succ_of_ne_zero (Nat.ne_zero_of_lt hfuel)
      have hentries := hread fuel rest (by omega)
      obtain ⟨c, more, hparts, hspace, -, hmap⟩ := hbegins
      rw [hparts] at hentries ⊢
      simp only [List.cons_append, List.append_assoc, List.nil_append] at hentries ⊢
      rw [Json.value, skipSpace_cons hspace]
      split
      · next heq => exact absurd (List.cons.inj heq).1 hmap
      · rw [hentries]
        simp [ofEntries_eq_self hdistinct, bind, Except.bind, pure, Except.pure]

/-! ### Numbers that are too long -/

/-- Of values that are written or too long, items cannot be written if one of them is too long. -/
theorem writeItems_eq_tooLong
    (h : ∀ d ∈ items, (∃ cs, writeChars d = .ok cs) ∨ writeChars d = .error .tooLong)
    (hlong : ∃ d ∈ items, writeChars d = .error .tooLong) : writeItems items = .error .tooLong := by
  induction items with
  | nil =>
    obtain ⟨d, hd, -⟩ := hlong
    exact absurd hd List.not_mem_nil
  | cons d items ih =>
    obtain ⟨hhere, hitems⟩ := List.forall_mem_cons.1 h
    rw [List.exists_mem_cons_iff] at hlong
    cases items with
    | nil => rw [writeItems, hlong.resolve_right (by simp)]
    | cons d' items =>
      rw [writeItems]
      · rcases hhere with ⟨cs, hcs⟩ | hhere
        · have hmore := ih hitems (hlong.resolve_left (by simp [hcs]))
          rw [hcs, hmore]
          rfl
        · rw [hhere]
          rfl
      · exact List.cons_ne_nil d' items

theorem writeEntries_eq_tooLong (hnamed : ∀ p ∈ entries, ∃ name, p.1 = .text name)
    (h : ∀ p ∈ entries, (∃ cs, writeChars p.2 = .ok cs) ∨ writeChars p.2 = .error .tooLong)
    (hlong : ∃ p ∈ entries, writeChars p.2 = .error .tooLong) : writeEntries entries = .error .tooLong := by
  induction entries with
  | nil =>
    obtain ⟨p, hp, -⟩ := hlong
    exact absurd hp List.not_mem_nil
  | cons p entries ih =>
    obtain ⟨k, d⟩ := p
    obtain ⟨⟨name, rfl⟩, hnames⟩ := List.forall_mem_cons.1 hnamed
    obtain ⟨hhere, hentries⟩ := List.forall_mem_cons.1 h
    rw [List.exists_mem_cons_iff] at hlong
    cases entries with
    | nil =>
      rw [writeEntries, writeKey, hlong.resolve_right (by simp)]
      rfl
    | cons p entries =>
      rw [writeEntries, writeKey]
      · rcases hhere with ⟨cs, hcs⟩ | hhere
        · have hmore := ih hnames hentries (hlong.resolve_left (by simp [hcs]))
          rw [hcs, hmore]
          rfl
        · rw [hhere]
          rfl
      · exact List.cons_ne_nil p entries

/-! ### The line -/

theorem exists_written {d : Datum} (h : Plain d) (hd : d.isWritable = true) : ∃ cs, Written d cs := by
  induction h with
  | text s => exact ⟨writeString s, written_text s⟩
  | int i => exact ⟨(toString i).toList, written_int hd⟩
  | list items_plain ih =>
    have hitems := isWritable_list_iff.1 hd
    exact exists_written_list fun d hmem => ih d hmem (hitems d hmem)
  | map distinct named values ih =>
    have hvalues := (isWritable_map_iff_of_named named).1 hd
    exact exists_written_map distinct named fun p hp => ih p hp (hvalues p hp)

theorem writeChars_eq_tooLong {d : Datum} (h : Plain d) (hd : d.isWritable = false) :
    writeChars d = .error .tooLong := by
  -- what is not too long is written
  have hor : ∀ {d}, Plain d → (d.isWritable = false → writeChars d = .error .tooLong) →
      (∃ cs, writeChars d = .ok cs) ∨ writeChars d = .error .tooLong := by
    intro d hplain hlong
    cases hd : d.isWritable with
    | true =>
      obtain ⟨cs, hcs⟩ := exists_written hplain hd
      exact Or.inl ⟨cs, hcs.eq⟩
    | false => exact Or.inr (hlong hd)
  induction h with
  | text s => cases hd
  | int i =>
    have hi : ¬ Decimal.isWritable i = true := ne_true_of_eq_false hd
    rw [writeChars_int, writeInt, if_neg hi]
    rfl
  | @list items items_plain ih =>
    obtain ⟨d, hmem, hlong⟩ : ∃ d ∈ items, d.isWritable = false := by
      simpa using mt isWritable_list_iff.2 (ne_true_of_eq_false hd)
    have hitems := writeItems_eq_tooLong (fun d hmem => hor (items_plain d hmem) (ih d hmem))
      ⟨d, hmem, ih d hmem hlong⟩
    rw [writeChars, hitems]
    rfl
  | @map entries distinct named values ih =>
    obtain ⟨p, hmem, hlong⟩ : ∃ p ∈ entries, p.2.isWritable = false := by
      simpa using mt (isWritable_map_iff_of_named named).2 (ne_true_of_eq_false hd)
    have hentries := writeEntries_eq_tooLong named (fun p hp => hor (values p hp) (ih p hp))
      ⟨p, hmem, ih p hmem hlong⟩
    rw [writeChars, hentries]
    rfl

/-- A value of texts and whole numbers, none of them too long, is written in visible characters, and read again as
what it is. -/
theorem read_write {d : Datum} (h : Plain d) (hd : d.isWritable = true) :
    ∃ line, write d = .ok line ∧ (∀ c ∈ line.toList, Visible c) ∧ read line = .ok d := by
  obtain ⟨cs, hcs⟩ := exists_written h hd
  refine ⟨String.ofList cs, ?_, ?_, ?_⟩
  · rw [write, hcs.eq]
    rfl
  · rw [String.toList_ofList]
    exact hcs.visible
  · have hvalue := hcs.value (2 * cs.length + 1) [] (by omega) ends_nil
    have hblank := hcs.begins.skipSpace_append []
    rw [List.append_nil] at hvalue hblank
    have hmark : ∀ more, cs ≠ '\uFEFF' :: more := by
      rintro more rfl
      exact absurd (hcs.visible _ List.mem_cons_self) (by decide)
    have hread : readChars cs = .ok d := by
      rw [readChars, hblank, hvalue]
      · rfl
      · exact hmark
    rw [read, String.toList_ofList, hread]

/-- Such a value cannot be written exactly if a number in it is too long, and that is the fault. -/
theorem write_eq_error_iff {d : Datum} (h : Plain d) {f : Unwritable} :
    write d = .error f ↔ d.isWritable = false ∧ f = .tooLong := by
  cases hd : d.isWritable with
  | true =>
    obtain ⟨line, hline, -⟩ := read_write h hd
    simp [hline]
  | false =>
    rw [write, writeChars_eq_tooLong h hd, and_iff_right rfl]
    show Except.error Unwritable.tooLong = Except.error f ↔ f = .tooLong
    rw [Except.error.injEq, eq_comm]

end Json

end Stencil
