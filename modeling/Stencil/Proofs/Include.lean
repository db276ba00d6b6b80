import Mathlib.Data.List.Infix
import Mathlib.Data.List.TakeWhile
import Stencil.Include
import Stencil.Proofs.Text.Find

/-!
# Includes as they are written and as they are found

An include can be written in many ways: with any blanks between its parts and with either quote on either side
of its name (`Wording`). What a text begins with is taken for an include only if it is written so
(`exists_wording`), and an include whose name holds no quote is always found, with just its name, whatever
follows it (`include?_chars`).

The includes of a text are found from the left (`sites`), and they cut the text into its segments
(`segments_eq_cut`). A text that is put together from literal text and includes is cut into these parts again
(`segments_source`), as long as no opening marker stands in the literal text between two includes. It is not
enough that none stands in any of several literals that follow each other (`opened_at_border`): the marker can
begin in one of them and end in the next.
-/

namespace Stencil

/-! ### How an include is written -/

/-- An include as it is written. -/
structure Wording where
  /-- The blanks after the opening marker. -/
  lead : List Char
  /-- The blanks before the name. -/
  gap : List Char
  opening : Char
  name : List Char
  closing : Char
  /-- The blanks before the closing marker. -/
  trail : List Char
  lead_blank : ∀ c ∈ lead, Text.isBlank c = true := by exact List.all_eq_true.1 (by decide)
  gap_blank : ∀ c ∈ gap, Text.isBlank c = true := by exact List.all_eq_true.1 (by decide)
  gap_ne_nil : gap ≠ [] := by decide
  isQuote_opening : isQuote opening = true := by decide
  name_ne_nil : name ≠ [] := by decide
  not_mem_name : '\n' ∉ name := by decide
  isQuote_closing : isQuote closing = true := by decide
  trail_blank : ∀ c ∈ trail, Text.isBlank c = true := by exact List.all_eq_true.1 (by decide)

namespace Wording

/-- What stands between the opening marker and the name. -/
def head (w : Wording) : List Char :=
  w.lead ++ (['i', 'n', 'c', 'l', 'u', 'd', 'e'] ++ (w.gap ++ [w.opening]))

/-- What stands between the name and the closing marker. -/
def tail (w : Wording) : List Char := w.closing :: w.trail

/-- The characters of an include. -/
def chars (w : Wording) : List Char := ['<', '%'] ++ (w.head ++ (w.name ++ (w.tail ++ ['%', '>'])))

/-- The name of the include holds no quote. -/
def Plain (w : Wording) : Prop := ∀ c ∈ w.name, isQuote c = false

theorem plain_iff {w : Wording} : w.Plain ↔ w.name.any isQuote = false := by
  simp [Plain]

end Wording

/-! ### Finding an include at the start of a text -/

theorem dropWhile_blank_append {blanks rest : List Char} {c : Char} (h : ∀ b ∈ blanks, Text.isBlank b = true)
    (hc : Text.isBlank c = false) : (blanks ++ c :: rest).dropWhile Text.isBlank = c :: rest := by
  rw [List.dropWhile_append_of_pos h, List.dropWhile_cons_of_neg (by simp [hc])]

theorem includeEnd?_append {blanks rest : List Char} (h : ∀ b ∈ blanks, Text.isBlank b = true) :
    includeEnd? (blanks ++ '%' :: '>' :: rest) = some rest := by
  rw [includeEnd?, dropWhile_blank_append h (by decide)]
  exact Text.dropPrefix?_eq_some_iff.2 rfl

/-- A text is the blanks that it begins with, and the rest. -/
theorem exists_blanks (cs : List Char) :
    ∃ blanks, (∀ b ∈ blanks, Text.isBlank b = true) ∧ cs = blanks ++ cs.dropWhile Text.isBlank :=
  ⟨cs.takeWhile Text.isBlank, fun _ hb => List.mem_takeWhile_imp hb, List.takeWhile_append_dropWhile.symm⟩

theorem includeEnd?_eq_append {cs after : List Char} (h : includeEnd? cs = some after) :
    ∃ blanks, (∀ b ∈ blanks, Text.isBlank b = true) ∧ cs = blanks ++ '%' :: '>' :: after := by
  obtain ⟨blanks, hblanks, hcs⟩ := exists_blanks cs
  rw [Text.dropPrefix?_eq_some_iff.1 h] at hcs
  exact ⟨blanks, hblanks, hcs⟩

/-- The rest of a name without quotes is found up to the quote after it. -/
theorem includeName?_append {name blanks rest : List Char} {quote : Char}
    (hquotes : ∀ c ∈ name, isQuote c = false) (hline : '\n' ∉ name) (hquote : isQuote quote = true)
    (hblanks : ∀ b ∈ blanks, Text.isBlank b = true) :
    includeName? (name ++ quote :: (blanks ++ '%' :: '>' :: rest)) = some (name, rest) := by
  induction name with
  | nil => rw [List.nil_append, includeName?, if_pos hquote, includeEnd?_append hblanks]
  | cons c name ih =>
    obtain ⟨hc, hquotes⟩ := List.forall_mem_cons.1 hquotes
    have hne : c ≠ '\n' := fun h => hline (h ▸ List.mem_cons_self)
    have hcn : ¬ isQuote c = true := by simp [hc]
    rw [List.cons_append, includeName?, if_neg hcn]
    dsimp only
    rw [if_neg hne, ih hquotes fun h => hline (List.mem_cons_of_mem c h), Option.map_some]

theorem includeName?_eq_append {cs name after : List Char} (h : includeName? cs = some (name, after)) :
    ∃ quote blanks, isQuote quote = true ∧ (∀ b ∈ blanks, Text.isBlank b = true) ∧ '\n' ∉ name ∧
      cs = name ++ quote :: (blanks ++ '%' :: '>' :: after) := by
  induction cs generalizing name with
  | nil => simp [includeName?] at h
  | cons c rest ih =>
    rw [includeName?] at h
    split at h
    · next after' hend =>
      rw [Option.some.injEq, Prod.mk.injEq] at h
      obtain ⟨rfl, rfl⟩ := h
      split at hend
      · next hquote =>
        obtain ⟨blanks, hblanks, rfl⟩ := includeEnd?_eq_append hend
        exact ⟨c, blanks, hquote, hblanks, List.not_mem_nil, rfl⟩
      · cases hend
    · split at h
      · cases h
      · next hne =>
        rw [Option.map_eq_some_iff] at h
        obtain ⟨⟨name', after'⟩, hname, heq⟩ := h
        obtain ⟨rfl, rfl⟩ := Prod.mk.inj heq
        obtain ⟨quote, blanks, hquote, hblanks, hline, rfl⟩ := ih hname
        refine ⟨quote, blanks, hquote, hblanks, ?_, rfl⟩
        rw [List.mem_cons, not_or]
        exact ⟨Ne.symm hne, hline⟩

/-- An include whose name holds no quote is found, whatever follows it. -/
theorem include?_chars {w : Wording} (h : w.Plain) (rest : List Char) :
    include? (w.chars ++ rest) = some (w.name, rest) := by
  obtain ⟨blank, gap, hgap⟩ := List.exists_cons_of_ne_nil w.gap_ne_nil
  obtain ⟨first, name, hname⟩ := List.exists_cons_of_ne_nil w.name_ne_nil
  have hblanks := w.gap_blank
  rw [hgap, List.forall_mem_cons] at hblanks
  have hline := w.not_mem_name
  rw [hname, List.mem_cons, not_or] at hline
  have hquotes := h
  rw [Wording.Plain, hname, List.forall_mem_cons] at hquotes
  have hopening : Text.isBlank w.opening = false := by
    have hquote := w.isQuote_opening
    rw [isQuote, Bool.or_eq_true, beq_iff_eq, beq_iff_eq] at hquote
    rcases hquote with heq | heq <;> rw [heq] <;> decide
  have hfirst : (isQuote w.opening && first != '\n') = true := by
    rw [w.isQuote_opening, Bool.true_and, bne_iff_ne]
    exact Ne.symm hline.1
  have hopen : Text.dropPrefix? ['<', '%'] (w.chars ++ rest) =
      some (w.lead ++ 'i' :: 'n' :: 'c' :: 'l' :: 'u' :: 'd' :: 'e' :: blank ::
        (gap ++ w.opening :: first :: (name ++ w.closing :: (w.trail ++ '%' :: '>' :: rest)))) := by
    rw [Text.dropPrefix?_eq_some_iff, Wording.chars, Wording.head, Wording.tail, hgap, hname]
    simp
  have hword : ∀ rest, Text.dropPrefix? ['i', 'n', 'c', 'l', 'u', 'd', 'e']
      ('i' :: 'n' :: 'c' :: 'l' :: 'u' :: 'd' :: 'e' :: rest) = some rest :=
    fun rest => Text.dropPrefix?_eq_some_iff.2 rfl
  rw [include?, hopen, Option.bind_eq_bind, Option.bind_some, dropWhile_blank_append w.lead_blank (by decide),
    hword, Option.bind_some]
  dsimp only
  rw [if_pos hblanks.1, dropWhile_blank_append hblanks.2 hopening]
  dsimp only
  rw [if_pos hfirst, includeName?_append hquotes.2 hline.2 w.isQuote_closing w.trail_blank, Option.map_some,
    hname]

/-- What is found is an include as it is written. -/
theorem exists_wording {text name after : List Char} (h : include? text = some (name, after)) :
    ∃ w : Wording, w.name = name ∧ text = w.chars ++ after := by
  simp only [include?, Option.bind_eq_bind, Option.bind_eq_some_iff] at h
  obtain ⟨inner, hopen, rest, hword, h⟩ := h
  obtain rfl := Text.dropPrefix?_eq_some_iff.1 hopen
  have hinner := Text.dropPrefix?_eq_some_iff.1 hword
  split at h
  · cases h
  · next blank rest =>
    split at h
    · next hblank =>
      split at h
      · next quote first rest' hgap =>
        split at h
        · next hfirst =>
          rw [Option.map_eq_some_iff] at h
          obtain ⟨⟨name', after'⟩, hname, heq⟩ := h
          obtain ⟨rfl, rfl⟩ := Prod.mk.inj heq
          obtain ⟨closing, trail, hclosing, htrail, hline, rfl⟩ := includeName?_eq_append hname
          rw [Bool.and_eq_true, bne_iff_ne] at hfirst
          obtain ⟨lead, hlead, hinner'⟩ := exists_blanks inner
          obtain ⟨gap, hgaps, hrest⟩ := exists_blanks rest
          have hline' : '\n' ∉ first :: name' := by
            rw [List.mem_cons, not_or]
            exact ⟨Ne.symm hfirst.2, hline⟩
          refine ⟨⟨lead, blank :: gap, quote, first :: name', closing, trail, hlead,
            List.forall_mem_cons.2 ⟨hblank, hgaps⟩, List.cons_ne_nil _ _, hfirst.1, List.cons_ne_nil _ _, hline',
            hclosing, htrail⟩, rfl, ?_⟩
          rw [hinner', hinner, hrest, hgap]
          simp [Wording.chars, Wording.head, Wording.tail]
        · cases h
      · cases h
    · cases h

/-- An include begins with an opening marker. -/
theorem prefix_of_include? {text name after : List Char} (h : include? text = some (name, after)) :
    ['<', '%'] <+: text := by
  obtain ⟨w, -, rfl⟩ := exists_wording h
  exact (List.prefix_append _ _).trans (List.prefix_append _ _)

/-! ### The includes of a text -/

/-- A stretch of a text. -/
structure Stretch where
  /-- The number of characters before it. -/
  start : Nat
  chars : List Char
  deriving Repr, DecidableEq

/-- The number of characters before the end of a stretch. -/
def Stretch.stop (d : Stretch) : Nat := d.start + d.chars.length

/-- An include that is found in a text. -/
structure Site extends Stretch where
  name : List Char
  deriving Repr, DecidableEq

/-- The includes of what follows some characters of a text. Behind an include the search goes on. -/
def sitesFrom (start : Nat) (text : List Char) : List Site :=
  match _h : include? text with
  | some (name, after) =>
    let chars := text.take (text.length - after.length)
    ⟨⟨start, chars⟩, name⟩ :: sitesFrom (start + chars.length) after
  | none =>
    match text with
    | [] => []
    | _ :: rest => sitesFrom (start + 1) rest
termination_by text.length
decreasing_by
  · exact length_include? ‹_›
  · simp

/-- The includes of a text, from left to right. -/
def sites (text : List Char) : List Site := sitesFrom 0 text

/-- The segments that includes cut a text into; the last of those before ended at `place`. -/
def cutFrom (text : List Char) (place : Nat) : List Site → List Segment
  | [] => [.literal (text.drop place)]
  | s :: rest =>
    .literal ((text.drop place).take (s.start - place)) :: .include s.name ::
      cutFrom text s.stop rest

variable {start : Nat} {text span name after rest : List Char} {c : Char}

theorem sitesFrom_nil : sitesFrom start [] = [] := by
  rw [sitesFrom]
  rfl

theorem sitesFrom_cons (h : include? (c :: rest) = none) :
    sitesFrom start (c :: rest) = sitesFrom (start + 1) rest := by
  rw [sitesFrom]
  split
  · next hsome => simp [h] at hsome
  · rfl

theorem sitesFrom_append (h : include? (span ++ after) = some (name, after)) :
    sitesFrom start (span ++ after) = ⟨⟨start, span⟩, name⟩ :: sitesFrom (start + span.length) after := by
  rw [sitesFrom]
  split
  · next name' after' hsome =>
    rw [h, Option.some.injEq, Prod.mk.injEq] at hsome
    obtain ⟨rfl, rfl⟩ := hsome
    simp
  · next hnone => simp [h] at hnone

theorem segmentsAfter_nil {literal : List Char} : segmentsAfter literal [] = [.literal literal.reverse] := by
  rw [segmentsAfter]
  rfl

/-- A character at which no include starts stands for itself. -/
theorem segmentsAfter_cons {literal : List Char} (h : include? (c :: rest) = none) :
    segmentsAfter literal (c :: rest) = segmentsAfter (c :: literal) rest := by
  rw [segmentsAfter]
  split
  · next hsome => simp [h] at hsome
  · rfl

/-- An include ends the literal text before it. -/
theorem segmentsAfter_include {literal : List Char} (h : include? text = some (name, after)) :
    segmentsAfter literal text = .literal literal.reverse :: .include name :: segmentsAfter [] after := by
  rw [segmentsAfter]
  split
  · next name' after' hsome =>
    rw [h, Option.some.injEq, Prod.mk.injEq] at hsome
    obtain ⟨rfl, rfl⟩ := hsome
    rfl
  · next hnone => simp [h] at hnone

/-- The segments of what follows some characters and a literal that has begun are what the includes cut the
whole text into. -/
theorem segmentsAfter_eq_cutFrom (before literal text : List Char) :
    segmentsAfter literal text = cutFrom (before ++ (literal.reverse ++ text)) before.length
      (sitesFrom (before.length + literal.length) text) := by
  induction literal, text using segmentsAfter.induct generalizing before with
  | case1 literal text name after h ih =>
    obtain ⟨w, -, rfl⟩ := exists_wording h
    have hliteral : ((before ++ (literal.reverse ++ (w.chars ++ after))).drop before.length).take
        (before.length + literal.length - before.length) = literal.reverse := by
      rw [List.drop_left, Nat.add_sub_cancel_left, List.take_left' List.length_reverse]
    have hrest := ih (before ++ (literal.reverse ++ w.chars))
    simp only [List.reverse_nil, List.nil_append, List.append_assoc, List.length_append, List.length_reverse,
      List.length_nil, Nat.add_zero] at hrest
    rw [segmentsAfter_include h, sitesFrom_append h, cutFrom, hliteral, hrest, Stretch.stop, Nat.add_assoc]
  | case2 literal h =>
    rw [segmentsAfter_nil, sitesFrom_nil, cutFrom, List.drop_left, List.append_nil]
  | case3 literal c rest h ih =>
    rw [segmentsAfter_cons h, sitesFrom_cons h, ih before, List.reverse_cons, List.length_cons,
      List.append_assoc, List.singleton_append, Nat.add_assoc]

/-- A text has the segments that its includes cut it into. -/
theorem segments_eq_cut (text : List Char) : segments text = cutFrom text 0 (sites text) :=
  segmentsAfter_eq_cutFrom [] [] text

/-! ### Texts that are put together -/

/-- What a text is put together from. -/
inductive Passage where
  /-- Text that stands for itself. -/
  | literal (text : List Char)
  | include (w : Wording)

namespace Passage

/-- The characters of a passage. -/
def chars : Passage → List Char
  | .literal text => text
  | .include w => w.chars

/-- The text that passages make. -/
def source (ps : List Passage) : List Char := ps.flatMap Passage.chars

/-- The segments of passages after some literal text; literals that follow each other are one. -/
def gather (before : List Char) : List Passage → List Segment
  | [] => [.literal before]
  | .literal text :: rest => gather (before ++ text) rest
  | .include w :: rest => .literal before :: .include w.name :: gather [] rest

/-- The segments of passages. -/
def plan (ps : List Passage) : List Segment := gather [] ps

/-- Where the includes stand in the text that passages make, after `start` characters. -/
def placedFrom (start : Nat) : List Passage → List Site
  | [] => []
  | .literal text :: rest => placedFrom (start + text.length) rest
  | .include w :: rest => ⟨⟨start, w.chars⟩, w.name⟩ :: placedFrom (start + w.chars.length) rest

/-- Where the includes stand in the text that passages make. -/
def placed (ps : List Passage) : List Site := placedFrom 0 ps

theorem source_cons (p : Passage) (ps : List Passage) : source (p :: ps) = p.chars ++ source ps := List.flatMap_cons

end Passage

open Passage

/-- No include begins in literal text without an opening marker. -/
theorem sitesFrom_literal {literal : List Char} (h : ¬ ['<', '%'] <:+: literal) (hafter : after.head? ≠ some '%') :
    sitesFrom start (literal ++ after) = sitesFrom (start + literal.length) after := by
  induction literal generalizing start with
  | nil => rfl
  | cons c literal ih =>
    have hnone : include? (c :: (literal ++ after)) = none := by
      rw [Option.eq_none_iff_forall_ne_some]
      rintro ⟨name, rest⟩ hsome
      obtain ⟨rfl, hnext⟩ := List.cons_prefix_cons.1 (prefix_of_include? hsome)
      -- the second character of the marker is the next one of the literal, or the first one after it
      cases literal with
      | nil =>
        obtain ⟨rest, rfl⟩ := hnext
        exact hafter rfl
      | cons d literal =>
        obtain ⟨rfl, -⟩ := List.cons_prefix_cons.1 hnext
        exact h (List.prefix_append ['<', '%'] literal).isInfix
    rw [List.cons_append, sitesFrom_cons hnone, ih fun hin => h (List.infix_cons hin), List.length_cons,
      Nat.add_right_comm, Nat.add_assoc]

/-- The includes among passages are found after some literal text if no opening marker stands in the text between
them. -/
theorem sitesFrom_source {ps : List Passage} {before : List Char} (hplain : ∀ w, .include w ∈ ps → w.Plain)
    (hliteral : ∀ text, .literal text ∈ gather before ps → ¬ ['<', '%'] <:+: text) :
    sitesFrom start (before ++ source ps) = placedFrom (start + before.length) ps := by
  induction ps generalizing before start with
  | nil =>
    have hbefore : ¬ ['<', '%'] <:+: before := hliteral before List.mem_cons_self
    rw [sitesFrom_literal hbefore (by simp [source]), source, List.flatMap_nil, sitesFrom_nil, placedFrom]
  | cons p ps ih =>
    have hrest : ∀ w, .include w ∈ ps → w.Plain := fun w hw => hplain w (List.mem_cons_of_mem p hw)
    rw [source_cons]
    cases p with
    | literal text =>
      rw [Passage.chars, ← List.append_assoc, ih hrest hliteral, placedFrom, List.length_append, Nat.add_assoc]
    | «include» w =>
      have hbefore : ¬ ['<', '%'] <:+: before := hliteral before List.mem_cons_self
      have hfound : include? (w.chars ++ source ps) = some (w.name, source ps) :=
        include?_chars (hplain w List.mem_cons_self) _
      have hnext : ∀ text, .literal text ∈ gather [] ps → ¬ ['<', '%'] <:+: text := fun text ht =>
        hliteral text (List.mem_cons_of_mem _ (List.mem_cons_of_mem _ ht))
      rw [Passage.chars, sitesFrom_literal hbefore (by simp [Wording.chars]), sitesFrom_append hfound, placedFrom]
      exact congrArg _ (ih hrest hnext)

/-- The includes of passages cut their text into the segments of the passages. -/
theorem cutFrom_placedFrom (start before : List Char) (ps : List Passage) :
    cutFrom (start ++ (before ++ source ps)) start.length (placedFrom (start.length + before.length) ps) =
      gather before ps := by
  induction ps generalizing start before with
  | nil => rw [source, List.flatMap_nil, List.append_nil, placedFrom, cutFrom, List.drop_left, gather]
  | cons p ps ih =>
    rw [source_cons]
    cases p with
    | literal text =>
      rw [Passage.chars, ← List.append_assoc before, placedFrom, Nat.add_assoc, ← List.length_append, ih, gather]
    | «include» w =>
      have hliteral : ((start ++ (before ++ (w.chars ++ source ps))).drop start.length).take
          (start.length + before.length - start.length) = before := by
        rw [List.drop_left, Nat.add_sub_cancel_left, List.take_left]
      have hrest := ih (start ++ (before ++ w.chars)) []
      simp only [List.append_assoc, List.nil_append, List.length_append, List.length_nil, Nat.add_zero,
        ← Nat.add_assoc] at hrest
      rw [Passage.chars, placedFrom, cutFrom, hliteral, Stretch.stop, hrest, gather]

/-- A text that is put together from literal text and includes is cut into them again: its includes are the ones
that were written, each with its name and in its place, and between them is the literal text. -/
theorem segments_source {ps : List Passage} (hplain : ∀ w, .include w ∈ ps → w.Plain)
    (hliteral : ∀ text, .literal text ∈ plan ps → ¬ ['<', '%'] <:+: text) :
    segments (source ps) = plan ps ∧ sites (source ps) = placed ps := by
  have hsites : sites (source ps) = placed ps := sitesFrom_source hplain hliteral
  refine ⟨?_, hsites⟩
  rw [segments_eq_cut, hsites]
  exact cutFrom_placedFrom [] [] ps

namespace Odd

/-- An include with a wide blank and a line end before its name, which holds both markers. -/
def wide : Wording where
  lead := []
  gap := ['\u2003', '\n']
  opening := '"'
  name := "a%> <%b".toList
  closing := '"'
  trail := [' ']

/-- An include with a single blank. -/
def narrow : Wording where
  lead := []
  gap := [' ']
  opening := '\''
  name := ['c']
  closing := '\''
  trail := []

/-- Literal text with quotes and halves of markers around two includes with nothing between them. -/
def passages : List Passage :=
  [.literal "'5 %> <".toList, .include wide, .include narrow, .literal "%> include ".toList, .literal "'d' <".toList]

/-- Both includes are found, and no other one. -/
theorem segments_source_passages :
    ((∀ w, .include w ∈ passages → w.Plain) ∧ ∀ text, .literal text ∈ plan passages → ¬ ['<', '%'] <:+: text) ∧
      segments (source passages) =
        [.literal "'5 %> <".toList, .include "a%> <%b".toList, .literal [], .include ['c'],
          .literal "%> include 'd' <".toList] ∧
      sites (source passages) = [⟨⟨7, wide.chars⟩, "a%> <%b".toList⟩, ⟨⟨30, narrow.chars⟩, ['c']⟩] := by
  have hplain : ∀ w, .include w ∈ passages → w.Plain := by
    intro w hw
    simp only [passages, List.mem_cons, List.not_mem_nil, Passage.include.injEq, reduceCtorEq, or_false,
      false_or] at hw
    rcases hw with rfl | rfl
    · exact Wording.plain_iff.2 (by decide)
    · exact Wording.plain_iff.2 (by decide)
  have hliteral : ∀ text, .literal text ∈ plan passages → ¬ ['<', '%'] <:+: text := by
    intro text ht
    simp only [passages, plan, gather, List.mem_cons, List.not_mem_nil, Segment.literal.injEq, reduceCtorEq,
      or_false, false_or] at ht
    rcases ht with rfl | rfl | rfl <;> decide
  refine ⟨⟨hplain, hliteral⟩, ?_⟩
  rw [(segments_source hplain hliteral).1, (segments_source hplain hliteral).2]
  exact ⟨rfl, rfl⟩

end Odd

/-- A marker that begins in a literal and ends in the next one opens an include that was not written. -/
theorem opened_at_border :
    let ps : List Passage := [.literal ['<'], .literal "%include 'b'%>".toList]
    ((∀ w, .include w ∈ ps → w.Plain) ∧ ∀ text, .literal text ∈ ps → ¬ ['<', '%'] <:+: text) ∧
      segments (source ps) = [.literal [], .include ['b'], .literal []] ∧
      plan ps = [.literal "<%include 'b'%>".toList] ∧
      sites (source ps) = [⟨⟨0, "<%include 'b'%>".toList⟩, ['b']⟩] ∧ placed ps = [] := by
  intro ps
  refine ⟨⟨fun w hw => ?_, fun text ht => ?_⟩, by decide +kernel, by decide, by decide +kernel, rfl⟩
  · simp [ps] at hw
  · simp only [ps, List.mem_cons, List.not_mem_nil, Passage.literal.injEq, or_false] at ht
    rcases ht with rfl | rfl <;> decide

end Stencil
