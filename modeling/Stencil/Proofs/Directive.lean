import Mathlib.Data.List.Infix
import Stencil.Directive

/-!
# Texts and their pieces

The pieces of a text in order are the text, and they can be told from it again: each directive among them
is one whole directive, which ends at its own closing marker, and no directive begins at a character that
stands for itself. A line of pieces of which this holds is legible, and a text that is put together from a
legible line has just these pieces (`pieces_flatMap_chars`).
-/

namespace Stencil

/-! ### Whole directives -/

theorem closing?_append_right {cs body after : List Char} (h : closing? cs = some (body, after))
    (rest : List Char) : closing? (cs ++ rest) = some (body, after ++ rest) := by
  induction cs using closing?.induct generalizing body after with
  | case1 => simp [closing?] at h
  | case2 cs =>
    simp only [closing?, Option.some.injEq, Prod.mk.injEq] at h
    obtain ⟨rfl, rfl⟩ := h
    rfl
  | case3 c cs hc ih =>
    rw [closing?] at h
    · simp only [Option.map_eq_some_iff, Prod.mk.injEq] at h
      obtain ⟨⟨b, a⟩, hs, rfl, rfl⟩ := h
      rw [List.cons_append, closing?, ih hs, Option.map_some]
      rintro r rfl hr
      -- what follows cannot complete a marker whose first half is the last character
      cases cs with
      | nil => simp [closing?] at hs
      | cons d cs =>
        obtain ⟨rfl, -⟩ := List.cons.inj hr
        exact hc cs rfl rfl
    · exact hc

theorem closing?_body {cs body after : List Char} (h : closing? cs = some (body, after)) :
    closing? body = some (body, []) := by
  induction cs using closing?.induct generalizing body after with
  | case1 => simp [closing?] at h
  | case2 cs =>
    simp only [closing?, Option.some.injEq, Prod.mk.injEq] at h
    obtain ⟨rfl, rfl⟩ := h
    rfl
  | case3 c cs hc ih =>
    rw [closing?] at h
    · simp only [Option.map_eq_some_iff, Prod.mk.injEq] at h
      obtain ⟨⟨b, a⟩, hs, rfl, rfl⟩ := h
      rw [closing?, ih hs, Option.map_some]
      rintro r rfl rfl
      exact hc (r ++ a) rfl (closing?_append hs)
    · exact hc

theorem getLast?_closing {cs body after : List Char} (h : closing? cs = some (body, after)) :
    body.getLast? = some '>' := by
  induction cs using closing?.induct generalizing body after with
  | case1 => simp [closing?] at h
  | case2 cs =>
    simp only [closing?, Option.some.injEq, Prod.mk.injEq] at h
    obtain ⟨rfl, rfl⟩ := h
    rfl
  | case3 c cs hc ih =>
    rw [closing?] at h
    · simp only [Option.map_eq_some_iff, Prod.mk.injEq] at h
      obtain ⟨⟨b, a⟩, hs, rfl, rfl⟩ := h
      rw [List.getLast?_cons, ih hs, Option.getD_some]
    · exact hc

/-- No closing marker follows exactly if there is none in the text. -/
theorem closing?_eq_none_iff {cs : List Char} : closing? cs = none ↔ ¬ ['%', '>'] <:+: cs := by
  induction cs using closing?.induct with
  | case1 => simp [closing?]
  | case2 cs => simpa [closing?] using (List.prefix_append ['%', '>'] cs).isInfix
  | case3 c cs hc ih =>
    have hstart : ¬ ['%', '>'] <+: c :: cs := by
      rintro ⟨rest, hrest⟩
      obtain ⟨rfl, rfl⟩ := List.cons.inj hrest
      exact hc rest rfl rfl
    rw [closing?, Option.map_eq_none_iff, ih, List.infix_cons_iff]
    · exact ⟨fun h hor => h (hor.resolve_left hstart), fun h hcs => h (Or.inr hcs)⟩
    · exact hc

/-- A text that is one directive, from its opening to its own closing marker. -/
def IsDirective (span : List Char) : Prop := directive? span = some (span, [])

theorem isDirective_of_directive? {cs span after : List Char} (h : directive? cs = some (span, after)) :
    IsDirective span := by
  unfold directive? at h
  split at h
  · simp only [Option.map_eq_some_iff, Prod.mk.injEq] at h
    obtain ⟨⟨b, a⟩, hs, rfl, rfl⟩ := h
    rw [IsDirective, directive?, closing?_body hs, Option.map_some]
  · exact nomatch h

namespace IsDirective

variable {span : List Char}

/-- A directive is found whatever follows it. -/
theorem append (h : IsDirective span) (rest : List Char) :
    directive? (span ++ rest) = some (span, rest) := by
  unfold IsDirective directive? at h
  split at h
  · next body =>
    simp only [Option.map_eq_some_iff, Prod.mk.injEq] at h
    obtain ⟨⟨b, a⟩, hs, hb, rfl⟩ := h
    obtain rfl : b = body := by simpa using hb
    simpa [directive?] using closing?_append_right hs rest
  · exact nomatch h

theorem head?_eq (h : IsDirective span) : span.head? = some '<' := by
  unfold IsDirective directive? at h
  split at h
  · rfl
  · exact nomatch h

theorem getLast?_eq (h : IsDirective span) : span.getLast? = some '>' := by
  unfold IsDirective directive? at h
  split at h
  · next body =>
    simp only [Option.map_eq_some_iff, Prod.mk.injEq] at h
    obtain ⟨⟨b, a⟩, hs, hb, rfl⟩ := h
    obtain rfl : b = body := by simpa using hb
    rw [List.getLast?_cons, List.getLast?_cons, getLast?_closing hs, Option.getD_some, Option.getD_some]
  · exact nomatch h

end IsDirective

theorem directive?_eq_none {c : Char} {rest : List Char}
    (h : c = '<' → rest.head? = some '%' → ¬ ['%', '>'] <:+: rest.tail) :
    directive? (c :: rest) = none := by
  unfold directive?
  split
  · next body heq =>
    obtain ⟨rfl, rfl⟩ := List.cons.inj heq
    have hnone : closing? body = none := closing?_eq_none_iff.2 (h rfl rfl)
    rw [hnone, Option.map_none]
  · rfl

/-! ### Pieces -/

theorem pieces_nil : pieces [] = [] := by
  rw [pieces]
  rfl

theorem pieces_directive {text span after : List Char} (h : directive? text = some (span, after)) :
    pieces text = .directive span :: pieces after := by
  rw [pieces]
  split
  · next s a hs =>
    rw [h, Option.some.injEq, Prod.mk.injEq] at hs
    obtain ⟨rfl, rfl⟩ := hs
    rfl
  · next hnone => simp [h] at hnone

theorem pieces_char {c : Char} {rest : List Char} (h : directive? (c :: rest) = none) :
    pieces (c :: rest) = .char c :: pieces rest := by
  rw [pieces]
  split
  · next hsome => simp [h] at hsome
  · rfl

/-- The pieces in order are the text. -/
theorem flatMap_chars_pieces (text : List Char) : (pieces text).flatMap Piece.chars = text := by
  induction text using pieces.induct with
  | case1 text span after h ih =>
    rw [pieces_directive h, List.flatMap_cons, ih, Piece.chars, ← directive?_append h]
  | case2 h => rw [pieces_nil, List.flatMap_nil]
  | case3 c rest h ih =>
    rw [pieces_char h, List.flatMap_cons, ih, Piece.chars, List.singleton_append]

/-- Every directive of the line is a whole one, and none begins at a character that stands for itself. -/
def Legible : List Piece → Prop
  | [] => True
  | .char c :: rest => directive? (c :: rest.flatMap Piece.chars) = none ∧ Legible rest
  | .directive span :: rest => IsDirective span ∧ Legible rest

theorem Legible.isDirective {ps : List Piece} {span : List Char} (h : Legible ps)
    (hspan : .directive span ∈ ps) : IsDirective span := by
  induction ps with
  | nil => exact absurd hspan List.not_mem_nil
  | cons p rest ih =>
    cases p with
    | char c => exact ih h.2 (by simpa using hspan)
    | directive s =>
      rcases List.mem_cons.1 hspan with heq | hspan
      · cases heq
        exact h.1
      · exact ih h.2 hspan

theorem legible_pieces (text : List Char) : Legible (pieces text) := by
  induction text using pieces.induct with
  | case1 text span after h ih =>
    rw [pieces_directive h]
    exact ⟨isDirective_of_directive? h, ih⟩
  | case2 h => rw [pieces_nil]; trivial
  | case3 c rest h ih =>
    rw [pieces_char h]
    refine ⟨?_, ih⟩
    rwa [flatMap_chars_pieces]

/-- A text put together from a legible line has the pieces of the line. -/
theorem pieces_flatMap_chars {ps : List Piece} (h : Legible ps) : pieces (ps.flatMap Piece.chars) = ps := by
  induction ps with
  | nil => exact pieces_nil
  | cons p rest ih =>
    cases p with
    | char c =>
      obtain ⟨hc, hrest⟩ := h
      rw [List.flatMap_cons, Piece.chars, List.singleton_append, pieces_char hc, ih hrest]
    | directive span =>
      obtain ⟨hspan, hrest⟩ := h
      rw [List.flatMap_cons, Piece.chars, pieces_directive (hspan.append _), ih hrest]

/-! ### Directives of a text -/

variable {text span : List Char}

theorem mem_directives : span ∈ directives text ↔ Piece.directive span ∈ pieces text := by
  rw [directives, List.mem_filterMap]
  constructor
  · rintro ⟨p, hp, hspan⟩
    cases p with
    | char c => exact nomatch hspan
    | directive s => cases hspan; exact hp
  · exact fun h => ⟨.directive span, h, rfl⟩

theorem isDirective_of_mem (h : span ∈ directives text) : IsDirective span :=
  (legible_pieces text).isDirective (mem_directives.1 h)

theorem infix_of_mem_directives (h : span ∈ directives text) : span <:+: text := by
  obtain ⟨before, after, hpieces⟩ := List.append_of_mem (mem_directives.1 h)
  refine ⟨before.flatMap Piece.chars, after.flatMap Piece.chars, ?_⟩
  conv_rhs => rw [← flatMap_chars_pieces text, hpieces]
  simp [Piece.chars]

end Stencil
