import Stencil.Text.Find

/-!
# Directives

A directive is what stands between `<%` and the next `%>`, the markers included. Directives are found
from the left; an opening marker after which no closing one follows opens nothing. A text is thus cut
into pieces, each a single character outside the directives or a whole directive, and the pieces in
order are the text.
-/

namespace Stencil

/-- Splits after the first `%>`: what stands up to and with it, and the rest. -/
def closing? : List Char → Option (List Char × List Char)
  | [] => none
  | '%' :: '>' :: rest => some (['%', '>'], rest)
  | c :: rest => (closing? rest).map fun (body, after) => (c :: body, after)

/-- The directive at the start of a text, and the rest. -/
def directive? : List Char → Option (List Char × List Char)
  | '<' :: '%' :: rest => (closing? rest).map fun (body, after) => ('<' :: '%' :: body, after)
  | _ => none

/-- A part of a text. -/
inductive Piece where
  /-- A character outside the directives. -/
  | char (c : Char)
  /-- A directive with its markers. -/
  | directive (span : List Char)
  deriving Repr, DecidableEq

namespace Piece

/-- The characters of a piece. -/
def chars : Piece → List Char
  | char c => [c]
  | directive span => span

/-- The directive that a piece is. -/
def span? : Piece → Option (List Char)
  | char _ => none
  | directive span => some span

end Piece

theorem closing?_append {cs body after : List Char} (h : closing? cs = some (body, after)) :
    cs = body ++ after := by
  induction cs using closing?.induct generalizing body after with
  | case1 => simp [closing?] at h
  | case2 rest =>
    simp only [closing?, Option.some.injEq, Prod.mk.injEq] at h
    simp [← h.1, ← h.2]
  | case3 c rest hc ih =>
    rw [closing?] at h
    · simp only [Option.map_eq_some_iff, Prod.mk.injEq] at h
      obtain ⟨⟨b, a⟩, hs, rfl, rfl⟩ := h
      simp [ih hs]
    · exact hc

theorem directive?_append {cs span after : List Char} (h : directive? cs = some (span, after)) :
    cs = span ++ after := by
  unfold directive? at h
  split at h
  · simp only [Option.map_eq_some_iff, Prod.mk.injEq] at h
    obtain ⟨⟨b, a⟩, hs, rfl, rfl⟩ := h
    simp [closing?_append hs]
  · simp at h

theorem length_span {cs span after : List Char} (h : directive? cs = some (span, after)) :
    2 ≤ span.length := by
  unfold directive? at h
  split at h
  · simp only [Option.map_eq_some_iff, Prod.mk.injEq] at h
    obtain ⟨⟨b, a⟩, _, rfl, rfl⟩ := h
    simp
  · simp at h

/-- The pieces of a text. -/
def pieces (text : List Char) : List Piece :=
  match _h : directive? text with
  | some (span, after) => .directive span :: pieces after
  | none =>
    match text with
    | [] => []
    | c :: rest => .char c :: pieces rest
termination_by text.length
decreasing_by
  · have happ := directive?_append ‹_›
    have hlen := length_span ‹_›
    simp only [happ, List.length_append]
    omega
  · simp

/-- The directives of a text, from left to right. -/
def directives (text : List Char) : List (List Char) := (pieces text).filterMap Piece.span?

end Stencil
