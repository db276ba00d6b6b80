import Stencil.Proofs.Placeholder.Masking

/-!
# A masked text has no directives

A token has no bracket, so a directive of a masked text would begin at a bracket that stands for itself, and
with a percent sign that does too. But then it began in the text as well, unless no closing marker follows
there, and where none follows there is no directive to be masked: what comes after is the same in both. So a
masked text is masked by itself, and maps nothing (`mask_complete`).

What the text maps are its directives, each once and in the order in which they are first seen, as long as
different ones have different tokens (`mapping_eq_map_eraseDups`).
-/

namespace Stencil

/-- A whole directive has its closing marker. -/
theorem IsDirective.closes {span : List Char} (h : IsDirective span) : ['%', '>'] <:+: span := by
  unfold IsDirective directive? at h
  split at h
  · next body =>
    simp only [Option.map_eq_some_iff] at h
    obtain ⟨p, hbody, -⟩ := h
    have hcloses : ['%', '>'] <:+: body := by
      by_contra hno
      rw [closing?_eq_none_iff.2 hno] at hbody
      exact nomatch hbody
    exact hcloses.trans (List.suffix_append ['<', '%'] body).isInfix
  · exact nomatch h

/-- Characters without an opening bracket stand for themselves. -/
theorem pieces_append_of_not_mem {start : List Char} (h : '<' ∉ start) (rest : List Char) :
    pieces (start ++ rest) = start.map .char ++ pieces rest := by
  induction start with
  | nil => rfl
  | cons c start ih =>
    obtain ⟨hc, hstart⟩ := not_or.1 fun hor => h (List.mem_cons.2 hor)
    have hnone : directive? (c :: (start ++ rest)) = none :=
      directive?_eq_none fun heq => absurd heq.symm hc
    rw [List.cons_append, pieces_char hnone, ih hstart, List.map_cons, List.cons_append]

namespace Placeholder

variable {text : List Char} {ps : List Piece}

/-! ### The masked text -/

/-- Where no closing marker is, nothing is masked. -/
theorem flatMap_masked_eq (h : Legible ps) (hcloses : ¬ ['%', '>'] <:+: ps.flatMap Piece.chars) :
    ps.flatMap masked = ps.flatMap Piece.chars := by
  induction ps with
  | nil => rfl
  | cons p ps ih =>
    rw [List.flatMap_cons] at hcloses
    have hrest : ¬ ['%', '>'] <:+: ps.flatMap Piece.chars := fun hin =>
      hcloses (hin.trans (List.suffix_append _ _).isInfix)
    cases p with
    | char c => rw [List.flatMap_cons, List.flatMap_cons, ih h.2 hrest, masked, Piece.chars]
    | directive span =>
      exact absurd (h.1.closes.trans (List.prefix_append span _).isInfix) hcloses

/-- A character at which no directive begins is none in the masked line. -/
theorem directive?_masked {c : Char} (h : Legible ps) (hc : directive? (c :: ps.flatMap Piece.chars) = none) :
    directive? (c :: ps.flatMap masked) = none := by
  refine directive?_eq_none fun hopens hhead => ?_
  cases ps with
  | nil => exact fun hin => absurd hin (by decide)
  | cons p ps =>
    cases p with
    | directive span =>
      -- a token begins with a letter
      have hletter : ((Piece.directive span :: ps).flatMap masked).head? = some 't' := rfl
      rw [hletter] at hhead
      exact absurd hhead (by decide)
    | char d =>
      obtain rfl : d = '%' := Option.some.inj hhead
      have hunclosed : ¬ ['%', '>'] <:+: ps.flatMap Piece.chars := by
        rw [hopens, List.flatMap_cons, Piece.chars, List.singleton_append, directive?,
          Option.map_eq_none_iff, closing?_eq_none_iff] at hc
        exact hc
      rw [List.flatMap_cons, masked, List.singleton_append, List.tail_cons, flatMap_masked_eq h.2 hunclosed]
      exact hunclosed

/-- All characters of a masked line stand for themselves. -/
theorem pieces_flatMap_masked (h : Legible ps) :
    pieces (ps.flatMap masked) = (ps.flatMap masked).map .char := by
  induction ps with
  | nil => exact pieces_nil
  | cons p ps ih =>
    rw [List.flatMap_cons]
    cases p with
    | char c =>
      rw [masked, List.singleton_append, pieces_char (directive?_masked h.2 h.1), ih h.2, List.map_cons]
    | directive span =>
      have hbracket : '<' ∉ token span := (isToken_token span).not_mem (by decide)
      rw [masked, pieces_append_of_not_mem hbracket, ih h.2, List.map_append]

theorem pieces_mask (text : List Char) : pieces (mask text) = (mask text).map .char :=
  pieces_flatMap_masked (legible_pieces text)

theorem directives_mask (text : List Char) : directives (mask text) = [] := by
  rw [directives, pieces_mask, List.filterMap_map]
  exact List.filterMap_eq_nil_iff.2 fun c _ => rfl

theorem mask_mask (text : List Char) : mask (mask text) = mask text := by
  rw [mask, pieces_mask, List.flatMap_map]
  exact List.flatMap_singleton' _

/-! ### The mapping -/

/-- A token that is given its own directive again changes nothing. -/
theorem Mapping.put_of_mem {m : Mapping} {t span : List Char} (hnodup : (m.map Prod.fst).Nodup)
    (h : (t, span) ∈ m) : m.put t span = m := by
  induction m with
  | nil => exact absurd h List.not_mem_nil
  | cons e m ih =>
    obtain ⟨hfirst, hrest⟩ := List.nodup_cons.1 hnodup
    rw [Mapping.put]
    rcases List.mem_cons.1 h with rfl | hm
    · rw [if_pos rfl]
    · have hne : e.1 ≠ t := fun heq => hfirst (heq ▸ List.mem_map_of_mem hm)
      rw [if_neg hne, ih hrest hm]

/-- A token that is new comes last. -/
theorem Mapping.put_of_not_mem {m : Mapping} {t : List Char} (h : t ∉ m.map Prod.fst) (span : List Char) :
    m.put t span = m ++ [(t, span)] := by
  induction m with
  | nil => rfl
  | cons e m ih =>
    obtain ⟨hne, hm⟩ := not_or.1 fun hor => h (List.mem_cons.2 hor)
    rw [Mapping.put, if_neg (Ne.symm hne), ih hm, List.cons_append]

/-- Directives with different tokens are put each once, in the order in which they are first seen. -/
theorem foldl_put_eq {spans : List (List Char)}
    (h : ∀ d ∈ spans, ∀ d' ∈ spans, token d = token d' → d = d') :
    spans.foldl (fun (m : Mapping) span => m.put (token span) span) [] =
      spans.eraseDups.map fun span => (token span, span) := by
  -- the induction adds directives at the end, where the mapping does
  induction spans using List.reverseRecOn with
  | nil => rfl
  | append_singleton spans span ih =>
    have hspans : ∀ d ∈ spans, ∀ d' ∈ spans, token d = token d' → d = d' := fun d hd d' hd' =>
      h d (List.mem_append_left _ hd) d' (List.mem_append_left _ hd')
    have hnodup := (foldl_put spans [] List.nodup_nil).1
    rw [List.foldl_append, List.foldl_cons, List.foldl_nil, List.eraseDups_append]
    rw [ih hspans] at hnodup ⊢
    by_cases hmem : span ∈ spans
    · have hseen : (token span, span) ∈ spans.eraseDups.map fun d => (token d, d) :=
        List.mem_map.2 ⟨span, List.mem_eraseDups.2 hmem, rfl⟩
      have hnone : [span].removeAll spans = [] := by simp [List.removeAll, hmem]
      rw [Mapping.put_of_mem hnodup hseen, hnone, List.eraseDups_nil, List.append_nil]
    · have hnew : token span ∉ (spans.eraseDups.map fun d => (token d, d)).map Prod.fst := by
        rw [List.map_map, List.mem_map]
        rintro ⟨d, hd, htoken⟩
        have hin : d ∈ spans := List.mem_eraseDups.1 hd
        exact hmem (h d (List.mem_append_left _ hin) span List.mem_concat_self htoken ▸ hin)
      have hone : [span].removeAll spans = [span] := by simp [List.removeAll, hmem]
      rw [Mapping.put_of_not_mem hnew, hone, List.map_append]
      rfl

/-- If different directives have different tokens, the mapping has each of them once, under its own token and in
the order in which they are first seen. -/
theorem mapping_eq_map_eraseDups
    (h : ∀ d ∈ directives text, ∀ d' ∈ directives text, token d = token d' → d = d') :
    mapping text = (directives text).eraseDups.map fun span => (token span, span) :=
  foldl_put_eq h

/-- A text is a line of characters and whole directives, among which are all its directives, and the masked text
is this line with tokens in place of the directives. It has no directive, so to mask it again changes nothing and
maps nothing. If different directives have different tokens, the mapping of the text has each directive once, in
the order in which they are first seen. -/
theorem mask_complete (text : List Char) :
    (∃ ps, Legible ps ∧ ps.flatMap Piece.chars = text ∧ ps.filterMap Piece.span? = directives text ∧
      mask text = ps.flatMap masked) ∧
    directives (mask text) = [] ∧ mask (mask text) = mask text ∧ mapping (mask text) = [] ∧
    ((∀ d ∈ directives text, ∀ d' ∈ directives text, token d = token d' → d = d') →
      mapping text = (directives text).eraseDups.map fun span => (token span, span)) := by
  refine ⟨⟨pieces text, legible_pieces text, flatMap_chars_pieces text, rfl, rfl⟩, directives_mask text,
    mask_mask text, ?_, mapping_eq_map_eraseDups⟩
  rw [mapping, directives_mask]
  rfl

/-- A directive that comes twice, one that overlaps an opening marker, and one that is not closed. -/
theorem mask_complete_twice :
    let text := "<%= a %><% <% %>%><%><%= a %> <% b".toList
    (∀ d ∈ directives text, ∀ d' ∈ directives text, token d = token d' → d = d') ∧
      mapping text = [(token "<%= a %>".toList, "<%= a %>".toList), (token "<% <% %>".toList, "<% <% %>".toList),
        (token "<%><%= a %>".toList, "<%><%= a %>".toList)] ∧
      mask text = token "<%= a %>".toList ++ token "<% <% %>".toList ++ "%>".toList ++
        token "<%><%= a %>".toList ++ " <% b".toList ∧
      directives (mask text) = [] := by
  intro text
  have hdistinct : ∀ d ∈ directives text, ∀ d' ∈ directives text, token d = token d' → d = d' := by
    decide +kernel
  obtain ⟨-, hnone, -, -, hmapping⟩ := mask_complete text
  refine ⟨hdistinct, ?_, by decide +kernel, hnone⟩
  rw [hmapping hdistinct]
  decide +kernel

end Placeholder

end Stencil
