import Stencil.Proofs.Placeholder.Filling

/-!
# The tokens of a text

The tokens of a mapping that begin in a text, place after place from the left to the right. The directives
that the text stands for are those of these tokens, in this order (`filterMap_span?_unmask`), so texts with
the same tokens stand for the same directives, and one with fewer for fewer.
-/

namespace Stencil.Placeholder

variable {m : Mapping} {rest : List Char}

/-- The tokens that begin in a text, from the left to the right. -/
def occurrences (tokens : List (List Char)) (text : List Char) : List (List Char) :=
  text.tails.flatMap fun rest => tokens.filter fun t => t <+: rest

theorem occurrences_cons (tokens : List (List Char)) (c : Char) (rest : List Char) :
    occurrences tokens (c :: rest) =
      tokens.filter (fun t => t <+: c :: rest) ++ occurrences tokens rest := by
  rw [occurrences, List.tails_cons, List.flatMap_cons, ← occurrences]

/-- A stretch in which no token begins has none. -/
theorem occurrences_append {tokens : List (List Char)} {start : List Char}
    (h : ∀ t ∈ tokens, ∀ q, q <:+ start → q ≠ [] → ¬ t <+: q ++ rest) :
    occurrences tokens (start ++ rest) = occurrences tokens rest := by
  induction start with
  | nil => rfl
  | cons c start ih =>
    have hc : tokens.filter (fun t => t <+: c :: (start ++ rest)) = [] := by
      refine List.filter_eq_nil_iff.2 fun t ht hprefix => ?_
      exact h t ht (c :: start) List.suffix_rfl (List.cons_ne_nil c start)
        (of_decide_eq_true hprefix)
    have hrest : ∀ t ∈ tokens, ∀ q, q <:+ start → q ≠ [] → ¬ t <+: q ++ rest := fun t ht q hq =>
      h t ht q (hq.trans (List.suffix_cons c start))
    rw [List.cons_append, occurrences_cons, hc, List.nil_append, ih hrest]

/-- What occurs past a stretch occurs. -/
theorem occurrences_sublist_append (tokens : List (List Char)) (start rest : List Char) :
    (occurrences tokens rest).Sublist (occurrences tokens (start ++ rest)) := by
  induction start with
  | nil => exact List.Sublist.refl _
  | cons c start ih =>
    rw [List.cons_append, occurrences_cons]
    exact ih.trans (List.sublist_append_right _ _)

theorem mem_occurrences {tokens : List (List Char)} {t text : List Char} :
    t ∈ occurrences tokens text ↔ t ∈ tokens ∧ t <:+: text := by
  simp only [occurrences, List.mem_flatMap, List.mem_tails, List.mem_filter, decide_eq_true_eq]
  constructor
  · rintro ⟨rest, hrest, ht, hprefix⟩
    exact ⟨ht, hprefix.isInfix.trans hrest.isInfix⟩
  · rintro ⟨ht, before, after, rfl⟩
    exact ⟨t ++ after, ⟨before, by rw [List.append_assoc]⟩, ht, List.prefix_append t after⟩

theorem occurrences_nil {tokens : List (List Char)} (hne : ∀ t ∈ tokens, t ≠ []) :
    occurrences tokens [] = [] := by
  simpa [occurrences] using hne

/-- A character that is in no token adds none at the start. -/
theorem occurrences_cons_of_not_mem {tokens : List (List Char)} {c : Char} (hne : ∀ t ∈ tokens, t ≠ [])
    (hc : ∀ t ∈ tokens, c ∉ t) (rest : List Char) :
    occurrences tokens (c :: rest) = occurrences tokens rest := by
  have hnone : tokens.filter (fun t => t <+: c :: rest) = [] := by
    refine List.filter_eq_nil_iff.2 fun t ht hbegins => ?_
    rcases List.prefix_cons_iff.1 (of_decide_eq_true hbegins) with rfl | ⟨t', rfl, -⟩
    · exact hne [] ht rfl
    · exact hc _ ht List.mem_cons_self
  rw [occurrences_cons, hnone, List.nil_append]

/-- A character that is in no token adds none at the end. -/
theorem occurrences_concat {tokens : List (List Char)} {c : Char} (hne : ∀ t ∈ tokens, t ≠ [])
    (hc : ∀ t ∈ tokens, c ∉ t) (text : List Char) :
    occurrences tokens (text ++ [c]) = occurrences tokens text := by
  have hsame : ∀ text, tokens.filter (fun t => t <+: text ++ [c]) = tokens.filter (fun t => t <+: text) := by
    intro text
    refine List.filter_congr fun t ht => decide_eq_decide.2 ⟨fun hprefix => ?_, fun hprefix => ?_⟩
    · refine (List.prefix_concat_iff.1 hprefix).resolve_left ?_
      rintro rfl
      exact hc _ ht (List.mem_append_right _ List.mem_cons_self)
    · exact hprefix.trans (List.prefix_append text [c])
  induction text with
  | nil =>
    have hnone : tokens.filter (fun t => t <+: []) = [] := by simpa using hne
    rw [List.nil_append, occurrences_cons, ← List.nil_append [c], hsame, hnone]
    rfl
  | cons d text ih =>
    rw [List.cons_append, occurrences_cons, occurrences_cons, ih, ← List.cons_append, hsame]

namespace Mapping.Sound

theorem isToken_of_mem_map (h : m.Sound) : ∀ t ∈ m.map Prod.fst, IsToken t := by
  intro t ht
  obtain ⟨e, he, rfl⟩ := List.mem_map.1 ht
  exact h.isToken e he

theorem occurrences_token (h : m.Sound) {e : List Char × List Char} (he : e ∈ m) (rest : List Char) :
    occurrences (m.map Prod.fst) (e.1 ++ rest) = e.1 :: occurrences (m.map Prod.fst) rest := by
  have hmem : e.1 ∈ m.map Prod.fst := List.mem_map_of_mem he
  have htokens := h.isToken_of_mem_map
  -- at its start only the token itself begins, and the mapping has it once
  have hfirst : (m.map Prod.fst).filter (fun t => t <+: e.1 ++ rest) = [e.1] := by
    have hiff : ∀ t ∈ m.map Prod.fst, decide (t <+: e.1 ++ rest) = (t == e.1) := by
      intro t ht
      rw [Bool.eq_iff_iff, decide_eq_true_iff, beq_iff_eq]
      constructor
      · exact (htokens t ht).eq_of_begins (h.isToken e he)
      · rintro rfl
        exact List.prefix_append _ rest
    rw [List.filter_congr hiff, List.filter_beq, List.count_eq_one_of_mem h.nodup hmem]
    rfl
  obtain ⟨c, t, htoken⟩ := List.exists_cons_of_ne_nil (h.ne_nil e he)
  -- in what is left of the token none begins
  have hinside : ∀ u ∈ m.map Prod.fst, ∀ q, q <:+ t → q ≠ [] → ¬ u <+: q ++ rest := by
    intro u hu q hq hne
    have hproper : q ≠ e.1 := by
      rintro rfl
      have hlength := hq.length_le
      rw [htoken, List.length_cons] at hlength
      omega
    have hq' : q <:+ e.1 := htoken ▸ hq.trans (List.suffix_cons c t)
    exact (htokens u hu).not_prefix_append (h.isToken e he) hq' hne hproper
  rw [htoken] at hfirst ⊢
  rw [List.cons_append, occurrences_cons, ← List.cons_append, hfirst, occurrences_append hinside]
  rfl

theorem lookup_eq (h : m.Sound) {e : List Char × List Char} (he : e ∈ m) : m.lookup e.1 = some e.2 := by
  induction m with
  | nil => exact absurd he List.not_mem_nil
  | cons e' m ih =>
    rw [List.lookup_cons]
    by_cases hfst : e.1 = e'.1
    · rw [hfst, beq_self_eq_true, h.eq_of_fst_eq he List.mem_cons_self hfst]
    · rw [beq_false_of_ne hfst]
      refine ih h.of_cons ((List.mem_cons.1 he).resolve_left ?_)
      rintro rfl
      exact hfst rfl

/-- The directives that a text stands for are those of its tokens. -/
theorem filterMap_span?_unmask (h : m.Sound) (text : List Char) :
    (unmask m text).filterMap Piece.span? =
      (occurrences (m.map Prod.fst) text).filterMap (fun t => m.lookup t) := by
  induction text using token_induct m h.ne_nil with
  | nil =>
    rw [unmask_nil, occurrences_nil fun t ht => (h.isToken_of_mem_map t ht).ne_nil]
    rfl
  | token e he rest ih =>
    rw [h.unmask_token he, h.occurrences_token he,
      List.filterMap_cons_some (f := fun t => m.lookup t) (h.lookup_eq he), ← ih]
    rfl
  | char c rest hno ih =>
    have hno' : (m.map Prod.fst).filter (fun t => t <+: c :: rest) = [] := by
      refine List.filter_eq_nil_iff.2 fun t ht hprefix => ?_
      obtain ⟨e, he, rfl⟩ := List.mem_map.1 ht
      exact hno e he (of_decide_eq_true hprefix)
    rw [unmask_char hno, occurrences_cons, hno', List.nil_append, ← ih]
    rfl

end Mapping.Sound

end Stencil.Placeholder
