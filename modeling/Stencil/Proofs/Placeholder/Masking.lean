import Stencil.Proofs.Directive
import Stencil.Proofs.Placeholder.Filling

/-!
# Masking a text and restoring it

The tokens that stand for the directives of a text can be told apart if different directives have different
ones, and from the text if none of them occurs in it (`TokensApart`). The mapping is then sound. In the
masked text a token begins nowhere but where a directive has been: it cannot lie in the text between two
tokens, and it cannot begin in that text and reach into a token. So the masked text stands for the pieces of
the text (`unmask_mask`), and to restore it gives the text back (`restore_mask`).
-/

namespace Stencil.Placeholder

open Text

/-! ### The mapping of a text -/

section Put

variable {token span : List Char} {m : Mapping} {e : List Char × List Char}

theorem Mapping.mem_put (h : e ∈ m.put token span) : e = (token, span) ∨ e ∈ m := by
  induction m with
  | nil => exact Or.inl (List.mem_singleton.1 h)
  | cons e' m ih =>
    rw [Mapping.put] at h
    split at h
    · next heq =>
      rcases List.mem_cons.1 h with rfl | h
      · exact Or.inl (by rw [heq])
      · exact Or.inr (List.mem_cons_of_mem _ h)
    · rcases List.mem_cons.1 h with rfl | h
      · exact Or.inr List.mem_cons_self
      · exact (ih h).imp_right (List.mem_cons_of_mem _)

/-- A token keeps its place, and a new one comes last. -/
theorem Mapping.map_fst_put (token span : List Char) (m : Mapping) :
    (m.put token span).map Prod.fst =
      if token ∈ m.map Prod.fst then m.map Prod.fst else m.map Prod.fst ++ [token] := by
  induction m with
  | nil => rfl
  | cons e m ih =>
    rw [Mapping.put]
    split
    · next heq => simp [heq]
    · next hne =>
      rw [List.map_cons, ih, List.map_cons]
      by_cases hmem : token ∈ m.map Prod.fst
      · rw [if_pos hmem, if_pos (List.mem_cons_of_mem _ hmem)]
      · rw [if_neg hmem, if_neg fun h => hmem ((List.mem_cons.1 h).resolve_left (Ne.symm hne)),
          List.cons_append]

end Put

variable {text span : List Char}

/-- What a mapping holds of some directives: nothing but their tokens, each once. -/
theorem foldl_put (spans : List (List Char)) (m : Mapping) (hm : (m.map Prod.fst).Nodup) :
    let m' := spans.foldl (fun m span => m.put (token span) span) m
    (m'.map Prod.fst).Nodup ∧ (∀ e ∈ m', e ∈ m ∨ e.2 ∈ spans ∧ e.1 = token e.2) ∧
      ∀ t, t ∈ m'.map Prod.fst ↔ t ∈ m.map Prod.fst ∨ ∃ span ∈ spans, t = token span := by
  induction spans generalizing m with
  | nil => exact ⟨hm, fun e he => Or.inl he, fun t => by simp⟩
  | cons span spans ih =>
    have hkeys := Mapping.map_fst_put (token span) span m
    have hput : ((m.put (token span) span).map Prod.fst).Nodup := by
      rw [hkeys]
      split
      · exact hm
      · next hnot => exact List.Nodup.append hm (List.nodup_singleton _) (by simpa using hnot)
    obtain ⟨hnodup, hentries, htokens⟩ := ih (m.put (token span) span) hput
    refine ⟨hnodup, fun e he => ?_, fun t => ?_⟩
    · rcases hentries e he with he | ⟨hspan, htoken⟩
      · rcases Mapping.mem_put he with rfl | he
        · exact Or.inr ⟨List.mem_cons_self, rfl⟩
        · exact Or.inl he
      · exact Or.inr ⟨List.mem_cons_of_mem _ hspan, htoken⟩
    · have hmem : t ∈ (m.put (token span) span).map Prod.fst ↔ t ∈ m.map Prod.fst ∨ t = token span := by
        rw [hkeys]
        split
        · next hin => exact ⟨Or.inl, fun h => h.elim id fun heq => heq ▸ hin⟩
        · simp
      refine (htokens t).trans ?_
      rw [hmem, List.exists_mem_cons_iff, or_assoc]

/-- An entry of the mapping is a directive of the text under its own token. -/
theorem mem_directives_of_mem_mapping {e : List Char × List Char} (h : e ∈ mapping text) :
    e.2 ∈ directives text ∧ e.1 = token e.2 :=
  ((foldl_put (directives text) [] List.nodup_nil).2.1 e h).resolve_left List.not_mem_nil

theorem mem_map_fst_mapping {t : List Char} :
    t ∈ (mapping text).map Prod.fst ↔ ∃ span ∈ directives text, t = token span := by
  refine ((foldl_put (directives text) [] List.nodup_nil).2.2 t).trans ?_
  simp

/-- The tokens of a text's directives can be told from each other and from the text: different directives
have different ones, and none of them occurs in the text. -/
structure TokensApart (text : List Char) : Prop where
  distinct : ∀ d ∈ directives text, ∀ d' ∈ directives text, token d = token d' → d = d'
  absent : ∀ d ∈ directives text, occursIn (token d) text = false

namespace TokensApart

theorem not_occurs (h : TokensApart text) (hspan : span ∈ directives text) : ¬ token span <:+: text :=
  occursIn_eq_false_iff.1 (h.absent span hspan)

/-- Every directive has its entry. -/
theorem mem_mapping (h : TokensApart text) (hspan : span ∈ directives text) :
    (token span, span) ∈ mapping text := by
  obtain ⟨e, he, htoken⟩ := List.mem_map.1 (mem_map_fst_mapping.2 ⟨span, hspan, rfl⟩)
  obtain ⟨hmem, hown⟩ := mem_directives_of_mem_mapping he
  have hsame : e.2 = span := h.distinct e.2 hmem span hspan (hown.symm.trans htoken)
  have hentry : e = (token span, span) := Prod.ext htoken hsame
  exact hentry ▸ he

theorem sound (h : TokensApart text) : (mapping text).Sound where
  isToken e he := by
    rw [(mem_directives_of_mem_mapping he).2]
    exact isToken_token e.2
  nodup := (foldl_put (directives text) [] List.nodup_nil).1
  opens e he := (isDirective_of_mem (mem_directives_of_mem_mapping he).1).head?_eq
  closes e he := (isDirective_of_mem (mem_directives_of_mem_mapping he).1).getLast?_eq
  free e he e' he' hin := by
    obtain ⟨hmem, htoken⟩ := mem_directives_of_mem_mapping he
    rw [htoken] at hin
    exact h.not_occurs hmem (hin.trans (infix_of_mem_directives (mem_directives_of_mem_mapping he').1))

end TokensApart

/-! ### The masked text -/

/-- A word that begins in a masked line, and in no proper ending of which a token begins, begins in the line
as it stands for itself. -/
theorem prefix_of_prefix_masked {ps : List Piece} {p : List Char}
    (hp : ∀ q, q <:+ p → q ≠ [] → ∀ span rest, ¬ q <+: token span ++ rest)
    (h : p <+: ps.flatMap masked) : p <+: ps.flatMap Piece.chars := by
  induction ps generalizing p with
  | nil => exact h
  | cons piece ps ih =>
    cases p with
    | nil => exact List.nil_prefix
    | cons x p =>
      rw [List.flatMap_cons] at h ⊢
      cases piece with
      | char c =>
        obtain ⟨rfl, hrest⟩ := List.cons_prefix_cons.1 h
        have hp' : ∀ q, q <:+ p → q ≠ [] → ∀ span rest, ¬ q <+: token span ++ rest := fun q hq =>
          hp q (hq.trans (List.suffix_cons x p))
        exact List.cons_prefix_cons.2 ⟨rfl, ih hp' hrest⟩
      | directive span => exact absurd h (hp (x :: p) List.suffix_rfl (List.cons_ne_nil x p) span _)

/-- A token that begins at a character of a masked line occurs in the line as it stands for itself. -/
theorem infix_of_prefix_masked {t : List Char} (ht : IsToken t) {c : Char} {ps : List Piece}
    (h : t <+: c :: ps.flatMap masked) : t <:+: c :: ps.flatMap Piece.chars := by
  obtain ⟨x, t, rfl⟩ := List.exists_cons_of_ne_nil ht.ne_nil
  obtain ⟨rfl, hrest⟩ := List.cons_prefix_cons.1 h
  -- no token begins where the rest of this one would reach into it
  have hinside : ∀ q, q <:+ t → q ≠ [] → ∀ span rest, ¬ q <+: token span ++ rest := by
    intro q hq hne span rest
    have hproper : q ≠ x :: t := by
      rintro rfl
      have hlength := hq.length_le
      rw [List.length_cons] at hlength
      omega
    exact ht.not_prefix_of_suffix (isToken_token span) (hq.trans (List.suffix_cons x t)) hne hproper
  exact (List.cons_prefix_cons.2 ⟨rfl, prefix_of_prefix_masked hinside hrest⟩).isInfix

/-- The masked text stands for the pieces of the text. -/
theorem unmask_mask (h : TokensApart text) : unmask (mapping text) (mask text) = pieces text := by
  -- the induction goes over the ends of the line, for only these are known to lie in the text
  have hends : ∀ ps, ps <:+ pieces text → unmask (mapping text) (ps.flatMap masked) = ps := by
    intro ps
    induction ps with
    | nil => exact fun _ => unmask_nil _
    | cons piece ps ih =>
      intro hps
      have hrest := ih ((List.suffix_cons piece ps).trans hps)
      rw [List.flatMap_cons]
      cases piece with
      | directive span =>
        have hspan : span ∈ directives text := mem_directives.2 (hps.mem List.mem_cons_self)
        rw [masked, h.sound.unmask_token (h.mem_mapping hspan), hrest]
      | char c =>
        -- a token that began here would occur in the text itself
        have hno : ∀ e ∈ mapping text, ¬ e.1 <+: c :: ps.flatMap masked := by
          intro e he hprefix
          have hin := infix_of_prefix_masked (h.sound.isToken e he) hprefix
          obtain ⟨before, hbefore⟩ := hps
          have htext : c :: ps.flatMap Piece.chars <:+ text := by
            refine ⟨before.flatMap Piece.chars, ?_⟩
            rw [← flatMap_chars_pieces text, ← hbefore, List.flatMap_append, List.flatMap_cons]
            rfl
          obtain ⟨hmem, htoken⟩ := mem_directives_of_mem_mapping he
          rw [htoken] at hin
          exact h.not_occurs hmem (hin.trans htext.isInfix)
        rw [masked, List.singleton_append, unmask_char hno, hrest]
  exact hends (pieces text) List.suffix_rfl

/-- A token of the mapping occurs in the masked text. -/
theorem infix_mask {e : List Char × List Char} (he : e ∈ mapping text) : e.1 <:+: mask text := by
  obtain ⟨hmem, htoken⟩ := mem_directives_of_mem_mapping he
  obtain ⟨before, after, hpieces⟩ := List.append_of_mem (mem_directives.1 hmem)
  refine ⟨before.flatMap masked, after.flatMap masked, ?_⟩
  rw [htoken, mask, hpieces]
  simp [masked]

/-- A masked text is restored to what it was, and no directive is missed. -/
theorem restore_mask {text : List Char} (h : TokensApart text) :
    restore (mapping text) (mask text) = text ∧ dropped (mapping text) (mask text) = [] := by
  refine ⟨?_, ?_⟩
  · rw [h.sound.restore_eq, fill, unmask_mask h, flatMap_chars_pieces]
  · rw [h.sound.dropped_eq, List.map_eq_nil_iff, List.filter_eq_nil_iff]
    intro e he
    simpa using occursIn_iff.2 (infix_mask he)

/-- A directive over two lines, one with an opening marker in it, and one that comes twice. -/
theorem restore_mask_call :
    let text := "f(<%= \"a > b\" %>, <%= '<%' %><% if\n c %>); <%= '<%' %> % <".toList
    TokensApart text ∧ restore (mapping text) (mask text) = text ∧
      dropped (mapping text) (mask text) = [] := by
  intro text
  have hapart : TokensApart text := ⟨by decide +kernel, by decide +kernel⟩
  exact ⟨hapart, restore_mask hapart⟩

end Stencil.Placeholder
