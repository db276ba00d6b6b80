import Stencil.Minify
import Stencil.Proofs.Placeholder.Occurrences

/-!
# Restoring in any order

To restore a text is to cut it into characters and tokens, with a token wherever one occurs, and to put a
directive in the place of each token (`exists_parts`). The cut does not depend on the order of the mapping, so
neither does what is restored, and the same directives are missed (`restore_at_once`).
-/

namespace Stencil.Placeholder

open Text

variable {m m' : Mapping}

/-- A part of a text with tokens in it: a character, or the token of an entry of the mapping. -/
inductive Part where
  | char (c : Char)
  | entry (e : List Char × List Char)

namespace Part

/-- What stands in the text. -/
def source : Part → List Char
  | char c => [c]
  | entry e => e.1

/-- What stands in the text that is restored. -/
def restored : Part → List Char
  | char c => [c]
  | entry e => e.2

def entry? : Part → Option (List Char × List Char)
  | char _ => none
  | entry e => some e

end Part

namespace Mapping.Sound

/-- A text is a line of parts with a token wherever one occurs, and it is filled part by part. -/
theorem exists_parts (h : m.Sound) (text : List Char) :
    ∃ parts : List Part, parts.flatMap Part.source = text ∧ parts.flatMap Part.restored = fill m text ∧
      (∀ e ∈ parts.filterMap Part.entry?, e ∈ m) ∧
      (parts.filterMap Part.entry?).map Prod.fst = occurrences (m.map Prod.fst) text := by
  induction text using token_induct m h.ne_nil with
  | nil =>
    refine ⟨[], rfl, ?_, fun e he => absurd he List.not_mem_nil, ?_⟩
    · rw [fill, unmask_nil, List.flatMap_nil, List.flatMap_nil]
    · rw [occurrences_nil fun t ht => (h.isToken_of_mem_map t ht).ne_nil]
      rfl
  | token e he rest ih =>
    obtain ⟨parts, hsource, hrestored, hentries, htokens⟩ := ih
    refine ⟨.entry e :: parts, ?_, ?_, ?_, ?_⟩
    · rw [List.flatMap_cons, hsource, Part.source]
    · rw [List.flatMap_cons, hrestored, fill, fill, h.unmask_token he, List.flatMap_cons, Part.restored,
        Piece.chars]
    · exact List.forall_mem_cons.2 ⟨he, hentries⟩
    · rw [h.occurrences_token he, ← htokens]
      rfl
  | char c rest hno ih =>
    obtain ⟨parts, hsource, hrestored, hentries, htokens⟩ := ih
    have hnone : (m.map Prod.fst).filter (fun t => t <+: c :: rest) = [] := by
      refine List.filter_eq_nil_iff.2 fun t ht hprefix => ?_
      obtain ⟨e, he, rfl⟩ := List.mem_map.1 ht
      exact hno e he (of_decide_eq_true hprefix)
    refine ⟨.char c :: parts, ?_, ?_, hentries, ?_⟩
    · rw [List.flatMap_cons, hsource, Part.source, List.singleton_append]
    · rw [List.flatMap_cons, hrestored, fill, fill, unmask_char hno, List.flatMap_cons, Part.restored,
        Piece.chars]
    · rw [occurrences_cons, hnone, List.nil_append, ← htokens]
      rfl

/-! ### The order of the mapping -/

theorem perm (h : m.Sound) (hperm : m'.Perm m) : m'.Sound where
  isToken e he := h.isToken e (hperm.subset he)
  nodup := (hperm.map Prod.fst).nodup_iff.2 h.nodup
  opens e he := h.opens e (hperm.subset he)
  closes e he := h.closes e (hperm.subset he)
  free e he e' he' := h.free e (hperm.subset he) e' (hperm.subset he')

theorem unmask_perm (h : m.Sound) (hperm : m'.Perm m) (text : List Char) : unmask m' text = unmask m text := by
  induction text using token_induct m h.ne_nil with
  | nil => rw [unmask_nil, unmask_nil]
  | token e he rest ih => rw [(h.perm hperm).unmask_token (hperm.symm.subset he), h.unmask_token he, ih]
  | char c rest hno ih =>
    rw [unmask_char fun e he => hno e (hperm.subset he), unmask_char hno, ih]

theorem restore_perm (h : m.Sound) (hperm : m'.Perm m) (text : List Char) : restore m' text = restore m text := by
  rw [(h.perm hperm).restore_eq, h.restore_eq, fill, fill, h.unmask_perm hperm]

theorem dropped_perm (h : m.Sound) (hperm : m'.Perm m) (text : List Char) :
    (dropped m' text).Perm (dropped m text) := by
  rw [(h.perm hperm).dropped_eq, h.dropped_eq]
  exact (hperm.filter _).map Prod.snd

end Mapping.Sound

/-- Tokens that are replaced one after another are replaced at once: the text is a line of characters and tokens,
with a token wherever one occurs, and what is restored is this line with the directives in place of their tokens. In
every other order the same is restored and the same directives are missed, and they are those whose tokens do not
occur in the text. -/
theorem restore_at_once (h : m.Sound) (text : List Char) :
    (∃ parts : List Part, parts.flatMap Part.source = text ∧ parts.flatMap Part.restored = restore m text ∧
      (∀ e ∈ parts.filterMap Part.entry?, e ∈ m) ∧
      (parts.filterMap Part.entry?).map Prod.fst = occurrences (m.map Prod.fst) text) ∧
    (∀ m', m'.Perm m → restore m' text = restore m text ∧ (dropped m' text).Perm (dropped m text)) ∧
    (dropped m text).map Note.directiveDropped =
      (m.filter fun e => !occursIn e.1 text).map fun e => Note.directiveDropped e.2 := by
  refine ⟨?_, fun m' hperm => ⟨h.restore_perm hperm text, h.dropped_perm hperm text⟩, ?_⟩
  · rw [h.restore_eq]
    exact h.exists_parts text
  · rw [h.dropped_eq, List.map_map]
    rfl

/-- Tokens side by side, one of them twice, one that is missed, and directives with the word of the tokens in them. -/
theorem restore_at_once_call :
    let entry (span : String) : List Char × List Char := (token span.toList, span.toList)
    let m : Mapping := [entry "<%= tplmatch %>", entry "<% a %>", entry "<%tplmatch0cc175b9c0f1b6a8%>"]
    let text := 't' :: (token "<% a %>".toList ++ token "<%= tplmatch %>".toList ++ token "<% a %>".toList)
    m.Sound ∧ restore m text = "t<% a %><%= tplmatch %><% a %>".toList ∧
      restore m.reverse text = restore m text ∧ (dropped m.reverse text).Perm (dropped m text) ∧
      (dropped m text).map Note.directiveDropped =
        (m.filter fun e => !occursIn e.1 text).map fun e => Note.directiveDropped e.2 := by
  intro entry m text
  have hsound : m.Sound := by
    refine ⟨?_, by decide +kernel, by decide +kernel, by decide +kernel, by decide +kernel⟩
    intro e he
    obtain ⟨span, rfl⟩ : ∃ span, e = entry span := by
      simp only [m, List.mem_cons, List.not_mem_nil, or_false] at he
      rcases he with rfl | rfl | rfl
      · exact ⟨_, rfl⟩
      · exact ⟨_, rfl⟩
      · exact ⟨_, rfl⟩
    exact isToken_token span.toList
  obtain ⟨-, horder, hnotes⟩ := restore_at_once hsound text
  obtain ⟨hrestored, hdropped⟩ := horder m.reverse (List.reverse_perm m)
  exact ⟨hsound, by decide +kernel, hrestored, hdropped, hnotes⟩

end Stencil.Placeholder
