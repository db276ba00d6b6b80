import Mathlib.Data.List.Infix
import Stencil.Text.Find

/-!
# Words in texts

A word occurs in a text if the text is something, the word and something more. To replace a word is to go
through the text from the left: where the word begins it is replaced and passed over, and any other
character is kept. That is all that later proofs need of the search: they go along a text and say at each
place whether the word begins there.
-/

namespace Stencil.Text

variable {word new text rest : List Char} {c : Char}

theorem dropPrefix?_eq_some_iff : dropPrefix? word text = some rest ↔ text = word ++ rest := by
  induction word generalizing text with
  | nil => simp [dropPrefix?, eq_comm]
  | cons s word ih =>
    cases text with
    | nil => simp [dropPrefix?]
    | cons c text =>
      rw [dropPrefix?]
      split
      · next hsc => simp [ih, hsc]
      · next hsc => simp [Ne.symm hsc]

theorem dropPrefix?_eq_none_iff : dropPrefix? word text = none ↔ ¬ word <+: text := by
  rw [Option.eq_none_iff_forall_ne_some]
  constructor
  · rintro h ⟨rest, rfl⟩
    exact h rest (dropPrefix?_eq_some_iff.2 rfl)
  · intro h rest hrest
    exact h ⟨rest, (dropPrefix?_eq_some_iff.1 hrest).symm⟩

/-! ### The first occurrence -/

theorem splitFirst?_append (word rest : List Char) : splitFirst? word (word ++ rest) = some ([], rest) := by
  cases htext : word ++ rest with
  | nil =>
    obtain ⟨rfl, rfl⟩ := List.append_eq_nil_iff.1 htext
    rfl
  | cons c text => rw [splitFirst?, dropPrefix?_eq_some_iff.2 htext.symm]

theorem splitFirst?_cons (h : ¬ word <+: c :: text) :
    splitFirst? word (c :: text) =
      (splitFirst? word text).map fun (before, after) => (c :: before, after) := by
  rw [splitFirst?, dropPrefix?_eq_none_iff.2 h]

theorem splitFirst?_eq_append {before after : List Char} (h : splitFirst? word text = some (before, after)) :
    text = before ++ (word ++ after) := by
  induction text generalizing before with
  | nil =>
    rw [splitFirst?] at h
    split at h
    · next hw =>
      cases h
      rw [List.isEmpty_iff.1 hw]
      rfl
    · cases h
  | cons c text ih =>
    rw [splitFirst?] at h
    split at h
    · next rest hrest =>
      cases h
      rw [dropPrefix?_eq_some_iff.1 hrest, List.nil_append]
    · obtain ⟨⟨b, a⟩, hs, heq⟩ := Option.map_eq_some_iff.1 h
      cases heq
      rw [ih hs]
      rfl

/-- The first occurrence before a character that the word does not have is there without it. -/
theorem splitFirst?_of_concat {before after : List Char} (hw : word ≠ []) (hc : c ∉ word)
    (h : splitFirst? word (text ++ [c]) = some (before, after)) :
    ∃ after', after = after' ++ [c] ∧ splitFirst? word text = some (before, after') := by
  induction text generalizing before with
  | nil =>
    have hno : ¬ word <+: [c] := by
      intro hprefix
      rcases List.prefix_cons_iff.1 hprefix with rfl | ⟨word, rfl, -⟩
      · exact hw rfl
      · exact hc List.mem_cons_self
    rw [List.nil_append, splitFirst?_cons hno] at h
    simp [splitFirst?, hw] at h
  | cons d text ih =>
    by_cases hprefix : word <+: d :: (text ++ [c])
    · obtain ⟨rest, hrest⟩ := hprefix
      rw [List.cons_append, ← hrest, splitFirst?_append, Option.some.injEq, Prod.mk.injEq] at h
      obtain ⟨rfl, rfl⟩ := h
      rcases List.eq_nil_or_concat' rest with rfl | ⟨rest, last, rfl⟩
      · have hmem : c ∈ word := by
          rw [← List.append_nil word, hrest]
          simp
        exact absurd hmem hc
      · have hsame : (word ++ rest) ++ [last] = (d :: text) ++ [c] := by
          rw [List.append_assoc]
          exact hrest
        obtain ⟨htext, hlast⟩ := List.append_inj' hsame rfl
        obtain rfl : last = c := (List.cons.inj hlast).1
        exact ⟨rest, rfl, by rw [← htext, splitFirst?_append]⟩
    · have hno : ¬ word <+: d :: text := fun hshort => hprefix (hshort.trans (List.prefix_append _ [c]))
      rw [List.cons_append, splitFirst?_cons hprefix] at h
      obtain ⟨⟨b, a⟩, hs, heq⟩ := Option.map_eq_some_iff.1 h
      cases heq
      obtain ⟨after', rfl, hafter⟩ := ih hs
      exact ⟨after', rfl, by rw [splitFirst?_cons hno, hafter]; rfl⟩

theorem occursIn_iff : occursIn word text = true ↔ word <:+: text := by
  induction text with
  | nil => cases word <;> simp [occursIn, splitFirst?]
  | cons c text ih =>
    by_cases h : word <+: c :: text
    · obtain ⟨rest, hrest⟩ := h
      rw [occursIn, ← hrest, splitFirst?_append]
      exact ⟨fun _ => (List.prefix_append word rest).isInfix, fun _ => rfl⟩
    · rw [occursIn, splitFirst?_cons h, Option.isSome_map, ← occursIn, ih, List.infix_cons_iff]
      exact ⟨Or.inr, fun hor => hor.resolve_left h⟩

theorem occursIn_eq_false_iff : occursIn word text = false ↔ ¬ word <:+: text := by
  rw [← occursIn_iff, Bool.not_eq_true]

/-! ### Replacing -/

theorem replaceAll_nil (hw : word ≠ []) : replaceAll word new [] = [] := by
  have hsplit : splitFirst? word [] = none := by simp [splitFirst?, hw]
  rw [replaceAll, dif_neg hw, replaceWord]
  split
  · rfl
  · next hsome => simp [hsplit] at hsome

/-- Where the word begins it is replaced. -/
theorem replaceAll_append (hw : word ≠ []) :
    replaceAll word new (word ++ rest) = new ++ replaceAll word new rest := by
  rw [replaceAll, dif_neg hw, replaceWord, replaceAll, dif_neg hw]
  split
  · next hnone => simp [splitFirst?_append] at hnone
  · next before after hsome =>
    rw [splitFirst?_append, Option.some.injEq, Prod.mk.injEq] at hsome
    obtain ⟨rfl, rfl⟩ := hsome
    rw [List.nil_append]

/-- Where the word does not begin the character is kept. -/
theorem replaceAll_cons (h : ¬ word <+: c :: text) :
    replaceAll word new (c :: text) = c :: replaceAll word new text := by
  have hw : word ≠ [] := by
    rintro rfl
    exact h List.nil_prefix
  rw [replaceAll, dif_neg hw, replaceAll, dif_neg hw, replaceWord, replaceWord]
  cases hs : splitFirst? word text with
  | none =>
    have hcons : splitFirst? word (c :: text) = none := by rw [splitFirst?_cons h, hs, Option.map_none]
    split
    · rfl
    · next hsome => simp [hcons] at hsome
  | some parts =>
    have hcons : splitFirst? word (c :: text) = some (c :: parts.1, parts.2) := by
      rw [splitFirst?_cons h, hs, Option.map_some]
    split
    · next hnone => simp [hcons] at hnone
    · next before after hsome =>
      rw [hcons, Option.some.injEq, Prod.mk.injEq] at hsome
      obtain ⟨rfl, rfl⟩ := hsome
      simp

/-- A stretch in which the word begins nowhere is kept. -/
theorem replaceAll_append_of_forall {start : List Char}
    (h : ∀ q, q <:+ start → q ≠ [] → ¬ word <+: q ++ rest) :
    replaceAll word new (start ++ rest) = start ++ replaceAll word new rest := by
  induction start with
  | nil => rfl
  | cons c start ih =>
    have hc : ¬ word <+: c :: (start ++ rest) := h (c :: start) List.suffix_rfl (List.cons_ne_nil c start)
    have hrest : ∀ q, q <:+ start → q ≠ [] → ¬ word <+: q ++ rest := fun q hq =>
      h q (hq.trans (List.suffix_cons c start))
    rw [List.cons_append, replaceAll_cons hc, ih hrest, List.cons_append]

/-! ### Stretches in which a word begins nowhere -/

/-- What occurs in a text and begins nowhere in a first stretch of it occurs in the rest. -/
theorem infix_of_infix_append {start : List Char} (h : ∀ q, q <:+ start → q ≠ [] → ¬ word <+: q ++ rest)
    (hword : word <:+: start ++ rest) : word <:+: rest := by
  induction start with
  | nil => exact hword
  | cons c start ih =>
    rcases List.infix_cons_iff.1 hword with hprefix | hword
    · exact absurd hprefix (h (c :: start) List.suffix_rfl (List.cons_ne_nil c start))
    · exact ih (fun q hq => h q (hq.trans (List.suffix_cons c start))) hword

end Stencil.Text
