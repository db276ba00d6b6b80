import Mathlib.Data.List.Infix
import Stencil.Placeholder

/-!
# Tokens do not overlap

A token is the fixed word and thirty-two hexadecimal digits. No digit is the first letter of the word, and
inside the word only one other letter is, which the wrong letter follows. So no token begins inside another,
whatever follows there (`IsToken.not_prefix_of_suffix`): where tokens stand in a text can be told from the
left to the right.
-/

namespace Stencil.Placeholder

/-- The digits of a digest. -/
def digestDigits : List Char :=
  ['0', '1', '2', '3', '4', '5', '6', '7', '8', '9', 'a', 'b', 'c', 'd', 'e', 'f']

/-- A text of the form that all tokens have: the word and thirty-two digits of a digest. -/
def IsToken (t : List Char) : Prop :=
  ∃ digits : List Char, t = word ++ digits ∧ digits.length = 32 ∧ ∀ d ∈ digits, d ∈ digestDigits

theorem hexDigit_mem {n : Nat} (h : n < 16) : Text.hexDigit n ∈ digestDigits := by
  have hall : ∀ n < 16, Text.hexDigit n ∈ digestDigits := by decide
  exact hall n h

theorem mem_digestDigits_of_hex {bytes : List UInt8} {d : Char} (h : d ∈ Digest.hex bytes) :
    d ∈ digestDigits := by
  obtain ⟨b, -, hd⟩ := List.mem_flatMap.1 h
  have hb : b.toNat < 256 := b.toNat_lt
  rcases List.mem_cons.1 hd with rfl | hd
  · exact hexDigit_mem (by omega)
  · rw [List.mem_singleton.1 hd]
    exact hexDigit_mem (Nat.mod_lt _ (by decide))

/-- The tokens of directives have the form. -/
theorem isToken_token (span : List Char) : IsToken (token span) := by
  refine ⟨_, rfl, ?_, fun d => mem_digestDigits_of_hex⟩
  rw [Digest.length_hex, Digest.length_md5]

namespace IsToken

variable {t u q rest : List Char}

theorem length_eq (h : IsToken t) : t.length = 40 := by
  obtain ⟨digits, rfl, hlength, -⟩ := h
  rw [List.length_append, hlength]
  rfl

theorem ne_nil (h : IsToken t) : t ≠ [] := by
  rintro rfl
  exact absurd h.length_eq (by decide)

/-- The characters of a token are those of the word and the digits. -/
theorem mem_of_mem (h : IsToken t) {c : Char} (hc : c ∈ t) : c ∈ word ++ digestDigits := by
  obtain ⟨digits, rfl, -, hdigits⟩ := h
  rcases List.mem_append.1 hc with hword | hdigit
  · exact List.mem_append_left _ hword
  · exact List.mem_append_right _ (hdigits c hdigit)

theorem not_mem (h : IsToken t) {c : Char} (hc : c ∉ word ++ digestDigits) : c ∉ t :=
  fun hmem => hc (h.mem_of_mem hmem)

/-- Of two tokens at one place both are the same. -/
theorem eq_of_begins (ht : IsToken t) (hu : IsToken u) (h : t <+: u ++ rest) : t = u := by
  have hlength : t.length = u.length := ht.length_eq.trans hu.length_eq.symm
  have hbegins : t <+: u := List.prefix_of_prefix_length_le h (List.prefix_append u rest) hlength.le
  exact hbegins.eq_of_length hlength

/-- No token begins inside another one. -/
theorem not_prefix_of_suffix (ht : IsToken t) (hu : IsToken u) (hq : q <:+ t) (hne : q ≠ [])
    (hproper : q ≠ t) : ¬ q <+: u ++ rest := by
  obtain ⟨ds, rfl, -, hds⟩ := ht
  obtain ⟨us, rfl, -⟩ := hu
  intro hprefix
  simp only [word, List.cons_append, List.nil_append, List.suffix_cons_iff] at hq hproper hprefix
  -- the letters of the word one after the other, then its digits
  rcases hq with rfl | rfl | rfl | rfl | rfl | rfl | rfl | rfl | hq
  · exact hproper rfl
  all_goals try simp at hprefix
  cases q with
  | nil => exact hne rfl
  | cons d q =>
    obtain ⟨rfl, -⟩ := List.cons_prefix_cons.1 hprefix
    exact absurd (hds 't' (hq.mem List.mem_cons_self)) (by decide)

/-- In no proper ending of a token does a token begin that goes on after it. -/
theorem not_prefix_append (ht : IsToken t) (hu : IsToken u) (hq : q <:+ u) (hne : q ≠ [])
    (hproper : q ≠ u) : ¬ t <+: q ++ rest := by
  intro hprefix
  have hlength : q.length ≤ t.length := by
    rw [ht.length_eq, ← hu.length_eq]
    exact hq.length_le
  have hqt : q <+: t := List.prefix_of_prefix_length_le (List.prefix_append q rest) hprefix hlength
  exact hu.not_prefix_of_suffix ht hq hne hproper (hqt.trans (List.prefix_append t rest))

/-- A token begins nowhere in another one. -/
theorem not_prefix_of_ne (ht : IsToken t) (hu : IsToken u) (htu : t ≠ u) (hq : q <:+ u) (hne : q ≠ []) :
    ¬ t <+: q ++ rest := by
  by_cases hproper : q = u
  · rw [hproper]
    exact fun hprefix => htu (ht.eq_of_begins hu hprefix)
  · exact ht.not_prefix_append hu hq hne hproper

end IsToken

end Stencil.Placeholder
