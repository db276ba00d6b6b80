import Mathlib.Data.List.Basic
import Stencil.Json.Reader
import Stencil.Json.Writer

/-!
# Strings in JSON

A string is written character by character, and each character can be read again: one that stands for itself,
one behind a backslash, four digits, or the four digits of two halves. An escape with digits is only looked at if
something follows it, and something does, since the string is closed by a quote (`stringRest_string`). What is
written is visible (`visible_writeString`).
-/

namespace Stencil

namespace Text

theorem baseDigit_hexDigit {n : Nat} (h : n < 16) : baseDigit 16 (hexDigit n) = some n := by
  have hall : ∀ n < 16, baseDigit 16 (hexDigit n) = some n := by decide
  exact hall n h

end Text

namespace Json

/-- A visible character of ASCII, or a blank. -/
def Visible (c : Char) : Prop := 0x20 ≤ c.toNat ∧ c.toNat < 0x7F

instance (c : Char) : Decidable (Visible c) := inferInstanceAs (Decidable (_ ∧ _))

variable {opening n : Nat} {c : Char} {rest cs after : List Char}

/-! ### Escapes with digits -/

theorem escapeFour_eq (n : Nat) :
    escapeFour n = ['\\', 'u', Text.hexDigit (n / 4096 % 16), Text.hexDigit (n / 256 % 16),
      Text.hexDigit (n / 16 % 16), Text.hexDigit (n % 16)] := by
  simp [escapeFour, Text.hexDigits, Nat.div_div_eq_div_mul]

theorem hexFour?_hexDigit (h : n < 0x10000) :
    hexFour? (Text.hexDigit (n / 4096 % 16)) (Text.hexDigit (n / 256 % 16)) (Text.hexDigit (n / 16 % 16))
      (Text.hexDigit (n % 16)) = some n := by
  have hvalue : (n / 4096 % 16 * 16 + n / 256 % 16) * 16 + n / 16 % 16 = n / 16 := by omega
  simp only [hexFour?, Text.baseDigit_hexDigit (Nat.mod_lt _ (by decide : 0 < 16))]
  show some (((n / 4096 % 16 * 16 + n / 256 % 16) * 16 + n / 16 % 16) * 16 + n % 16) = some n
  rw [hvalue, Nat.div_add_mod']

theorem rest_ne_nil (h : stringRest opening rest = .ok (cs, after)) : rest ≠ [] := by
  rintro rfl
  simp [stringRest] at h

/-- An escape that is no half of a pair is one character. -/
theorem stringRest_escapeFour (hn : n < 0x10000) (hhigh : isHighHalf n = false)
    (h : stringRest opening rest = .ok (cs, after)) :
    stringRest opening (escapeFour n ++ rest) = .ok (charOf n :: cs, after) := by
  obtain ⟨e, rest, rfl⟩ := List.exists_cons_of_ne_nil (rest_ne_nil h)
  rw [escapeFour_eq]
  simp only [List.cons_append, List.nil_append]
  rw [stringRest, hexFour?_hexDigit hn]
  simp [hhigh, h, bind, Except.bind, pure, Except.pure]

/-- Two halves of a pair are one character. -/
theorem stringRest_halves {high low : Nat} (hhigh : isHighHalf high = true) (hlow : isLowHalf low = true)
    (h : stringRest opening rest = .ok (cs, after)) :
    stringRest opening (escapeFour high ++ (escapeFour low ++ rest)) = .ok (joinHalves high low :: cs, after) := by
  have hhigh' : high < 0x10000 := by
    simp only [isHighHalf, Bool.and_eq_true, decide_eq_true_eq] at hhigh
    omega
  have hlow' : low < 0x10000 := by
    simp only [isLowHalf, Bool.and_eq_true, decide_eq_true_eq] at hlow
    omega
  obtain ⟨e, rest, rfl⟩ := List.exists_cons_of_ne_nil (rest_ne_nil h)
  rw [escapeFour_eq, escapeFour_eq]
  simp only [List.cons_append, List.nil_append]
  rw [stringRest, hexFour?_hexDigit hhigh']
  simp [hhigh, lowHalf?, hexFour?_hexDigit hlow', hlow, h, bind, Except.bind, pure, Except.pure]

/-! ### Characters -/

/-- The numbers of characters leave a gap for the halves of pairs. -/
theorem toNat_lt_or (c : Char) : c.toNat < 0xD800 ∨ 0xE000 ≤ c.toNat ∧ c.toNat < 0x110000 :=
  c.valid.imp id fun h => ⟨h.1, h.2⟩

/-- How a character is written: behind a backslash, as it is, with four digits or in two halves. -/
theorem writeChar_cases (c : Char) :
    (∃ x, Visible x ∧ simpleEscape? x = some c ∧ writeChar c = ['\\', x]) ∨
    (Visible c ∧ c ≠ '"' ∧ c ≠ '\\' ∧ writeChar c = [c]) ∨
    (c.toNat < 0x10000 ∧ writeChar c = escapeFour c.toNat) ∨
    ∃ high low, isHighHalf high = true ∧ isLowHalf low = true ∧ joinHalves high low = c ∧
      writeChar c = escapeFour high ++ escapeFour low := by
  generalize hchars : writeChar c = chars
  unfold writeChar at hchars
  split at hchars
  · next hquote => exact Or.inl ⟨'"', by decide, by rw [hquote]; rfl, hchars.symm⟩
  next hquote =>
  split at hchars
  · next hslash => exact Or.inl ⟨'\\', by decide, by rw [hslash]; rfl, hchars.symm⟩
  next hslash =>
  split at hchars
  · next hline => exact Or.inl ⟨'n', by decide, by rw [hline]; rfl, hchars.symm⟩
  split at hchars
  · next hreturn => exact Or.inl ⟨'r', by decide, by rw [hreturn]; rfl, hchars.symm⟩
  split at hchars
  · next htab => exact Or.inl ⟨'t', by decide, by rw [htab]; rfl, hchars.symm⟩
  split at hchars
  · next hback => exact Or.inl ⟨'b', by decide, by rw [hback]; rfl, hchars.symm⟩
  split at hchars
  · next hfeed => exact Or.inl ⟨'f', by decide, by rw [hfeed]; rfl, hchars.symm⟩
  split at hchars
  · next hvisible => exact Or.inr (Or.inl ⟨hvisible, hquote, hslash, hchars.symm⟩)
  split at hchars
  · next hsmall => exact Or.inr (Or.inr (Or.inl ⟨hsmall, hchars.symm⟩))
  · have hvalid := toNat_lt_or c
    refine Or.inr (Or.inr (Or.inr ⟨_, _, ?_, ?_, ?_, hchars.symm⟩))
    · simp only [isHighHalf, Bool.and_eq_true, decide_eq_true_eq]
      omega
    · simp only [isLowHalf, Bool.and_eq_true, decide_eq_true_eq]
      omega
    · have hjoined : 0x10000 + (0xD800 + (c.toNat - 0x10000) / 0x400 - 0xD800) * 0x400 +
          (0xDC00 + (c.toNat - 0x10000) % 0x400 - 0xDC00) = c.toNat := by omega
      rw [joinHalves, hjoined, Char.ofNat_toNat]

theorem stringRest_backslash {x e : Char} (hx : simpleEscape? x = some e)
    (h : stringRest opening rest = .ok (cs, after)) :
    stringRest opening ('\\' :: x :: rest) = .ok (e :: cs, after) := by
  have hu : x ≠ 'u' := by
    rintro rfl
    exact nomatch hx
  rw [stringRest]
  · simp [hx, h, bind, Except.bind, pure, Except.pure]
  · exact fun _ _ _ _ _ _ heq => absurd heq hu
  · exact fun heq => absurd heq hu

theorem stringRest_plain (hvisible : Visible c) (hquote : c ≠ '"') (hslash : c ≠ '\\')
    (h : stringRest opening rest = .ok (cs, after)) :
    stringRest opening (c :: rest) = .ok (c :: cs, after) := by
  have hspace : ¬ c.toNat < 0x20 := Nat.not_lt.2 hvisible.1
  rw [stringRest]
  · rw [if_neg hspace, h]
    rfl
  · exact hquote
  -- no escape begins here
  all_goals simp [hslash]

/-- Each character is read as it was written. -/
theorem stringRest_writeChar (c : Char) (h : stringRest opening rest = .ok (cs, after)) :
    stringRest opening (writeChar c ++ rest) = .ok (c :: cs, after) := by
  rcases writeChar_cases c with ⟨x, -, hx, hc⟩ | ⟨hvisible, hquote, hslash, hc⟩ | ⟨hsmall, hc⟩ |
    ⟨high, low, hhigh, hlow, hjoin, hc⟩
  · rw [hc]
    exact stringRest_backslash hx h
  · rw [hc]
    exact stringRest_plain hvisible hquote hslash h
  · -- the character itself is no half of a pair
    have hvalid := toNat_lt_or c
    have hhigh : isHighHalf c.toNat = false := by
      rw [isHighHalf, Bool.and_eq_false_iff, decide_eq_false_iff_not, decide_eq_false_iff_not]
      omega
    have hlow : isLowHalf c.toNat = false := by
      rw [isLowHalf, Bool.and_eq_false_iff, decide_eq_false_iff_not, decide_eq_false_iff_not]
      omega
    rw [hc, stringRest_escapeFour hsmall hhigh h, charOf, hhigh, hlow, Char.ofNat_toNat]
    rfl
  · rw [hc, List.append_assoc, stringRest_halves hhigh hlow h, hjoin]

/-- A string is read up to its closing quote. -/
theorem stringRest_string (s rest : List Char) :
    stringRest opening (s.flatMap writeChar ++ '"' :: rest) = .ok (s, rest) := by
  induction s with
  | nil => rw [List.flatMap_nil, List.nil_append, stringRest]
  | cons c s ih => rw [List.flatMap_cons, List.append_assoc, stringRest_writeChar c ih]

/-! ### What is visible -/

theorem visible_hexDigit {n : Nat} (h : n < 16) : Visible (Text.hexDigit n) := by
  have hall : ∀ n < 16, Visible (Text.hexDigit n) := by decide
  exact hall n h

theorem visible_escapeFour (n : Nat) : ∀ c ∈ escapeFour n, Visible c := by
  have hdigit : ∀ k, Visible (Text.hexDigit (k % 16)) := fun k => visible_hexDigit (Nat.mod_lt k (by decide))
  rw [escapeFour_eq]
  simp only [List.forall_mem_cons, List.not_mem_nil, hdigit, true_and]
  exact ⟨by decide, by decide, fun c hc => hc.elim⟩

theorem visible_writeChar (c : Char) : ∀ d ∈ writeChar c, Visible d := by
  have hbackslash : Visible '\\' := by decide
  rcases writeChar_cases c with ⟨x, hx, -, hc⟩ | ⟨hvisible, -, -, hc⟩ | ⟨-, hc⟩ | ⟨high, low, -, -, -, hc⟩
  · simp [hc, hx, hbackslash]
  · simp [hc, hvisible]
  · rw [hc]
    exact visible_escapeFour c.toNat
  · rw [hc]
    exact List.forall_mem_append.2 ⟨visible_escapeFour high, visible_escapeFour low⟩

theorem visible_writeString (s : String) : ∀ d ∈ writeString s, Visible d := by
  have hquote : Visible '"' := by decide
  rw [writeString, List.forall_mem_cons, List.forall_mem_append]
  refine ⟨hquote, fun d hd => ?_, by simpa using hquote⟩
  obtain ⟨c, -, hc⟩ := List.mem_flatMap.1 hd
  exact visible_writeChar c d hc

end Json

end Stencil
