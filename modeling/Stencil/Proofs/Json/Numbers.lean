import Mathlib.Data.Nat.Digits.Defs
import Stencil.Json.Reader

/-!
# Whole numbers in JSON

A whole number is written in decimal digits that start with no zero, unless it is zero, and a minus sign stands
before a negative one. If its digits are not too many it is read again where nothing follows that could go on with
it (`plainValue_int`).
-/

namespace Stencil.Json

/-- Nothing follows, or what can come after a value: a comma or a closing bracket. -/
def Ends (rest : List Char) : Prop := ∀ c ∈ rest.head?, c = ',' ∨ c = ']' ∨ c = '\x7d'

variable {rest : List Char}

theorem ends_nil : Ends [] := fun _ h => nomatch h

theorem ends_cons {c : Char} (h : c = ',' ∨ c = ']' ∨ c = '\x7d') (rest : List Char) : Ends (c :: rest) := by
  rintro d ⟨⟩
  exact h

/-! ### Digits -/

theorem head?_toDigits {n : Nat} (hn : n ≠ 0) : (Nat.toDigits 10 n).head? ≠ some '0' := by
  induction n using Nat.strong_induction_on with
  | _ n ih =>
    by_cases hsmall : n < 10
    · have hdigit : ∀ k < 10, k ≠ 0 → k.digitChar ≠ '0' := by decide
      rw [Nat.toDigits_of_lt_base hsmall, List.head?_cons]
      exact fun h => hdigit n hsmall hn (Option.some.inj h)
    · have hpos : n / 10 ≠ 0 := by omega
      rw [Nat.toDigits_of_base_le (by decide) (by omega), List.head?_append]
      intro h
      cases hhead : (Nat.toDigits 10 (n / 10)).head? with
      | none => exact Nat.toDigits_ne_nil (List.head?_eq_none_iff.1 hhead)
      | some c =>
        rw [hhead, Option.some_or] at h
        exact ih (n / 10) (by omega) hpos (hhead.trans h)

theorem exists_toDigits (n : Nat) :
    ∃ c ds, c.isDigit = true ∧ (∀ d ∈ ds, d.isDigit = true) ∧ Nat.toDigits 10 n = c :: ds := by
  have hall : ∀ c ∈ Nat.toDigits 10 n, c.isDigit = true := fun c =>
    Nat.isDigit_of_mem_toDigits (by decide) (by decide)
  obtain ⟨c, ds, hds⟩ := List.exists_cons_of_ne_nil (Nat.toDigits_ne_nil (n := n) (b := 10))
  obtain ⟨hc, hrest⟩ := List.forall_mem_cons.1 (hds ▸ hall)
  exact ⟨c, ds, hc, hrest, hds⟩

theorem digitsValue_toDigits (n : Nat) : digitsValue (Nat.toDigits 10 n) = n := by
  have hsame : ∀ cs init, Nat.ofDigitChars 10 cs init = cs.foldl (fun n c => n * 10 + (c.toNat - 48)) init := by
    intro cs init
    rw [Nat.ofDigitChars]
    congr 1
    funext n c
    rw [Nat.mul_comm]
    rfl
  rw [digitsValue, ← hsame, Nat.ofDigitChars_ten_toDigits]

theorem Ends.not_isDigit (h : Ends rest) : ∀ c ∈ rest.head?, c.isDigit = false := by
  intro c hc
  rcases h c hc with rfl | rfl | rfl <;> decide

theorem digits_append {ds : List Char} (hds : ∀ c ∈ ds, c.isDigit = true) (h : Ends rest) :
    digits (ds ++ rest) = (ds, rest) := by
  have hrest : rest.takeWhile Char.isDigit = [] ∧ rest.dropWhile Char.isDigit = rest := by
    cases rest with
    | nil => exact ⟨rfl, rfl⟩
    | cons c rest => simp [h.not_isDigit c rfl]
  rw [digits, List.takeWhile_append_of_pos hds, List.dropWhile_append_of_pos hds, hrest.1, hrest.2,
    List.append_nil]

theorem wholePart?_toDigits (n : Nat) (h : Ends rest) :
    wholePart? (Nat.toDigits 10 n ++ rest) = some (Nat.toDigits 10 n, rest) := by
  by_cases hn : n = 0
  · rw [hn, Nat.toDigits_zero]
    rfl
  · obtain ⟨c, ds, hc, hrest, hds⟩ := exists_toDigits n
    have hsplit : digits (c :: ds ++ rest) = (c :: ds, rest) :=
      digits_append (List.forall_mem_cons.2 ⟨hc, hrest⟩) h
    have hzero : c ≠ '0' := by
      rintro rfl
      exact head?_toDigits hn (hds ▸ rfl)
    rw [List.cons_append] at hsplit
    rw [hds, List.cons_append, wholePart?, if_pos hc, hsplit]
    exact fun heq => absurd heq hzero

theorem wholeOf_toDigits (negative : Bool) {n : Nat} (hn : (Nat.toDigits 10 n).length ≤ Decimal.digitLimit) :
    wholeOf negative (Nat.toDigits 10 n) = .ok (.int (if negative then -n else n)) := by
  rw [wholeOf, if_neg (Nat.not_lt.2 hn), digitsValue_toDigits]

theorem number?_toDigits (negative : Bool) {n : Nat} (hn : (Nat.toDigits 10 n).length ≤ Decimal.digitLimit)
    (h : Ends rest) :
    number? negative (Nat.toDigits 10 n ++ rest) = some (.ok (.int (if negative then -n else n)), rest) := by
  have hfraction : fractionPart rest = ([], rest) := by
    cases rest with
    | nil => rfl
    | cons c rest =>
      have hc : c ≠ '.' := by
        rcases h c rfl with rfl | rfl | rfl <;> decide
      rw [fractionPart]
      exact fun _ heq => absurd (List.cons.inj heq).1 hc
  have hexponent : exponentPart? rest = none := by
    cases rest with
    | nil => rfl
    | cons c rest =>
      have hc : ¬ (c = 'e' ∨ c = 'E') := by
        rcases h c rfl with rfl | rfl | rfl <;> decide
      rw [exponentPart?, if_neg hc]
  rw [number?, wholePart?_toDigits n h]
  simp only [hfraction, hexponent, wholeOf_toDigits negative hn]

/-! ### Numbers with their signs -/

theorem toList_ofNat (n : Nat) : (toString (Int.ofNat n)).toList = Nat.toDigits 10 n := by
  have hrepr : toString (Int.ofNat n) = toString n := rfl
  rw [hrepr, Nat.toString_eq_ofList_toDigits, String.toList_ofList]

theorem toList_negSucc (n : Nat) : (toString (Int.negSucc n)).toList = '-' :: Nat.toDigits 10 (n + 1) := by
  have hrepr : toString (Int.negSucc n) = "-" ++ toString (n + 1) := rfl
  have hdigits : (toString (n + 1)).toList = Nat.toDigits 10 (n + 1) := by
    rw [Nat.toString_eq_ofList_toDigits, String.toList_ofList]
  rw [hrepr, String.toList_append, hdigits]
  rfl

/-- A whole number is written in digits, the first of them perhaps behind a minus sign. -/
theorem exists_digits (i : Int) : ∃ c ds, c.isDigit = true ∧ (∀ d ∈ ds, d.isDigit = true) ∧
    ((toString i).toList = c :: ds ∨ (toString i).toList = '-' :: c :: ds) := by
  cases i with
  | ofNat n =>
    obtain ⟨c, ds, hc, hrest, hds⟩ := exists_toDigits n
    exact ⟨c, ds, hc, hrest, Or.inl ((toList_ofNat n).trans hds)⟩
  | negSucc n =>
    obtain ⟨c, ds, hc, hrest, hds⟩ := exists_toDigits (n + 1)
    exact ⟨c, ds, hc, hrest, Or.inr ((toList_negSucc n).trans (congrArg _ hds))⟩

/-- A text that starts with a digit, or with a minus sign and a digit, starts with no word. -/
theorem findSome?_words {c : Char} (hc : c.isDigit = true) (cs : List Char) :
    (words.findSome? fun (word, s) => (afterWord? word (c :: cs)).map fun rest => (s, rest)) = none ∧
      (words.findSome? fun (word, s) => (afterWord? word ('-' :: c :: cs)).map fun rest => (s, rest)) = none := by
  have hletter : ∀ d, d.isDigit = false → d ≠ c := by
    rintro d hd rfl
    exact absurd hc (by simp [hd])
  have hletters : 'n' ≠ c ∧ 't' ≠ c ∧ 'f' ≠ c ∧ 'N' ≠ c ∧ 'I' ≠ c ∧ '-' ≠ c :=
    ⟨hletter _ rfl, hletter _ rfl, hletter _ rfl, hletter _ rfl, hletter _ rfl, hletter _ rfl⟩
  simp [words, afterWord?, hletters]

/-- A number that starts with a digit, perhaps behind a minus sign, is read as its digits say. -/
theorem plainValue_of_number? {c : Char} (hc : c.isDigit = true) {cs : List Char} (negative : Bool) {s : Scalar}
    (h : number? negative (c :: cs) = some (.ok s, rest)) :
    plainValue (if negative then '-' :: c :: cs else c :: cs) = .ok (.scalar s, rest) := by
  have hsign : c ≠ '-' := by
    rintro rfl
    exact absurd hc (by decide)
  unfold plainValue
  cases negative with
  | false =>
    rw [if_neg Bool.false_ne_true, (findSome?_words hc cs).1]
    dsimp only
    split
    · next t after hfound =>
      split at hfound
      · next heq => exact absurd (List.cons.inj heq).1 hsign
      · rw [h] at hfound
        cases hfound
        rfl
    · next hfound =>
      split at hfound
      · next heq => exact absurd (List.cons.inj heq).1 hsign
      · rw [h] at hfound
        cases hfound
  | true =>
    rw [if_pos rfl, (findSome?_words hc cs).2]
    simp only [h]
    rfl

/-- A whole number that can be written is read up to where it ends. -/
theorem plainValue_int {i : Int} (hi : Decimal.isWritable i = true) (h : Ends rest) :
    plainValue ((toString i).toList ++ rest) = .ok (.int i, rest) := by
  have hlength : (Nat.toDigits 10 i.natAbs).length ≤ Decimal.digitLimit := of_decide_eq_true hi
  cases i with
  | ofNat n =>
    have hnumber := number?_toDigits false hlength h
    obtain ⟨c, ds, hc, -, hds⟩ := exists_toDigits n
    rw [Int.natAbs_ofNat', hds, List.cons_append] at hnumber
    rw [toList_ofNat, hds, List.cons_append]
    exact plainValue_of_number? hc false hnumber
  | negSucc n =>
    have hnumber := number?_toDigits true hlength h
    obtain ⟨c, ds, hc, -, hds⟩ := exists_toDigits (n + 1)
    rw [Int.natAbs_negSucc, hds, List.cons_append] at hnumber
    rw [toList_negSucc, hds, List.cons_append, List.cons_append]
    exact plainValue_of_number? hc true hnumber

end Stencil.Json
