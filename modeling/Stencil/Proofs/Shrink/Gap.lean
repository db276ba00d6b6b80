import Mathlib.Data.List.Infix
import Mathlib.Data.Option.Basic
import Mathlib.Logic.Relation
import Stencil.Proofs.Text.Find
import Stencil.Shrink.Script

/-!
# White space of a script

White space is a line of items, each a blank character or a comment, and one place of a script leads to another
over white space if only such items stand between (`Skips`). The place after all white space is then the same
from both (`Skips.afterGap_eq`), and a character that neither is blank nor begins a comment is such a place.
-/

namespace Stencil.Script

open Text

variable {cs rest : List Char} {lineEnd : Bool}

/-- Whether a text starts with a character of a name. -/
def startsName (cs : List Char) : Bool := (cs.head?.map isNameChar).getD false

@[simp] theorem startsName_nil : startsName [] = false := rfl

@[simp] theorem startsName_cons (c : Char) (cs : List Char) : startsName (c :: cs) = isNameChar c := rfl

/-- Whether a character begins no white space: it is not blank, and no comment starts with it. -/
def isSolid (c : Char) : Bool := 0x20 < c.toNat && c != '/'

theorem isSolid_iff {c : Char} : isSolid c = true ↔ 0x20 < c.toNat ∧ c ≠ '/' := by
  rw [isSolid, Bool.and_eq_true, bne_iff_ne, decide_eq_true_iff]

theorem isSolid_of_isNameChar {c : Char} (h : isNameChar c = true) : isSolid c = true := by
  refine isSolid_iff.2 ⟨?_, ?_⟩
  · by_contra hle
    have hall : ∀ n ≤ 0x20, isNameChar (Char.ofNat n) = false := by decide
    have hc := hall c.toNat (by omega)
    rw [Char.ofNat_toNat, h] at hc
    exact absurd hc (by decide)
  · rintro rfl
    exact absurd h (by decide)

/-! ### One item -/

theorem blankItem?_cons {c : Char} (h : c = '/' → cs.head? ≠ some '*' ∧ cs.head? ≠ some '/') :
    blankItem? (c :: cs) =
      if isSpace c then some (false, cs) else if isLineEnd c then some (true, cs) else none := by
  unfold blankItem?
  split
  · next heq =>
    obtain ⟨hc, rfl⟩ := List.cons.inj heq
    exact absurd rfl (h hc).1
  · next heq =>
    obtain ⟨hc, rfl⟩ := List.cons.inj heq
    exact absurd rfl (h hc).2
  · next heq =>
    obtain ⟨rfl, rfl⟩ := List.cons.inj heq
    rfl
  · next hnil => exact nomatch hnil

theorem blankItem?_of_isSolid {c : Char} (h : isSolid c = true) (cs : List Char) :
    blankItem? (c :: cs) = none := by
  obtain ⟨hc, hslash⟩ := isSolid_iff.1 h
  have hn : c ≠ '\n' := by rintro rfl; exact absurd hc (by decide)
  have hr : c ≠ '\r' := by rintro rfl; exact absurd hc (by decide)
  have hle : ¬ c.toNat ≤ 0x20 := by omega
  simp [blankItem?_cons (absurd · hslash), isSpace, isLineEnd, hn, hr, hle]

/-- A blank character is an item of white space. -/
theorem blankItem?_of_le {c : Char} (h : c.toNat ≤ 0x20) (cs : List Char) :
    ∃ lineEnd, blankItem? (c :: cs) = some (lineEnd, cs) := by
  have hslash : c ≠ '/' := by rintro rfl; exact absurd h (by decide)
  rw [blankItem?_cons (absurd · hslash)]
  split
  · exact ⟨false, rfl⟩
  · next hspace =>
    have hend : isLineEnd c = true := by
      simp only [isSpace, h, decide_true, Bool.true_and, Bool.and_eq_true, bne_iff_ne, not_and_or,
        not_not] at hspace
      simpa [isLineEnd] using hspace
    exact ⟨true, if_pos hend⟩

theorem blankItem?_suffix (h : blankItem? cs = some (lineEnd, rest)) :
    rest <:+ cs ∧ rest.length < cs.length := by
  suffices hshort : ∃ taken, taken ≠ [] ∧ taken ++ rest = cs by
    obtain ⟨taken, hne, rfl⟩ := hshort
    have := List.length_pos_iff.2 hne
    exact ⟨List.suffix_append taken rest, by rw [List.length_append]; omega⟩
  unfold blankItem? at h
  split at h
  · next body =>
    obtain ⟨after, hclose, heq⟩ := Option.map_eq_some_iff.1 h
    obtain ⟨⟨inner, after'⟩, hsplit, rfl⟩ := Option.map_eq_some_iff.1 hclose
    cases heq
    exact ⟨'/' :: '*' :: (inner ++ ['*', '/']), List.cons_ne_nil _ _, by
      rw [splitFirst?_eq_append hsplit]
      simp⟩
  · next body =>
    split at h
    · next c after hdrop =>
      cases h
      refine ⟨'/' :: '/' :: (body.takeWhile (fun c => !isLineEnd c) ++ [c]), List.cons_ne_nil _ _, ?_⟩
      conv_rhs => rw [← List.takeWhile_append_dropWhile (p := fun c => !isLineEnd c) (l := body), hdrop]
      simp
    · exact nomatch h
  · next c body _ _ =>
    refine ⟨[c], List.cons_ne_nil _ _, ?_⟩
    split at h
    · cases h
      rfl
    · split at h
      · cases h
        rfl
      · exact nomatch h
  · exact nomatch h

theorem dropWhile_concat {p : Char → Bool} {x c : Char} (hx : p x = false)
    (h : (cs ++ [x]).dropWhile p = c :: rest) :
    rest = [] ∨ ∃ rest', rest = rest' ++ [x] ∧ cs.dropWhile p = c :: rest' := by
  rw [List.dropWhile_append] at h
  split at h
  · next hall =>
    rw [List.dropWhile_cons_of_neg (by simpa using hx)] at h
    exact Or.inl (List.cons.inj h).2.symm
  · next hsome =>
    cases hdrop : cs.dropWhile p with
    | nil => exact absurd (by rw [hdrop]; rfl) hsome
    | cons d rest' =>
      rw [hdrop, List.cons_append] at h
      obtain ⟨rfl, rfl⟩ := List.cons.inj h
      exact Or.inr ⟨rest', rfl, rfl⟩

/-- An item before a line end at the end of a script is there without it, unless it takes the line end. -/
theorem blankItem?_concat (h : blankItem? (cs ++ ['\n']) = some (lineEnd, rest)) :
    rest = [] ∨ ∃ rest', rest = rest' ++ ['\n'] ∧ blankItem? cs = some (lineEnd, rest') := by
  -- a script that starts with no comment starts with none before the line end either
  have hcons : ∀ {c : Char} {body : List Char}, (∀ more, c = '/' → body = '*' :: more → False) →
      (∀ more, c = '/' → body = '/' :: more → False) →
      blankItem? (c :: body ++ ['\n']) = if isSpace c then some (false, body ++ ['\n'])
        else if isLineEnd c then some (true, body ++ ['\n']) else none := by
    intro c body hno hno'
    refine blankItem?_cons fun hc => ?_
    cases body with
    | nil => decide
    | cons d body =>
      refine ⟨fun hd => hno body hc ?_, fun hd => hno' body hc ?_⟩ <;>
        rw [Option.some.inj hd]
  fun_cases blankItem? cs with
  | case1 body =>
    obtain ⟨after, hclose, heq⟩ := Option.map_eq_some_iff.1 h
    obtain ⟨⟨inner, after'⟩, hsplit, rfl⟩ := Option.map_eq_some_iff.1 hclose
    cases heq
    obtain ⟨more, rfl, hmore⟩ := splitFirst?_of_concat (by decide) (by decide) hsplit
    exact Or.inr ⟨more, rfl, by rw [closeComment?, hmore]; rfl⟩
  | case2 body c after hbody =>
    rw [List.cons_append, List.cons_append, blankItem?] at h
    split at h
    · next hdrop =>
      cases h
      refine (dropWhile_concat (by decide) hdrop).imp_right fun ⟨rest', hrest, hbody'⟩ => ⟨rest', hrest, ?_⟩
      rw [(List.cons.inj (hbody.symm.trans hbody')).2]
    · exact nomatch h
  | case3 body hbody =>
    rw [List.cons_append, List.cons_append, blankItem?] at h
    split at h
    · next hdrop =>
      cases h
      refine (dropWhile_concat (by decide) hdrop).imp_right fun ⟨rest', hrest, hbody'⟩ => ?_
      exact absurd (hbody.symm.trans hbody') (List.cons_ne_nil _ _).symm
    · exact nomatch h
  | case4 c body hno hno' hspace =>
    rw [hcons hno hno', if_pos hspace] at h
    cases h
    exact Or.inr ⟨body, rfl, rfl⟩
  | case5 c body hno hno' hspace hend =>
    rw [hcons hno hno', if_neg hspace, if_pos hend] at h
    cases h
    exact Or.inr ⟨body, rfl, rfl⟩
  | case6 c body hno hno' hspace hend =>
    rw [hcons hno hno', if_neg hspace, if_neg hend] at h
    exact nomatch h
  | case7 =>
    cases h
    exact Or.inl rfl

/-! ### A line of items -/

/-- From one place white space leads to another. -/
def Skips : List Char → List Char → Prop :=
  Relation.ReflTransGen fun cs rest => ∃ lineEnd, blankItem? cs = some (lineEnd, rest)

theorem Skips.suffix (h : Skips cs rest) : rest <:+ cs := by
  induction h with
  | refl => exact List.suffix_rfl
  | tail _ hitem ih =>
    obtain ⟨lineEnd, hitem⟩ := hitem
    exact (blankItem?_suffix hitem).1.trans ih

/-- White space before a line end at the end of a script, if something follows it, is there without the line
end. -/
theorem Skips.of_concat {c : Char} (hc : isSolid c = true) (h : Skips (cs ++ ['\n']) (c :: rest)) :
    ∃ rest', rest = rest' ++ ['\n'] ∧ Skips cs (c :: rest') := by
  generalize hends : cs ++ ['\n'] = ends at h
  induction h using Relation.ReflTransGen.head_induction_on generalizing cs with
  | refl =>
    cases cs with
    | nil =>
      obtain ⟨rfl, -⟩ := List.cons.inj hends
      exact absurd hc (by decide)
    | cons d cs =>
      obtain ⟨rfl, rfl⟩ := List.cons.inj hends
      exact ⟨cs, rfl, .refl⟩
  | head hitem hskips ih =>
    obtain ⟨lineEnd, hitem⟩ := hitem
    subst hends
    rcases blankItem?_concat hitem with rfl | ⟨rest', rfl, hitem'⟩
    · exact absurd (Skips.suffix hskips).length_le (by simp)
    · obtain ⟨more, rfl, hmore⟩ := ih rfl
      exact ⟨more, rfl, .head ⟨lineEnd, hitem'⟩ hmore⟩

theorem skips_gap (fuel : Nat) (cs : List Char) : Skips cs (gap fuel cs).2 := by
  induction fuel generalizing cs with
  | zero => exact .refl
  | succ fuel ih =>
    rw [gap]
    split
    · next lineEnd rest hitem => exact .head ⟨lineEnd, hitem⟩ (ih rest)
    · exact .refl

theorem skips_spaces (fuel : Nat) (cs : List Char) : Skips cs (spaces fuel cs) := by
  induction fuel generalizing cs with
  | zero => exact .refl
  | succ fuel ih =>
    rw [spaces]
    split
    · next rest hitem => exact .head ⟨false, hitem⟩ (ih rest)
    · exact .refl

theorem skips_lineBreak? {fuel : Nat} {seen : Bool} (h : lineBreak? fuel seen cs = some rest) :
    Skips cs rest := by
  induction fuel generalizing seen cs with
  | zero => exact nomatch h
  | succ fuel ih =>
    rw [lineBreak?] at h
    rcases (Option.orElse_eq_some _ _ _).1 h with h | ⟨-, h⟩
    · split at h
      · next lineEnd more hitem => exact .head ⟨lineEnd, hitem⟩ (ih h)
      · exact nomatch h
    · split at h
      · cases h
        exact .refl
      · exact nomatch h

/-! ### All of it -/

/-- With fuel enough for the whole text the fuel does not matter. -/
theorem gap_eq_gap {n k : Nat} (hn : cs.length ≤ n) (hk : cs.length ≤ k) : gap n cs = gap k cs := by
  induction n generalizing k cs with
  | zero =>
    obtain rfl : cs = [] := List.length_eq_zero_iff.1 (Nat.le_zero.1 hn)
    cases k <;> rfl
  | succ n ih =>
    cases k with
    | zero =>
      obtain rfl : cs = [] := List.length_eq_zero_iff.1 (Nat.le_zero.1 hk)
      rfl
    | succ k =>
      rw [gap, gap]
      split
      · next lineEnd rest hitem =>
        have hlength := (blankItem?_suffix hitem).2
        rw [ih (by omega) (by omega : rest.length ≤ k)]
      · rfl

/-- The place after all white space at the start of a text. -/
def afterGap (cs : List Char) : List Char := (gap cs.length cs).2

theorem afterGap_of_blankItem? (h : blankItem? cs = some (lineEnd, rest)) : afterGap cs = afterGap rest := by
  obtain ⟨n, hn⟩ := Nat.exists_eq_add_of_lt (blankItem?_suffix h).2
  have hrest : gap (rest.length + n) rest = gap rest.length rest := gap_eq_gap (by omega) le_rfl
  rw [afterGap, hn, gap, h, afterGap, ← hrest]

theorem Skips.afterGap_eq (h : Skips cs rest) : afterGap cs = afterGap rest := by
  induction h with
  | refl => rfl
  | tail _ hitem ih =>
    obtain ⟨lineEnd, hitem⟩ := hitem
    rw [ih, afterGap_of_blankItem? hitem]

theorem afterGap_of_isSolid {c : Char} (h : isSolid c = true) (cs : List Char) :
    afterGap (c :: cs) = c :: cs := by
  rw [afterGap, List.length_cons, gap, blankItem?_of_isSolid h]

/-- White space in which no line ends is all taken as spaces. -/
theorem spaces_eq_gap {fuel : Nat} (h : (gap fuel cs).1 = false) : spaces fuel cs = (gap fuel cs).2 := by
  induction fuel generalizing cs with
  | zero => rfl
  | succ fuel ih =>
    rw [gap] at h ⊢
    rw [spaces]
    cases hitem : blankItem? cs with
    | none => rfl
    | some item =>
      rw [hitem] at h
      obtain ⟨hlineEnd, hmore⟩ := Bool.or_eq_false_iff.1 h
      obtain ⟨lineEnd, rest⟩ := item
      obtain rfl : lineEnd = false := hlineEnd
      exact ih hmore

end Stencil.Script
