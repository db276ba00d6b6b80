import Mathlib.Data.List.Infix
import Mathlib.Data.List.Nodup
import Stencil.Proofs.Placeholder.Token
import Stencil.Proofs.Text.Find

/-!
# Tokens replaced at once

To restore a text its tokens are replaced one after another, each in what the one before has left. What
comes out is what is read off the text itself (`unmask`): at a token stands its directive, at any other place
the character (`restore_eq`). For no token begins inside another, none occurs in a directive, and none can
reach into a directive, whose first and last characters are in no token. So a replacement neither makes nor
spoils an occurrence of another token.

The same holds of the tokens that are missed: they are those that do not occur in the text (`dropped_eq`).
-/

namespace Stencil.Placeholder

open Text

/-- A mapping of different tokens to texts in angle brackets in which no token of the mapping occurs. -/
structure Mapping.Sound (m : Mapping) : Prop where
  isToken : ∀ e ∈ m, IsToken e.1
  nodup : (m.map Prod.fst).Nodup
  opens : ∀ e ∈ m, e.2.head? = some '<'
  closes : ∀ e ∈ m, e.2.getLast? = some '>'
  free : ∀ e ∈ m, ∀ e' ∈ m, ¬ e.1 <:+: e'.2

/-- The pieces that a text stands for: its tokens stand for directives, other characters for themselves. -/
def unmask (m : Mapping) : List Char → List Piece
  | [] => []
  | c :: rest =>
    match m.find? fun e => e.1 <+: c :: rest with
    | some e => .directive e.2 :: unmask m (rest.drop (e.1.length - 1))
    | none => .char c :: unmask m rest
termination_by text => text.length
decreasing_by
  · simp only [List.length_drop, List.length_cons]
    omega
  · simp

variable {m : Mapping} {text rest t d : List Char} {c : Char}

/-- What is shown for the empty text, past a token of the mapping and past a character at which none begins
is shown for every text. -/
theorem token_induct {P : List Char → Prop} (m : Mapping) (hm : ∀ e ∈ m, e.1 ≠ []) (nil : P [])
    (token : ∀ e ∈ m, ∀ rest, P rest → P (e.1 ++ rest))
    (char : ∀ c rest, (∀ e ∈ m, ¬ e.1 <+: c :: rest) → P rest → P (c :: rest)) (text : List Char) :
    P text := by
  induction hn : text.length using Nat.strong_induction_on generalizing text with
  | _ n ih =>
    cases text with
    | nil => exact nil
    | cons c rest =>
      rw [List.length_cons] at hn
      by_cases hnone : ∀ e ∈ m, ¬ e.1 <+: c :: rest
      · exact char c rest hnone (ih rest.length (by omega) rest rfl)
      · push Not at hnone
        obtain ⟨e, he, after, hafter⟩ := hnone
        have hlength := congrArg List.length hafter
        have hpos : 0 < e.1.length := List.length_pos_iff.2 (hm e he)
        rw [List.length_append, List.length_cons] at hlength
        rw [← hafter]
        exact token e he after (ih after.length (by omega) after rfl)

namespace Mapping.Sound

theorem of_cons {e : List Char × List Char} (h : Sound (e :: m)) : Sound m where
  isToken e' he' := h.isToken e' (List.mem_cons_of_mem _ he')
  nodup := (List.nodup_cons.1 h.nodup).2
  opens e' he' := h.opens e' (List.mem_cons_of_mem _ he')
  closes e' he' := h.closes e' (List.mem_cons_of_mem _ he')
  free e' he' e'' he'' := h.free e' (List.mem_cons_of_mem _ he') e'' (List.mem_cons_of_mem _ he'')

theorem ne_nil (h : m.Sound) : ∀ e ∈ m, e.1 ≠ [] := fun e he => (h.isToken e he).ne_nil

/-- The entries of one token are one entry. -/
theorem eq_of_fst_eq (h : m.Sound) {e e' : List Char × List Char} (he : e ∈ m) (he' : e' ∈ m)
    (hfst : e.1 = e'.1) : e = e' :=
  List.inj_on_of_nodup_map h.nodup he he' hfst

theorem ne_of_mem (h : Sound ((t, d) :: m)) {e : List Char × List Char} (he : e ∈ m) : t ≠ e.1 := by
  have hmem : e.1 ∈ m.map Prod.fst := List.mem_map_of_mem he
  rintro rfl
  exact (List.nodup_cons.1 h.nodup).1 hmem

/-- The entry of a token that begins a text is the only one that does. -/
theorem find?_eq (h : m.Sound) {e : List Char × List Char} (he : e ∈ m) (rest : List Char) :
    m.find? (fun e' => e'.1 <+: e.1 ++ rest) = some e := by
  cases hfind : m.find? (fun e' => e'.1 <+: e.1 ++ rest) with
  | none =>
    have hno := List.find?_eq_none.1 hfind e he
    exact absurd (decide_eq_true (List.prefix_append e.1 rest)) hno
  | some e' =>
    have he' := List.mem_of_find?_eq_some hfind
    have hprefix : e'.1 <+: e.1 ++ rest := by simpa using List.find?_some hfind
    rw [h.eq_of_fst_eq he' he ((h.isToken e' he').eq_of_begins (h.isToken e he) hprefix)]

theorem unmask_token (h : m.Sound) {e : List Char × List Char} (he : e ∈ m) (rest : List Char) :
    unmask m (e.1 ++ rest) = .directive e.2 :: unmask m rest := by
  have hfind := h.find?_eq he rest
  cases htoken : e.1 with
  | nil => exact absurd htoken (h.ne_nil e he)
  | cons c t =>
    rw [htoken] at hfind
    rw [List.cons_append] at hfind ⊢
    rw [unmask, hfind]
    simp [htoken]

/-- No token begins in a directive, whatever follows there. -/
theorem not_prefix_span (h : m.Sound) {e e' : List Char × List Char} (he : e ∈ m) (he' : e' ∈ m)
    {q : List Char} (hq : q <:+ e'.2) (hne : q ≠ []) : ¬ e.1 <+: q ++ rest := by
  intro hprefix
  rcases Nat.le_total e.1.length q.length with hle | hle
  · -- the token would lie in the directive
    have hin : e.1 <+: q := List.prefix_of_prefix_length_le hprefix (List.prefix_append q rest) hle
    exact h.free e he e' he' (hin.isInfix.trans hq.isInfix)
  · -- the token would reach over the end of the directive
    have hin : q <+: e.1 := List.prefix_of_prefix_length_le (List.prefix_append q rest) hprefix hle
    have hlast : q.getLast? = some '>' := by
      obtain ⟨before, hbefore⟩ := hq
      have hcloses := h.closes e' he'
      rwa [← hbefore, List.getLast?_append_of_ne_nil _ hne] at hcloses
    exact (h.isToken e he).not_mem (by decide) (hin.mem (List.mem_of_getLast? hlast))

end Mapping.Sound

theorem unmask_nil (m : Mapping) : unmask m [] = [] := by rw [unmask]

theorem unmask_char (h : ∀ e ∈ m, ¬ e.1 <+: c :: rest) :
    unmask m (c :: rest) = .char c :: unmask m rest := by
  have hfind : (m.find? fun e => e.1 <+: c :: rest) = none :=
    List.find?_eq_none.2 fun e he hprefix => h e he (of_decide_eq_true hprefix)
  rw [unmask, hfind]

/-- A stretch in which no token begins is kept. -/
theorem unmask_append {start : List Char}
    (h : ∀ e ∈ m, ∀ q, q <:+ start → q ≠ [] → ¬ e.1 <+: q ++ rest) :
    unmask m (start ++ rest) = start.map .char ++ unmask m rest := by
  induction start with
  | nil => rfl
  | cons c start ih =>
    have hc : ∀ e ∈ m, ¬ e.1 <+: c :: (start ++ rest) := fun e he =>
      h e he (c :: start) List.suffix_rfl (List.cons_ne_nil c start)
    have hrest : ∀ e ∈ m, ∀ q, q <:+ start → q ≠ [] → ¬ e.1 <+: q ++ rest := fun e he q hq =>
      h e he q (hq.trans (List.suffix_cons c start))
    rw [List.cons_append, unmask_char hc, ih hrest, List.map_cons, List.cons_append]

/-- The text with all its tokens replaced at once. -/
def fill (m : Mapping) (text : List Char) : List Char := (unmask m text).flatMap Piece.chars

/-! ### One replacement -/

/-- A word without the bracket that begins a text after a replacement began it before. -/
theorem prefix_of_prefix_replaceAll (ht : t ≠ []) (hd : d.head? = some '<') {p : List Char}
    (hp : '<' ∉ p) (h : p <+: replaceAll t d text) : p <+: text := by
  induction text using token_induct [(t, d)] (by simpa using ht) generalizing p with
  | nil => rwa [replaceAll_nil ht] at h
  | token e he rest ih =>
    rw [List.mem_singleton.1 he, replaceAll_append ht] at h
    cases p with
    | nil => exact List.nil_prefix
    | cons x p =>
      -- a word that is not empty would have to begin with the bracket
      obtain ⟨d', rfl⟩ : ∃ d', d = '<' :: d' := List.head?_eq_some_iff.1 hd
      rw [List.cons_append] at h
      exact absurd (List.cons_prefix_cons.1 h).1 fun hx => hp (hx ▸ List.mem_cons_self)
  | char c rest hno ih =>
    have hbegin : ¬ t <+: c :: rest := hno (t, d) List.mem_cons_self
    rw [replaceAll_cons hbegin] at h
    cases p with
    | nil => exact List.nil_prefix
    | cons x p =>
      obtain ⟨rfl, hrest⟩ := List.cons_prefix_cons.1 h
      exact List.cons_prefix_cons.2 ⟨rfl, ih (fun hmem => hp (List.mem_cons_of_mem _ hmem)) hrest⟩

namespace Mapping.Sound

/-- Another token is passed over where one is replaced. -/
theorem replaceAll_token (h : Sound ((t, d) :: m)) {e : List Char × List Char} (he : e ∈ m)
    (rest : List Char) : replaceAll t d (e.1 ++ rest) = e.1 ++ replaceAll t d rest := by
  have ht : IsToken t := h.isToken (t, d) List.mem_cons_self
  have hu : IsToken e.1 := h.isToken e (List.mem_cons_of_mem _ he)
  exact replaceAll_append_of_forall fun q hq hne => ht.not_prefix_of_ne hu (h.ne_of_mem he) hq hne

/-- Replacing one token and filling in the others fills in all of them. -/
theorem fill_replaceAll (h : Sound ((t, d) :: m)) (text : List Char) :
    fill m (replaceAll t d text) = fill ((t, d) :: m) text := by
  have ht : t ≠ [] := h.ne_nil (t, d) List.mem_cons_self
  have hd : d.head? = some '<' := h.opens (t, d) List.mem_cons_self
  unfold fill
  induction text using token_induct ((t, d) :: m) h.ne_nil with
  | nil => rw [replaceAll_nil ht, unmask_nil, unmask_nil]
  | token e he rest ih =>
    rw [h.unmask_token he, List.flatMap_cons, ← ih]
    rcases List.mem_cons.1 he with rfl | hm
    · rw [replaceAll_append ht, unmask_append fun e' he' q hq hne =>
        h.not_prefix_span (List.mem_cons_of_mem _ he') he hq hne]
      simp [Piece.chars, List.flatMap_map]
    · rw [h.replaceAll_token hm, h.of_cons.unmask_token hm, List.flatMap_cons]
  | char c rest hno ih =>
    have hbegin : ¬ t <+: c :: rest := hno (t, d) List.mem_cons_self
    have hkept : ∀ e ∈ m, ¬ e.1 <+: c :: replaceAll t d rest := by
      intro e he hprefix
      rw [← replaceAll_cons hbegin] at hprefix
      have hangle : '<' ∉ e.1 := (h.of_cons.isToken e he).not_mem (by decide)
      exact hno e (List.mem_cons_of_mem _ he) (prefix_of_prefix_replaceAll ht hd hangle hprefix)
    rw [replaceAll_cons hbegin, unmask_char hkept, unmask_char hno, List.flatMap_cons, List.flatMap_cons, ih]

/-- Another token occurs after a replacement exactly if it did before. -/
theorem infix_replaceAll_iff (h : Sound ((t, d) :: m)) {e : List Char × List Char} (he : e ∈ m)
    {text : List Char} : e.1 <:+: replaceAll t d text ↔ e.1 <:+: text := by
  have ht : t ≠ [] := h.ne_nil (t, d) List.mem_cons_self
  have hd : d.head? = some '<' := h.opens (t, d) List.mem_cons_self
  have he' := List.mem_cons_of_mem (t, d) he
  have hangle : '<' ∉ e.1 := (h.isToken e he').not_mem (by decide)
  have htoken := h.isToken e he'
  induction text using token_induct [(t, d)] (by simpa using ht) with
  | nil => rw [replaceAll_nil ht]
  | token e'' hmem rest ih =>
    rw [List.mem_singleton.1 hmem, replaceAll_append ht]
    constructor
    · intro hin
      have hrest := infix_of_infix_append (fun q hq hq' =>
        h.not_prefix_span he' (List.mem_cons_self (a := (t, d))) hq hq') hin
      exact (ih.1 hrest).trans (List.suffix_append t rest).isInfix
    · intro hin
      have hrest := infix_of_infix_append (fun q hq hq' =>
        htoken.not_prefix_of_ne (h.isToken (t, d) List.mem_cons_self) (h.ne_of_mem he).symm hq hq') hin
      exact (ih.2 hrest).trans (List.suffix_append d _).isInfix
  | char c rest hno ih =>
    have hbegin : ¬ t <+: c :: rest := hno (t, d) List.mem_cons_self
    constructor
    · intro hin
      rw [replaceAll_cons hbegin] at hin
      rcases List.infix_cons_iff.1 hin with hprefix | hin
      · rw [← replaceAll_cons hbegin] at hprefix
        exact (prefix_of_prefix_replaceAll ht hd hangle hprefix).isInfix
      · exact (ih.1 hin).trans (List.suffix_cons c rest).isInfix
    · intro hin
      rcases List.infix_cons_iff.1 hin with ⟨after, hafter⟩ | hin
      · rw [← hafter, h.replaceAll_token he]
        exact (List.prefix_append e.1 _).isInfix
      · rw [replaceAll_cons hbegin]
        exact (ih.2 hin).trans (List.suffix_cons c _).isInfix

/-! ### All replacements -/

/-- Tokens replaced one after another are replaced at once. -/
theorem restore_eq (h : m.Sound) (text : List Char) : restore m text = fill m text := by
  induction m generalizing text with
  | nil =>
    induction text with
    | nil => rw [fill, unmask_nil]; rfl
    | cons c rest ih =>
      rw [fill, unmask_char fun e he => absurd he List.not_mem_nil, List.flatMap_cons, ← fill, ← ih]
      rfl
  | cons e m ih =>
    calc restore (e :: m) text = restore m (replaceAll e.1 e.2 text) := rfl
      _ = fill m (replaceAll e.1 e.2 text) := ih h.of_cons _
      _ = fill (e :: m) text := h.fill_replaceAll text

/-- The directives that are missed are those whose tokens do not occur. -/
theorem dropped_eq (h : m.Sound) (text : List Char) :
    dropped m text = (m.filter fun e => !occursIn e.1 text).map Prod.snd := by
  induction m generalizing text with
  | nil => rfl
  | cons e m ih =>
    rw [dropped]
    split
    · next hoccurs =>
      have hsame : ∀ e' ∈ m, occursIn e'.1 (replaceAll e.1 e.2 text) = occursIn e'.1 text := fun e' he' =>
        Bool.eq_iff_iff.2 (occursIn_iff.trans ((h.infix_replaceAll_iff he').trans occursIn_iff.symm))
      rw [ih h.of_cons, restoreOne, List.filter_cons_of_neg (by simp [hoccurs])]
      exact congrArg _ (List.filter_congr fun e' he' => by rw [hsame e' he'])
    · next hoccurs =>
      rw [ih h.of_cons, List.filter_cons_of_pos (by simpa using hoccurs), List.map_cons]

end Mapping.Sound

end Stencil.Placeholder
