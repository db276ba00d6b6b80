import Mathlib.Data.List.Pairwise
import Stencil.Proofs.Directive
import Stencil.Proofs.Include

/-!
# Includes among the directives of a text

The directives of a text lie behind each other (`pairwise_stretchesFrom`), and every place in a text is inside one
of them or between them (`inside_or_between`). The includes are searched for without regard to the directives. An
include is the directive that begins where it begins only if no directive that began before is still open there,
and if its name has no closing marker, for a directive ends at the first one (`site_mem_stretches_iff`).

So an include in a comment is carried out, and one whose directive goes on behind the name can swallow the end of
its directive and all that follows up to the next quote before a closing marker (`includes_astray`).
-/

namespace Stencil

/-! ### Where the directives stand -/

/-- The directives among pieces that come after `start` characters. -/
def stretchesFrom (start : Nat) : List Piece → List Stretch
  | [] => []
  | .char _ :: rest => stretchesFrom (start + 1) rest
  | .directive span :: rest => ⟨start, span⟩ :: stretchesFrom (start + span.length) rest

/-- The directives of a text and where they stand, from left to right. -/
def stretches (text : List Char) : List Stretch := stretchesFrom 0 (pieces text)

variable {start : Nat} {ps : List Piece} {d : Stretch} {text : List Char}

theorem map_chars_stretchesFrom (start : Nat) (ps : List Piece) :
    (stretchesFrom start ps).map Stretch.chars = ps.filterMap Piece.span? := by
  induction ps generalizing start with
  | nil => rfl
  | cons p ps ih =>
    cases p with
    | char c => exact ih _
    | directive span => exact congrArg (span :: ·) (ih _)

theorem stretchesFrom_append (start : Nat) (ps qs : List Piece) :
    stretchesFrom start (ps ++ qs) =
      stretchesFrom start ps ++ stretchesFrom (start + (ps.flatMap Piece.chars).length) qs := by
  induction ps generalizing start with
  | nil => rfl
  | cons p ps ih =>
    rw [List.cons_append, List.flatMap_cons, List.length_append, ← Nat.add_assoc]
    cases p with
    | char c => exact ih _
    | directive span => exact congrArg (_ :: ·) (ih _)

theorem directive_mem_of_mem_stretchesFrom (h : d ∈ stretchesFrom start ps) : .directive d.chars ∈ ps := by
  have hchars : d.chars ∈ ps.filterMap Piece.span? :=
    map_chars_stretchesFrom start ps ▸ List.mem_map_of_mem h
  obtain ⟨p, hp, hspan⟩ := List.mem_filterMap.1 hchars
  cases p with
  | char c => exact nomatch hspan
  | directive span =>
    cases hspan
    exact hp

theorem le_start_of_mem (h : d ∈ stretchesFrom start ps) : start ≤ d.start := by
  induction ps generalizing start with
  | nil => exact absurd h List.not_mem_nil
  | cons p ps ih =>
    cases p with
    | char c => exact (Nat.le_succ start).trans (ih h)
    | directive span =>
      rcases List.mem_cons.1 h with rfl | h
      · exact Nat.le_refl start
      · exact (Nat.le_add_right start _).trans (ih h)

/-- Directives lie behind each other. -/
theorem pairwise_stretchesFrom (start : Nat) (ps : List Piece) :
    (stretchesFrom start ps).Pairwise fun d e => d.stop ≤ e.start := by
  induction ps generalizing start with
  | nil => exact List.Pairwise.nil
  | cons p ps ih =>
    cases p with
    | char c => exact ih _
    | directive span => exact List.pairwise_cons.2 ⟨fun e he => le_start_of_mem he, ih _⟩

/-- A place is not inside a directive that begins elsewhere if a directive begins at it. -/
theorem not_inside_of_mem {e : Stretch} (hd : d ∈ stretches text) (he : e ∈ stretches text) :
    ¬ (e.start < d.start ∧ d.start < e.stop) := by
  rintro ⟨hbefore, hbehind⟩
  have hne : d ≠ e := by
    rintro rfl
    exact Nat.lt_irrefl _ hbefore
  have hapart : (stretches text).Pairwise fun d e => d.stop ≤ e.start ∨ e.stop ≤ d.start :=
    (pairwise_stretchesFrom 0 (pieces text)).imp Or.inl
  have : Std.Symm fun d e : Stretch => d.stop ≤ e.start ∨ e.stop ≤ d.start := ⟨fun _ _ => Or.symm⟩
  rcases hapart.forall hd he hne with h | h
  · have : d.start ≤ d.stop := Nat.le_add_right _ _
    omega
  · omega

/-- A place among pieces is inside a directive or between two pieces. -/
theorem inside_or_between (start : Nat) {before rest : List Char} (h : ps.flatMap Piece.chars = before ++ rest) :
    (∃ d ∈ stretchesFrom start ps, d.start < start + before.length ∧ start + before.length < d.stop) ∨
      ∃ qs rs, ps = qs ++ rs ∧ qs.flatMap Piece.chars = before ∧ rs.flatMap Piece.chars = rest := by
  induction ps generalizing start before with
  | nil =>
    obtain ⟨rfl, rfl⟩ := List.append_eq_nil_iff.1 h.symm
    exact Or.inr ⟨[], [], rfl, rfl, rfl⟩
  | cons p ps ih =>
    rw [List.flatMap_cons, List.append_eq_append_iff] at h
    rcases h with ⟨more, rfl, hmore⟩ | ⟨more, hp, rfl⟩
    · -- the place lies behind the first piece
      cases p with
      | char c =>
        rcases ih (start + 1) hmore with ⟨d, hd, hinside⟩ | ⟨qs, rs, rfl, rfl, hrs⟩
        · rw [Piece.chars, List.singleton_append, List.length_cons, Nat.add_comm _ 1, ← Nat.add_assoc]
          exact Or.inl ⟨d, hd, hinside⟩
        · exact Or.inr ⟨.char c :: qs, rs, rfl, List.flatMap_cons, hrs⟩
      | directive span =>
        rcases ih (start + span.length) hmore with ⟨d, hd, hinside⟩ | ⟨qs, rs, rfl, rfl, hrs⟩
        · rw [Piece.chars, List.length_append, ← Nat.add_assoc]
          exact Or.inl ⟨d, List.mem_cons_of_mem _ hd, hinside⟩
        · exact Or.inr ⟨.directive span :: qs, rs, rfl, List.flatMap_cons, hrs⟩
    · -- the place lies before the end of the first piece
      rcases List.eq_nil_or_concat' more with rfl | ⟨more, last, rfl⟩
      · rw [List.append_nil] at hp
        exact Or.inr ⟨[p], ps, rfl, by simp [hp], rfl⟩
      rcases List.eq_nil_or_concat' before with rfl | ⟨before, first, rfl⟩
      · rw [List.nil_append] at hp
        exact Or.inr ⟨[], p :: ps, rfl, rfl, by rw [List.flatMap_cons, hp]⟩
      cases p with
      | char c =>
        have hlength := congrArg List.length hp
        simp only [Piece.chars, List.length_append, List.length_singleton] at hlength
        omega
      | directive span =>
        refine Or.inl ⟨⟨start, span⟩, List.mem_cons_self, ?_, ?_⟩
        · simp
        · have hlength : span.length = (before ++ [first]).length + (more ++ [last]).length := by
            rw [← List.length_append, ← hp, Piece.chars]
          simp only [Stretch.stop, hlength, List.length_append, List.length_singleton]
          omega

theorem Legible.of_append {qs rs : List Piece} (h : Legible (qs ++ rs)) : Legible rs := by
  induction qs with
  | nil => exact h
  | cons q qs ih => cases q <;> exact ih h.2

/-- Between two pieces a directive begins if the rest of the text begins with one. -/
theorem mem_stretches_of_directive? {before rest span after : List Char}
    (h : directive? rest = some (span, after))
    (hinside : ∀ d ∈ stretches (before ++ rest), ¬ (d.start < before.length ∧ before.length < d.stop)) :
    ⟨before.length, span⟩ ∈ stretches (before ++ rest) := by
  rcases inside_or_between 0 (flatMap_chars_pieces (before ++ rest)) with
    ⟨d, hd, hin⟩ | ⟨qs, rs, hpieces, hbefore, hrest⟩
  · rw [Nat.zero_add] at hin
    exact absurd hin (hinside d hd)
  · have hlegible : Legible rs := Legible.of_append (hpieces ▸ legible_pieces (before ++ rest))
    have hrs : rs = .directive span :: pieces after := by
      rw [← pieces_flatMap_chars hlegible, hrest, pieces_directive h]
    rw [stretches, hpieces, stretchesFrom_append, hbefore, hrs, Nat.zero_add]
    exact List.mem_append_right _ List.mem_cons_self

/-! ### Where a directive ends -/

/-- A closing marker ends a directive if there is none before it. -/
theorem closing?_append_iff (body rest : List Char) :
    closing? (body ++ '%' :: '>' :: rest) = some (body ++ ['%', '>'], rest) ↔ ¬ ['%', '>'] <:+: body := by
  induction body with
  | nil => simp [closing?]
  | cons c body ih =>
    by_cases hmarker : ['%', '>'] <+: c :: body
    · obtain ⟨more, hmore⟩ := hmarker
      rw [← hmore]
      refine iff_of_false ?_ fun h => h (List.prefix_append _ more).isInfix
      simp [closing?]
    · have hcons : closing? (c :: (body ++ '%' :: '>' :: rest)) =
          (closing? (body ++ '%' :: '>' :: rest)).map fun p => (c :: p.1, p.2) := by
        rw [closing?]
        rintro more rfl hmore
        cases body with
        | nil => exact absurd (List.cons.inj hmore).1 (by decide)
        | cons d body =>
          obtain ⟨rfl, -⟩ := List.cons.inj hmore
          exact hmarker ⟨body, rfl⟩
      rw [List.cons_append, hcons, List.infix_cons_iff, not_or, and_iff_right hmarker, ← ih]
      simp

/-- Two characters one after the other in a text of three parts are so in the middle one, if the first is not in the
part before it and the second not in the part after it. -/
theorem infix_middle_iff {a b : Char} {head middle tail : List Char} (hhead : a ∉ head) (htail : b ∉ tail) :
    [a, b] <:+: head ++ (middle ++ tail) ↔ [a, b] <:+: middle := by
  refine ⟨fun h => ?_, fun h => h.trans (List.infix_append' head middle tail)⟩
  have hrest : [a, b] <:+: middle ++ tail := by
    refine Text.infix_of_infix_append (fun q hq hne hprefix => ?_) h
    obtain ⟨c, q, rfl⟩ := List.exists_cons_of_ne_nil hne
    obtain ⟨rfl, -⟩ := List.cons_prefix_cons.1 hprefix
    exact hhead (hq.subset List.mem_cons_self)
  obtain ⟨before, after, heq⟩ := hrest
  rcases List.append_eq_append_iff.1 heq with ⟨more, hmiddle, -⟩ | ⟨more, hbefore, htail'⟩
  · exact ⟨before, more, hmiddle.symm⟩
  · rcases List.eq_nil_or_concat' more with rfl | ⟨more, last, rfl⟩
    · exact ⟨before, [], by rw [List.append_nil, hbefore, List.append_nil]⟩
    · have hlast : b = last := by simpa using congrArg List.getLast? hbefore
      exact absurd (by simp [htail', hlast]) htail

/-- The characters around the name of an include hold no part of a closing marker. -/
theorem Wording.infix_inner_iff (w : Wording) :
    ['%', '>'] <:+: w.head ++ (w.name ++ w.tail) ↔ ['%', '>'] <:+: w.name := by
  refine infix_middle_iff ?_ ?_
  · have hopening : '%' ≠ w.opening := by
      rintro heq
      exact absurd (heq ▸ w.isQuote_opening) (by decide)
    rw [Wording.head, List.mem_append, List.mem_append, List.mem_append, List.mem_singleton, not_or, not_or, not_or]
    exact ⟨fun h => absurd (w.lead_blank _ h) (by decide), by decide,
      fun h => absurd (w.gap_blank _ h) (by decide), hopening⟩
  · have hclosing : '>' ≠ w.closing := by
      rintro heq
      exact absurd (heq ▸ w.isQuote_closing) (by decide)
    rw [Wording.tail, List.mem_cons, not_or]
    exact ⟨hclosing, fun h => absurd (w.trail_blank _ h) (by decide)⟩

/-- An include is a directive if its name has no closing marker. -/
theorem Wording.directive?_iff (w : Wording) (after : List Char) :
    directive? (w.chars ++ after) = some (w.chars, after) ↔ ¬ ['%', '>'] <:+: w.name := by
  rw [← w.infix_inner_iff, ← closing?_append_iff _ after]
  simp [Wording.chars, directive?]

/-! ### Includes and directives -/

/-- What is found as an include is written as one, in its place. -/
theorem exists_wording_of_mem {s : Site} (hs : s ∈ sitesFrom start text) :
    ∃ before after, ∃ w : Wording, text = before ++ (w.chars ++ after) ∧
      s = ⟨⟨start + before.length, w.chars⟩, w.name⟩ := by
  induction start, text using sitesFrom.induct with
  | case1 start text name after h span ih =>
    obtain ⟨w, rfl, rfl⟩ := exists_wording h
    have hspan : span = w.chars := by simp [span]
    rw [sitesFrom_append h] at hs
    rcases List.mem_cons.1 hs with rfl | hs
    · exact ⟨[], after, w, rfl, rfl⟩
    · obtain ⟨before, after', w', rfl, rfl⟩ := ih (hspan ▸ hs)
      exact ⟨w.chars ++ before, after', w', by simp, by simp [hspan, Nat.add_assoc]⟩
  | case2 start h =>
    rw [sitesFrom_nil] at hs
    exact absurd hs List.not_mem_nil
  | case3 start c rest h ih =>
    rw [sitesFrom_cons h] at hs
    obtain ⟨before, after, w, rfl, rfl⟩ := ih hs
    exact ⟨c :: before, after, w, rfl, by simp [Nat.add_comm, Nat.add_left_comm]⟩

/-- An include is one of the directives of the text exactly if its name has no closing marker and no directive
that began before is open where it begins. -/
theorem site_mem_stretches_iff {s : Site} (hs : s ∈ sites text) :
    s.toStretch ∈ stretches text ↔
      ¬ ['%', '>'] <:+: s.name ∧ ∀ d ∈ stretches text, ¬ (d.start < s.start ∧ s.start < d.stop) := by
  obtain ⟨before, after, w, rfl, rfl⟩ := exists_wording_of_mem hs
  rw [Nat.zero_add]
  constructor
  · intro hmem
    refine ⟨?_, fun d hd => not_inside_of_mem hmem hd⟩
    have hspan : IsDirective w.chars := (legible_pieces _).isDirective (directive_mem_of_mem_stretchesFrom hmem)
    exact (w.directive?_iff after).1 (hspan.append after)
  · rintro ⟨hmarker, hinside⟩
    exact mem_stretches_of_directive? ((w.directive?_iff after).2 hmarker) hinside

/-- An include behind a comment is a directive. -/
theorem site_mem_stretches_behind_comment :
    let text := "<%# 'a' %> 5%> <% include 'b' %>".toList
    let s : Site := ⟨⟨15, "<% include 'b' %>".toList⟩, ['b']⟩
    s ∈ sites text ∧ s.toStretch ∈ stretches text := by
  intro text s
  have hs : s ∈ sites text := by decide +kernel
  exact ⟨hs, (site_mem_stretches_iff hs).2 (by decide +kernel)⟩

/-- The end of a directive, what follows and the next directive are taken for the name of an include, and so is an
include in a comment for one of its own. -/
theorem includes_astray :
    sites "<% include 'a' ignore missing %>-<% set t = 'b' %>".toList =
        [⟨⟨0, "<% include 'a' ignore missing %>-<% set t = 'b' %>".toList⟩,
          "a' ignore missing %>-<% set t = 'b".toList⟩] ∧
      stretches "<% include 'a' ignore missing %>-<% set t = 'b' %>".toList =
        [⟨0, "<% include 'a' ignore missing %>".toList⟩, ⟨33, "<% set t = 'b' %>".toList⟩] ∧
      sites "<%# <% include 'b' %>".toList = [⟨⟨4, "<% include 'b' %>".toList⟩, ['b']⟩] ∧
      stretches "<%# <% include 'b' %>".toList = [⟨0, "<%# <% include 'b' %>".toList⟩] := by
  decide +kernel

end Stencil
