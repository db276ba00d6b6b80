import Stencil.Minify
import Stencil.Proofs.Placeholder.Masking
import Stencil.Proofs.Placeholder.Occurrences
import Stencil.Proofs.Shrink.Script

/-!
# Directives of a shrunk template

A template is masked, shrunk and restored. The restored text is the shrunk one with directives at its tokens,
and these are all its directives as long as the shrunk text opens none of its own: an opening marker that
the shrinker leaves, or brings about, and that is closed further on (`OpensAnew`) would begin a directive
that the template does not have and could swallow one that it has. Then

* a shrinker that keeps the tokens keeps the directives (`directives_minify`);
* the shrinker of scripts, which drops tokens with the comments around them but makes none, keeps some of
  the directives in their order (`directives_minify_sublist`).

The shrinker of scripts brings about an opening marker by dropping the white space in `< %`, so a directive of
that kind swallows others (`directive_swallowed`). In any case the characters of the markers stand in the masked
template with nothing but white space and comments between them (`opensApart_of_opensAnew`), and a template in which
they do not stand so keeps its directives (`directives_minify_of_not_opensApart`).
-/

namespace Stencil

open Text Placeholder

namespace Placeholder

variable {m : Mapping} {text : List Char}

/-- A masked text has an opening marker, and a closing one or a token comes after it. -/
def OpensAnew (m : Mapping) (text : List Char) : Prop :=
  ∃ before after, text = before ++ '<' :: '%' :: after ∧
    (['%', '>'] <:+: after ∨ ∃ e ∈ m, e.1 <:+: after)

theorem not_opensAnew (h : ¬ ['<', '%'] <:+: text) : ¬ OpensAnew m text := by
  rintro ⟨before, after, rfl, -⟩
  exact h ⟨before, after, by simp⟩

theorem OpensAnew.append (h : OpensAnew m text) (start : List Char) : OpensAnew m (start ++ text) := by
  obtain ⟨before, after, rfl, hcloses⟩ := h
  exact ⟨start ++ before, after, (List.append_assoc _ _ _).symm, hcloses⟩

/-- A text without tokens is filled by itself. -/
theorem fill_of_not_occurs (h : ∀ e ∈ m, ¬ e.1 <:+: text) : fill m text = text := by
  have hnone : ∀ e ∈ m, ∀ q, q <:+ text → q ≠ [] → ¬ e.1 <+: q ++ [] := by
    intro e he q hq _ hbegins
    rw [List.append_nil] at hbegins
    exact h e he (hbegins.isInfix.trans hq.isInfix)
  have hunmask := unmask_append hnone
  rw [List.append_nil, unmask_nil, List.append_nil] at hunmask
  rw [fill, hunmask, List.flatMap_map]
  exact List.flatMap_singleton' text

/-- A filled text goes on with a character of a directive's opening only if the masked one does. -/
theorem Mapping.Sound.fill_cons (h : m.Sound) {c : Char} {rest : List Char} (hc : c ≠ '<')
    (hfill : fill m text = c :: rest) : ∃ rest', text = c :: rest' ∧ rest = fill m rest' := by
  induction text using token_induct m h.ne_nil with
  | nil =>
    rw [fill, unmask_nil] at hfill
    exact absurd hfill.symm (List.cons_ne_nil c rest)
  | token e he after _ =>
    obtain ⟨d, hd⟩ := List.head?_eq_some_iff.1 (h.opens e he)
    rw [fill, h.unmask_token he, List.flatMap_cons, Piece.chars, hd] at hfill
    exact absurd (List.cons.inj hfill).1.symm hc
  | char c' after hno _ =>
    rw [fill, unmask_char hno, List.flatMap_cons] at hfill
    obtain ⟨rfl, rfl⟩ := List.cons.inj hfill
    exact ⟨after, rfl, rfl⟩

/-- A text that opens nothing of its own stands for a legible line. -/
theorem Mapping.Sound.legible_unmask (h : m.Sound) (hwhole : ∀ e ∈ m, IsDirective e.2)
    (hopens : ¬ OpensAnew m text) : Legible (unmask m text) := by
  induction text using token_induct m h.ne_nil with
  | nil => rw [unmask_nil]; trivial
  | token e he rest ih =>
    rw [h.unmask_token he]
    exact ⟨hwhole e he, ih fun hrest => hopens (hrest.append e.1)⟩
  | char c rest hno ih =>
    rw [unmask_char hno]
    refine ⟨directive?_eq_none fun hc hhead hcloses => ?_, ih fun hrest => hopens (hrest.append [c])⟩
    -- the character and the one after it would be an opening marker of the masked text
    obtain ⟨more, hmore⟩ := List.head?_eq_some_iff.1 hhead
    obtain ⟨after, rfl, rfl⟩ := h.fill_cons (by decide) hmore
    rw [hmore, List.tail_cons] at hcloses
    have hnone : ∀ e ∈ m, ¬ e.1 <:+: after := fun e he hin =>
      hopens ⟨[], after, by rw [hc]; rfl, Or.inr ⟨e, he, hin⟩⟩
    rw [fill_of_not_occurs hnone] at hcloses
    exact hopens ⟨[], after, by rw [hc]; rfl, Or.inl hcloses⟩

/-- The directives of a filled text are those of its tokens. -/
theorem Mapping.Sound.directives_fill (h : m.Sound) (hwhole : ∀ e ∈ m, IsDirective e.2)
    (hopens : ¬ OpensAnew m text) :
    directives (fill m text) = (occurrences (m.map Prod.fst) text).filterMap (fun t => m.lookup t) := by
  rw [directives, fill, pieces_flatMap_chars (h.legible_unmask hwhole hopens), h.filterMap_span?_unmask]

namespace TokensApart

/-- The directives of a text are those of the tokens in the masked one. -/
theorem directives_eq (h : TokensApart text) :
    directives text =
      (occurrences ((mapping text).map Prod.fst) (mask text)).filterMap (fun t => (mapping text).lookup t) := by
  rw [← h.sound.filterMap_span?_unmask, unmask_mask h, directives]

/-- The directives of a text that is restored are those of its tokens. -/
theorem directives_restore (h : TokensApart text) {shrunk : List Char}
    (hopens : ¬ OpensAnew (mapping text) shrunk) :
    directives (restore (mapping text) shrunk) =
      (occurrences ((mapping text).map Prod.fst) shrunk).filterMap (fun t => (mapping text).lookup t) := by
  rw [h.sound.restore_eq]
  exact h.sound.directives_fill
    (fun e he => isDirective_of_mem (mem_directives_of_mem_mapping he).1) hopens

end TokensApart

end Placeholder

theorem minify_eq {shrinker : Shrinker} {text shrunk : String}
    (h : shrinker (String.ofList (mask text.toList)) = .ok shrunk) :
    minify shrinker text =
      .ok (String.ofList (restore (mapping text.toList) shrunk.toList),
        (dropped (mapping text.toList) shrunk.toList).map Note.directiveDropped) := by
  rw [minify]
  dsimp only
  rw [h]
  rfl

/-- A shrinker that keeps the tokens, and makes no opening marker, keeps the directives. -/
theorem directives_minify {shrinker : Shrinker} {text shrunk : String} (hapart : TokensApart text.toList)
    (hshrunk : shrinker (String.ofList (mask text.toList)) = .ok shrunk)
    (hopens : occursIn ['<', '%'] shrunk.toList = false)
    (htokens : occurrences ((mapping text.toList).map Prod.fst) shrunk.toList =
      occurrences ((mapping text.toList).map Prod.fst) (mask text.toList)) :
    ∃ out, minify shrinker text = .ok (out, []) ∧ directives out.toList = directives text.toList := by
  -- every token is in the masked text, so none is missed in the shrunk one
  have hdropped : dropped (mapping text.toList) shrunk.toList = [] := by
    rw [hapart.sound.dropped_eq, List.map_eq_nil_iff, List.filter_eq_nil_iff]
    intro e he
    have hmem : e.1 ∈ occurrences ((mapping text.toList).map Prod.fst) shrunk.toList := by
      rw [htokens]
      exact mem_occurrences.2 ⟨List.mem_map_of_mem he, infix_mask he⟩
    simpa using occursIn_iff.2 (mem_occurrences.1 hmem).2
  refine ⟨_, by rw [minify_eq hshrunk, hdropped]; rfl, ?_⟩
  rw [String.toList_ofList, hapart.directives_restore (not_opensAnew (occursIn_eq_false_iff.1 hopens)),
    htokens, ← hapart.directives_eq]

/-- White space around directives is dropped, and a directive with a sign in it and one over two lines, with an
opening marker in it, are kept. -/
theorem directives_minify_call :
    let text := "f( <%= \"a > b\" %> ,\n  <%= '<%'\n %> );\n"
    ∃ out, minify scriptShrinker text = .ok (out, []) ∧ directives out.toList = directives text.toList :=
  directives_minify ⟨by decide +kernel, by decide +kernel⟩ rfl (by decide +kernel) (by decide +kernel)

/-! ### Scripts -/

/-- The words of characters of names that are left in a script stood in it, in the same order. -/
theorem Script.Thins.occurrences_sublist {tokens : List (List Char)} (hne : ∀ t ∈ tokens, t ≠ [])
    (hnames : ∀ t ∈ tokens, ∀ c ∈ t, Script.isNameChar c = true) {named : Bool} {cs kept : List Char}
    (h : Script.Thins named cs kept) : (occurrences tokens kept).Sublist (occurrences tokens cs) := by
  induction h with
  | stop =>
    rw [occurrences_nil hne]
    exact List.nil_sublist _
  | @keep named c cs kept h ih =>
    rw [occurrences_cons, occurrences_cons]
    refine List.Sublist.append ?_ ih
    -- a token that begins at a character that is kept began at it in the script
    have himp : ∀ t ∈ tokens, t <+: c :: kept → t <+: c :: cs := by
      intro t ht hbegins
      rcases List.prefix_cons_iff.1 hbegins with rfl | ⟨t', rfl, hrest⟩
      · exact List.nil_prefix
      · rw [hnames _ ht c List.mem_cons_self] at h
        have hrest' := h.begins (fun d hd => hnames _ ht d (List.mem_cons_of_mem c hd)) hrest
        exact List.cons_prefix_cons.2 ⟨rfl, hrest'⟩
    have hfilter : tokens.filter (fun t => t <+: c :: kept) =
        (tokens.filter (fun t => t <+: c :: cs)).filter (fun t => t <+: c :: kept) := by
      rw [List.filter_filter]
      refine List.filter_congr fun t ht => ?_
      rw [← Bool.decide_and]
      exact decide_eq_decide.2 ⟨fun hbegins => ⟨hbegins, himp t ht hbegins⟩, And.left⟩
    rw [hfilter]
    exact List.filter_sublist
  | @blank named b cs rest kept hskips hb h ih =>
    have hblank : ∀ t ∈ tokens, b ∉ t := by
      intro t ht hmem
      rw [isSolid_of_isNameChar (hnames t ht b hmem)] at hb
      exact absurd hb (by decide)
    obtain ⟨stretch, rfl⟩ := hskips.suffix
    rw [occurrences_cons_of_not_mem hne hblank]
    exact ih.trans (occurrences_sublist_append tokens stretch rest)
  | drop hskips hapart h ih =>
    obtain ⟨stretch, rfl⟩ := hskips.suffix
    exact ih.trans (occurrences_sublist_append tokens stretch _)

theorem Placeholder.IsToken.isNameChar {t : List Char} (h : IsToken t) {c : Char} (hc : c ∈ t) :
    Script.isNameChar c = true := by
  have hall : (word ++ digestDigits).all Script.isNameChar = true := by decide
  exact List.all_eq_true.1 hall c (h.mem_of_mem hc)

/-- A shrunk script has no token that the script does not have, and has its tokens in the script's order. -/
theorem occurrences_shrink {tokens : List (List Char)} (htokens : ∀ t ∈ tokens, IsToken t) (text : String) :
    (occurrences tokens (Script.shrink text).toList).Sublist (occurrences tokens text.toList) := by
  have hne : ∀ t ∈ tokens, t ≠ [] := fun t ht => (htokens t ht).ne_nil
  have hlineEnd : ∀ t ∈ tokens, '\n' ∉ t := fun t ht => (htokens t ht).not_mem (by decide)
  have hends : occurrences tokens ('\n' :: (text.toList ++ ['\n'])) = occurrences tokens text.toList := by
    rw [occurrences_cons_of_not_mem hne hlineEnd, occurrences_concat hne hlineEnd]
  rw [← hends]
  exact (Script.thins_shrink text).occurrences_sublist hne fun t ht c hc => (htokens t ht).isNameChar hc

/-- An opening marker stands in a script, with white space between its characters or not, and a closing one,
likewise, or a token after it. -/
def Placeholder.OpensApart (m : Mapping) (script : List Char) : Prop :=
  ∃ before rest after, script = before ++ '<' :: rest ∧ Script.Skips rest ('%' :: after) ∧
    ((∃ inner more last, after = inner ++ '%' :: more ∧ Script.Skips more ('>' :: last)) ∨
      ∃ e ∈ m, e.1 <:+: after)

theorem append_cons_of_concat {x c : Char} (hxc : x ≠ c) {cs start rest : List Char}
    (h : cs ++ [x] = start ++ c :: rest) : ∃ rest', rest = rest' ++ [x] ∧ cs = start ++ c :: rest' := by
  rcases List.eq_nil_or_concat' rest with rfl | ⟨rest', last, rfl⟩
  · obtain ⟨-, hlast⟩ := List.append_inj' h rfl
    exact absurd (List.cons.inj hlast).1 hxc
  · have hsame : cs ++ [x] = (start ++ c :: rest') ++ [last] := by
      rw [h]
      simp
    obtain ⟨hcs, hlast⟩ := List.append_inj' hsame rfl
    exact ⟨rest', by rw [(List.cons.inj hlast).1], hcs⟩

/-- What a shrunk script opens stands in the script, with white space at most left out between the characters
of the markers. -/
theorem opensApart_of_opensAnew {m : Mapping} (htokens : ∀ e ∈ m, IsToken e.1) {text : String}
    (h : OpensAnew m (Script.shrink text).toList) : OpensApart m text.toList := by
  obtain ⟨before, after, hshrunk, hcloses⟩ := h
  have hthins := Script.thins_shrink text
  rw [hshrunk] at hthins
  obtain ⟨start, rest, hscript, hopening⟩ := hthins.split (by decide)
  obtain ⟨more, hskips, hinside⟩ := hopening.next (by decide)
  -- the line ends on both sides of the script hold no part of a marker
  have hstart : ∃ start', start = '\n' :: start' ∧ text.toList ++ ['\n'] = start' ++ '<' :: rest := by
    cases start with
    | nil => exact absurd (List.cons.inj hscript).1 (by decide)
    | cons c start' =>
      obtain ⟨rfl, hrest⟩ := List.cons.inj hscript
      exact ⟨start', rfl, hrest⟩
  obtain ⟨start', rfl, htext⟩ := hstart
  obtain ⟨rest', rfl, htext'⟩ := append_cons_of_concat (by decide) htext
  obtain ⟨more', rfl, hskips'⟩ := hskips.of_concat (by decide)
  refine ⟨start', rest', more', htext', hskips', hcloses.imp ?_ ?_⟩
  · rintro ⟨inner, last, rfl⟩
    rw [List.append_assoc] at hinside
    obtain ⟨inner', closing, hinner, hclosing⟩ := hinside.split (by decide)
    obtain ⟨end', hend, -⟩ := hclosing.next (by decide)
    obtain ⟨closing', rfl, hinner'⟩ := append_cons_of_concat (by decide) hinner
    obtain ⟨last', rfl, hlast'⟩ := hend.of_concat (by decide)
    exact ⟨inner', closing', last', hinner', hlast'⟩
  · rintro ⟨e, he, hin⟩
    have hone : ∀ t ∈ [e.1], IsToken t := fun t ht => List.mem_singleton.1 ht ▸ htokens e he
    have hne : ∀ t ∈ [e.1], t ≠ [] := fun t ht => (hone t ht).ne_nil
    have hmem := (hinside.occurrences_sublist hne fun t ht c hc => (hone t ht).isNameChar hc).mem
      (mem_occurrences.2 ⟨List.mem_singleton_self e.1, hin⟩)
    rw [occurrences_concat hne fun t ht => (hone t ht).not_mem (by decide)] at hmem
    exact ⟨e, he, (mem_occurrences.1 hmem).2⟩

theorem Placeholder.TokensApart.directives_restore_shrink {text : List Char} (hapart : TokensApart text)
    (hopens : ¬ OpensAnew (mapping text) (Script.shrink (String.ofList (mask text))).toList) :
    (directives (restore (mapping text) (Script.shrink (String.ofList (mask text))).toList)).Sublist
      (directives text) := by
  rw [hapart.directives_restore hopens, hapart.directives_eq]
  have hshrink := occurrences_shrink hapart.sound.isToken_of_mem_map (String.ofList (mask text))
  rw [String.toList_ofList] at hshrink
  exact hshrink.filterMap _

/-- The directives of a shrunk script are some of the script's, in their order, unless the masked and shrunk
script opens one of its own. -/
theorem directives_minify_sublist {text : String} (hapart : TokensApart text.toList)
    (hopens : ¬ OpensAnew (mapping text.toList) (Script.shrink (String.ofList (mask text.toList))).toList) :
    ∃ out notes, minify scriptShrinker text = .ok (out, notes) ∧
      (directives out.toList).Sublist (directives text.toList) := by
  refine ⟨_, _, minify_eq rfl, ?_⟩
  rw [String.toList_ofList]
  exact hapart.directives_restore_shrink hopens

/-- A directive in a comment is lost with it, and the other one is kept. -/
theorem directives_minify_sublist_comment :
    let text := "a = <%= x %> ; // <%= y %>\nb < 2"
    ∃ out notes, minify scriptShrinker text = .ok (out, notes) ∧
      (directives out.toList).Sublist (directives text.toList) :=
  directives_minify_sublist ⟨by decide +kernel, by decide +kernel⟩
    (not_opensAnew (occursIn_eq_false_iff.1 (by decide +kernel)))

/-- The blank between a sign and the next one is dropped, and both open a directive that swallows the one of the
script. -/
theorem directive_swallowed :
    ∃ out, minify scriptShrinker "a < % b; <%= x %>" = .ok (out, []) ∧
      directives out.toList = ["<%b;<%= x %>".toList] ∧
      ¬ (directives out.toList).Sublist (directives "a < % b; <%= x %>".toList) := by
  have hshrunk : scriptShrinker (String.ofList (mask "a < % b; <%= x %>".toList)) =
      .ok (Script.shrink (String.ofList (mask "a < % b; <%= x %>".toList))) := rfl
  have hdropped : dropped (mapping "a < % b; <%= x %>".toList)
      (Script.shrink (String.ofList (mask "a < % b; <%= x %>".toList))).toList = [] := by
    decide +kernel
  refine ⟨_, by rw [minify_eq hshrunk, hdropped]; rfl, ?_⟩
  decide +kernel

/-- None is swallowed in a script that, once it is masked, opens no directive even if white space and comments in
the markers do not count. -/
theorem directives_minify_of_not_opensApart {text : String} (hapart : TokensApart text.toList)
    (hopens : ¬ OpensApart (mapping text.toList) (mask text.toList)) :
    ∃ out notes, minify scriptShrinker text = .ok (out, notes) ∧
      (directives out.toList).Sublist (directives text.toList) := by
  have htokens : ∀ e ∈ mapping text.toList, IsToken e.1 := fun e he =>
    hapart.sound.isToken_of_mem_map e.1 (List.mem_map_of_mem he)
  refine ⟨_, _, minify_eq rfl, ?_⟩
  rw [String.toList_ofList]
  refine hapart.directives_restore_shrink fun hshrunk => hopens ?_
  have hscript := opensApart_of_opensAnew htokens hshrunk
  rwa [String.toList_ofList] at hscript

end Stencil
