import Stencil.Proofs.Shrink.Gap

/-!
# What is kept of a script

To shrink a script is to leave out white space, or to set a blank in the place of it, and to keep the rest as it
is. Two characters of names that did not stand beside each other are never brought together: if white space
between them goes, a blank comes in its place (`Thins`, `thins_shrink`). So whatever stands in a shrunk script
and is made of characters of names stood in the script, in the same order (`Thins.begins`), and other characters
that stand beside each other stood in it with nothing but white space between (`Thins.next`).

The scanner decides on a stretch of white space by the character before it, as it stands in the script, and
by the one after it. It may take the stretch in two steps, and at the second one the character before is
itself white space; that nothing is brought together then is known from the first one, which has looked past
the whole stretch.
-/

namespace Stencil.Script

open Text

/-- What is kept of a script after a character of a name, or after another one or none. White space is dropped
only if characters of names do not stand on both sides of it, or else a blank is set in its place, and all that
is left of the script may go at its end. -/
inductive Thins : (named : Bool) → (script kept : List Char) → Prop
  | stop {named : Bool} {cs : List Char} : Thins named cs []
  | keep {named : Bool} {c : Char} {cs kept : List Char} (h : Thins (isNameChar c) cs kept) :
      Thins named (c :: cs) (c :: kept)
  | blank {named : Bool} {b : Char} {cs rest kept : List Char} (hskips : Skips cs rest)
      (hb : isSolid b = false) (h : Thins false rest kept) : Thins named cs (b :: kept)
  | drop {named : Bool} {cs rest kept : List Char} (hskips : Skips cs rest)
      (hapart : named = true → startsName kept = false) (h : Thins named rest kept) : Thins named cs kept

namespace Thins

variable {named : Bool} {cs kept : List Char}

theorem refl (named : Bool) (cs : List Char) : Thins named cs cs := by
  induction cs generalizing named with
  | nil => exact stop
  | cons c cs ih => exact keep (ih (isNameChar c))

/-- What may stand after a character of a name may stand after any other. -/
theorem unnamed (h : Thins named cs kept) : Thins false cs kept := by
  induction h with
  | stop => exact stop
  | keep h => exact keep h
  | blank hskips hb h => exact blank hskips hb h
  | drop hskips _ _ ih => exact drop hskips (fun hfalse => absurd hfalse (by decide)) ih

/-- What does not start with a character of a name may stand after anything. -/
theorem of_not_startsName (h : Thins named cs kept) (hkept : startsName kept = false) (named' : Bool) :
    Thins named' cs kept := by
  induction h with
  | stop => exact stop
  | keep h => exact keep h
  | blank hskips hb h => exact blank hskips hb h
  | drop hskips _ _ ih => exact drop hskips (fun _ => hkept) (ih hkept)

/-- A stretch is kept. -/
theorem append (before taken : List Char)
    (h : Thins (startsName (taken.reverse ++ before)) cs kept) :
    Thins (startsName before) (taken ++ cs) (taken ++ kept) := by
  induction taken generalizing before with
  | nil => exact h
  | cons c taken ih =>
    refine keep (ih (c :: before) ?_)
    simpa using h

/-- Less may be kept at the end. -/
theorem of_begins {kept' : List Char} (h : Thins named cs kept) (hle : kept' <+: kept) :
    Thins named cs kept' := by
  induction h generalizing kept' with
  | stop =>
    rw [List.prefix_nil.1 hle]
    exact stop
  | @keep named c cs kept h ih =>
    rcases List.prefix_cons_iff.1 hle with rfl | ⟨less, rfl, hless⟩
    · exact stop
    · exact keep (ih hless)
  | @blank named b cs rest kept hskips hb h ih =>
    rcases List.prefix_cons_iff.1 hle with rfl | ⟨less, rfl, hless⟩
    · exact stop
    · exact blank hskips hb (ih hless)
  | drop hskips hapart h ih =>
    refine drop hskips (fun hnamed => ?_) (ih hle)
    cases kept' with
    | nil => rfl
    | cons c less =>
      obtain ⟨more, rfl⟩ := hle
      exact hapart hnamed

/-- Where nothing of a name stands before, blank characters may be dropped from the start. -/
theorem dropWhile {p : Char → Bool} (hp : ∀ c, p c = true → c.toNat ≤ 0x20) (h : Thins false cs kept) :
    Thins false cs (kept.dropWhile p) := by
  generalize hnamed : false = named at h
  induction h with
  | stop => exact stop
  | @keep named c cs kept h ih =>
    rw [List.dropWhile_cons]
    split
    · next hc =>
      -- the character is kept of the script as it stands there, so to drop it is to skip it
      obtain ⟨lineEnd, hitem⟩ := blankItem?_of_le (hp c hc) cs
      have hname : isNameChar c = false := by
        rw [← Bool.not_eq_true]
        intro hname
        have hsolid := blankItem?_of_isSolid (isSolid_of_isNameChar hname) cs
        exact nomatch hitem.symm.trans hsolid
      have hrest := ih hname.symm
      rw [hname] at hrest
      exact drop (.single ⟨lineEnd, hitem⟩) (fun htrue => by simp [← hnamed] at htrue) (hnamed ▸ hrest)
    · exact keep h
  | @blank named b cs rest kept hskips hb h ih =>
    rw [List.dropWhile_cons]
    split
    · exact drop hskips (fun htrue => by simp [← hnamed] at htrue) (hnamed ▸ ih rfl)
    · exact blank hskips hb h
  | drop hskips hapart h ih =>
    exact drop hskips (fun htrue => by simp [← hnamed] at htrue) (ih hnamed)

/-- A word of characters of names that begins after one in what is kept begins after it in the script. -/
theorem begins {word : List Char} (hword : ∀ c ∈ word, isNameChar c = true) (h : Thins true cs kept)
    (hbegins : word <+: kept) : word <+: cs := by
  generalize hnamed : true = named at h
  induction h generalizing word with
  | stop =>
    rw [List.prefix_nil.1 hbegins]
    exact List.nil_prefix
  | @keep named c cs kept h ih =>
    rcases List.prefix_cons_iff.1 hbegins with rfl | ⟨word, rfl, hrest⟩
    · exact List.nil_prefix
    · have hc : isNameChar c = true := hword c List.mem_cons_self
      have hrest' := ih (fun d hd => hword d (List.mem_cons_of_mem c hd)) hrest hc.symm
      exact List.cons_prefix_cons.2 ⟨rfl, hrest'⟩
  | @blank named b cs rest kept hskips hb h ih =>
    rcases List.prefix_cons_iff.1 hbegins with rfl | ⟨word, rfl, -⟩
    · exact List.nil_prefix
    · rw [isSolid_of_isNameChar (hword b List.mem_cons_self)] at hb
      exact absurd hb (by decide)
  | @drop named cs rest kept hskips hapart h ih =>
    cases word with
    | nil => exact List.nil_prefix
    | cons c word =>
      obtain ⟨more, rfl⟩ := hbegins
      have hc := hapart hnamed.symm
      rw [List.cons_append, startsName_cons, hword c List.mem_cons_self] at hc
      exact absurd hc (by decide)

/-- What is kept first, if it is not blank, stands in the script after white space. -/
theorem next {c : Char} (hc : isSolid c = true) (h : Thins named cs (c :: kept)) :
    ∃ rest, Skips cs (c :: rest) ∧ Thins (isNameChar c) rest kept := by
  generalize hkept : c :: kept = all at h
  induction h with
  | stop => exact nomatch hkept
  | @keep named d cs kept' h ih =>
    obtain ⟨rfl, rfl⟩ := List.cons.inj hkept
    exact ⟨cs, .refl, h⟩
  | @blank named b cs rest kept' hskips hb h ih =>
    obtain ⟨rfl, rfl⟩ := List.cons.inj hkept
    rw [hc] at hb
    exact absurd hb (by decide)
  | drop hskips hapart h ih =>
    obtain ⟨rest, hrest, hthins⟩ := ih hkept
    exact ⟨rest, hskips.trans hrest, hthins⟩

/-- A character that is kept and not blank stands in the script, and what is kept after it is kept of what
stands after it. -/
theorem split {c : Char} (hc : isSolid c = true) {before after : List Char}
    (h : Thins named cs (before ++ c :: after)) :
    ∃ start rest, cs = start ++ c :: rest ∧ Thins (isNameChar c) rest after := by
  generalize hkept : before ++ c :: after = all at h
  induction h generalizing before with
  | stop => exact absurd hkept (by simp)
  | @keep named d cs kept h ih =>
    cases before with
    | nil =>
      obtain ⟨rfl, rfl⟩ := List.cons.inj hkept
      exact ⟨[], cs, rfl, h⟩
    | cons e before =>
      obtain ⟨start, rest, rfl, hrest⟩ := ih (List.cons.inj hkept).2
      exact ⟨d :: start, rest, rfl, hrest⟩
  | @blank named b cs rest kept hskips hb h ih =>
    cases before with
    | nil =>
      obtain ⟨rfl, rfl⟩ := List.cons.inj hkept
      rw [hc] at hb
      exact absurd hb (by decide)
    | cons e before =>
      obtain ⟨start, rest, rfl, hrest⟩ := ih (List.cons.inj hkept).2
      obtain ⟨first, rfl⟩ := hskips.suffix
      exact ⟨first ++ start, rest, (List.append_assoc _ _ _).symm, hrest⟩
  | drop hskips hapart h ih =>
    obtain ⟨start, rest, rfl, hrest⟩ := ih hkept
    obtain ⟨first, rfl⟩ := hskips.suffix
    exact ⟨first ++ start, rest, (List.append_assoc _ _ _).symm, hrest⟩

/-- What is kept starts with a character of a name only if what stands after the white space at the start of
the script does. -/
theorem startsName_afterGap (h : Thins named cs kept) (hkept : startsName kept = true) :
    startsName (afterGap cs) = true := by
  cases kept with
  | nil => exact absurd hkept (by decide)
  | cons c kept =>
    have hc := isSolid_of_isNameChar hkept
    obtain ⟨rest, hskips, -⟩ := h.next hc
    rw [hskips.afterGap_eq, afterGap_of_isSolid hc]
    exact hkept

end Thins

/-! ### Strings and regular expressions -/

/-- What is set before the first part of a split text is set before the text. -/
theorem append_of_map {r : Option (List Char × List Char)} (start : List Char) {cs s after : List Char}
    (hr : ∀ {s after}, r = some (s, after) → cs = s ++ after)
    (h : r.map (fun (s, after) => (start ++ s, after)) = some (s, after)) : start ++ cs = s ++ after := by
  obtain ⟨⟨s', after'⟩, hs, heq⟩ := Option.map_eq_some_iff.1 h
  cases heq
  rw [hr hs, List.append_assoc]

theorem stringRest?_append {quote : Char} {spansLines : Bool} {cs s after : List Char}
    (h : stringRest? quote spansLines cs = some (s, after)) : cs = s ++ after := by
  fun_induction stringRest? quote spansLines cs generalizing s after with
  | case1 => exact nomatch h
  | case2 rest ih => exact append_of_map ['\\', '\r', '\n'] ih h
  | case3 c rest hno ih => exact append_of_map ['\\', c] ih h
  | case4 rest hno hno' =>
    cases h
    rfl
  | case5 c rest hno hno' hquote hends => exact nomatch h
  | case6 c rest hno hno' hquote hends ih => exact append_of_map [c] ih h

theorem string?_append {cs s after : List Char} (h : string? cs = some (s, after)) : cs = s ++ after := by
  unfold string? at h
  split at h
  · next c rest =>
    split at h
    · exact append_of_map [c] stringRest?_append h
    · exact nomatch h
  · exact nomatch h

theorem patternRest?_append {bracketed : Bool} {cs s after : List Char}
    (h : patternRest? bracketed cs = some (s, after)) : cs = s ++ after := by
  fun_induction patternRest? bracketed cs generalizing s after with
  | case1 => exact nomatch h
  | case2 => exact nomatch h
  | case3 bracketed c rest hends ih => exact append_of_map ['\\', c] ih h
  | case4 => exact nomatch h
  | case5 c rest hno hends ih => exact append_of_map [c] ih h
  | case6 =>
    cases h
    rfl
  | case7 bracketed c rest hno hends hbracketed hslash ih => exact append_of_map [c] ih h

/-- A regular expression stands at the start of the text as it is kept, from its slash on. -/
theorem pattern?_append {cs s after : List Char} (h : pattern? cs = some (s, after)) :
    cs = s ++ after ∧ s.head? = some '/' := by
  unfold pattern? at h
  split at h
  · next c rest =>
    split at h
    · exact nomatch h
    · obtain ⟨⟨s', after'⟩, hrest, heq⟩ := Option.map_eq_some_iff.1 h
      cases heq
      refine ⟨?_, rfl⟩
      rw [patternRest?_append hrest, List.cons_append, List.append_assoc, List.takeWhile_append_dropWhile]
  · exact nomatch h

/-! ### One step -/

/-- After the characters `before`, the last one first, a stretch is taken from the text and `kept` is kept of it:
if what is kept of the rest brings no names together, this does not either. -/
structure Stage (before cs kept after : List Char) : Prop where
  suffix : after <:+ cs
  thins : ∀ {taken rest : List Char}, taken ++ after = cs →
    Thins (startsName (taken.reverse ++ before)) after rest → Thins (startsName before) cs (kept ++ rest)

namespace Stage

variable {before cs kept mid after : List Char}

/-- What is taken is kept. -/
theorem of_append (hcs : cs = kept ++ after) : Stage before cs kept after where
  suffix := hcs ▸ List.suffix_append kept after
  thins {taken rest} htaken hthins := by
    obtain rfl : taken = kept := List.append_cancel_right (htaken.trans hcs)
    rw [hcs]
    exact hthins.append before taken

/-- A blank is kept in the place of white space. -/
theorem of_blank {b : Char} (hb : isSolid b = false) (hskips : Skips cs after) :
    Stage before cs [b] after where
  suffix := hskips.suffix
  thins _ hthins := .blank hskips hb hthins.unnamed

/-- White space is dropped that does not stand between characters of names. -/
theorem of_skips (hskips : Skips cs after)
    (hapart : startsName before = true → startsName (afterGap cs) = false) :
    Stage before cs [] after where
  suffix := hskips.suffix
  thins {taken rest} htaken hthins := by
    rw [List.nil_append]
    cases hbefore : startsName before with
    | false => exact .drop hskips (fun hfalse => absurd hfalse (by decide)) hthins.unnamed
    | true =>
      -- what is kept first stands right after all the white space
      have hrest : startsName rest = false := by
        rw [← Bool.not_eq_true]
        intro hstarts
        have hafter := hthins.startsName_afterGap hstarts
        rw [← hskips.afterGap_eq, hapart hbefore] at hafter
        exact absurd hafter (by decide)
      exact .drop hskips (fun _ => hrest) (hthins.of_not_startsName hrest true)

theorem trans {kept' : List Char} (h : Stage before cs kept mid)
    (h' : ∀ before, Stage before mid kept' after) : Stage before cs (kept ++ kept') after where
  suffix := (h' before).suffix.trans h.suffix
  thins {taken rest} htaken hthins := by
    obtain ⟨first, hfirst⟩ := h.suffix
    obtain ⟨second, hsecond⟩ := (h' before).suffix
    obtain rfl : taken = first ++ second := by
      refine List.append_cancel_right (htaken.trans ?_)
      rw [List.append_assoc, hsecond, hfirst]
    rw [List.reverse_append, List.append_assoc] at hthins
    rw [List.append_assoc]
    exact h.thins hfirst ((h' (first.reverse ++ before)).thins hsecond hthins)

end Stage

variable {before cs kept after : List Char}

theorem stage_plain? (h : plain? cs = some (kept, after)) : Stage before cs kept after := by
  unfold plain? at h
  split at h
  · exact nomatch h
  · cases h
    exact .of_append (List.takeWhile_append_dropWhile).symm

theorem stage_keptString? (h : keptString? cs = some (kept, after)) : Stage before cs kept after := by
  obtain ⟨⟨s, rest⟩, hs, heq⟩ := Option.map_eq_some_iff.1 h
  cases heq
  refine .of_append ?_
  rw [string?_append hs, List.append_assoc, List.takeWhile_append_dropWhile]

/-- The white space before a regular expression may go: the slash is no part of a name. -/
theorem stage_pattern? (h : pattern? (afterGap cs) = some (kept, after)) : Stage before cs kept after := by
  obtain ⟨hstart, hslash⟩ := pattern?_append h
  obtain ⟨s, rfl⟩ := List.head?_eq_some_iff.1 hslash
  have hapart : startsName (afterGap cs) = false := by
    rw [hstart]
    rfl
  exact (Stage.of_skips (skips_gap cs.length cs) fun _ => hapart).trans fun _ => .of_append hstart

theorem stage_keptPattern? {breakBefore : Bool} (h : keptPattern? breakBefore cs = some (kept, after)) :
    Stage before cs kept after := by
  obtain ⟨⟨s, mid⟩, hs, heq⟩ := Option.map_eq_some_iff.1 h
  have hs' : pattern? (afterGap cs) = some (s, mid) := hs
  dsimp only at heq
  -- the line break before, if it is kept, and the expression
  have hfirst : ∀ before, Stage before cs
      (if breakBefore && (gap cs.length cs).1 then '\n' :: s else s) mid := by
    intro before
    split
    · have hblank : Stage before cs ['\n'] (afterGap cs) :=
        .of_blank (by decide) (skips_gap cs.length cs)
      exact hblank.trans fun _ => .of_append (pattern?_append hs').1
    · exact stage_pattern? hs'
  split at heq
  · next rest hbreak =>
    cases heq
    exact (hfirst before).trans fun _ => .of_blank (by decide) (skips_lineBreak? hbreak)
  · cases heq
    exact hfirst before

theorem head?_of_startsName {p : Char → Bool} (hp : ∀ c, isNameChar c = true → p c = true)
    (h : startsName cs = true) : (cs.head?.map p).getD false = true := by
  cases cs with
  | nil => exact absurd h (by decide)
  | cons c cs => exact hp c h

theorem stage_keptGap? (h : keptGap? before.head? cs = some (kept, after)) :
    Stage before cs kept after := by
  unfold keptGap? at h
  dsimp only at h
  have hgap : Skips cs (gap cs.length cs).2 := skips_gap cs.length cs
  have hspaces : Skips cs (spaces cs.length cs) := skips_spaces cs.length cs
  split at h
  · cases h
    exact .of_blank (by decide) hgap
  · next hbreak =>
    -- a character of a name may end a statement and may open one
    have hlineEnd : (gap cs.length cs).1 = true → startsName before = true →
        startsName (afterGap cs) = false := by
      intro hends hbefore
      by_contra hafter
      rw [Bool.not_eq_false] at hafter
      have hcloses := head?_of_startsName (p := closesStatement)
        (fun c hc => by simp [closesStatement, hc]) hbefore
      have hopens := head?_of_startsName (p := opensStatement)
        (fun c hc => by simp [opensStatement, hc]) hafter
      exact hbreak (by rw [hends, hcloses, ← afterGap, hopens]; rfl)
    split at h
    · split at h
      · cases h
        exact .of_blank (by decide) hspaces
      · next hnarrow =>
        cases h
        refine .of_skips hspaces fun hbefore => ?_
        cases hends : (gap cs.length cs).1 with
        | true => exact hlineEnd hends hbefore
        | false =>
          -- no line ends, so the spaces are all the white space there is
          rw [afterGap, ← spaces_eq_gap hends]
          have hbefore' : (before.head?.map isNameChar).getD false = true := hbefore
          rw [hbefore', Bool.true_and, Bool.or_assoc, Bool.or_eq_true, not_or] at hnarrow
          exact Bool.not_eq_true _ ▸ hnarrow.1
    · split at h
      · next hends =>
        cases h
        exact .of_skips hgap (hlineEnd hends)
      · cases h

/-- Each step of the scanner is a stage. -/
theorem stage_step? (h : step? before cs = some (kept, after)) : Stage before cs kept after := by
  unfold step? at h
  dsimp only at h
  rcases (Option.orElse_eq_some _ _ _).1 h with h | ⟨-, h⟩
  · exact stage_plain? h
  rcases (Option.orElse_eq_some _ _ _).1 h with h | ⟨-, h⟩
  · exact stage_keptString? h
  rcases (Option.orElse_eq_some _ _ _).1 h with h | ⟨-, h⟩
  · -- an expression whose method is called
    split at h
    · split at h
      · next s rest hs =>
        split at h
        · cases h
          exact stage_pattern? hs
        · exact nomatch h
      · exact nomatch h
    · exact nomatch h
  rcases (Option.orElse_eq_some _ _ _).1 h with h | ⟨-, h⟩
  · -- an expression after a sign
    split at h
    · exact stage_keptPattern? h
    · exact nomatch h
  rcases (Option.orElse_eq_some _ _ _).1 h with h | ⟨-, h⟩
  · -- an expression that is returned
    split at h
    · exact stage_keptPattern? h
    · exact nomatch h
  · exact stage_keptGap? h

theorem take_of_append {taken : List Char} (h : taken ++ after = cs) :
    cs.take (cs.length - after.length) = taken := by
  rw [← h, List.length_append, Nat.add_sub_cancel, List.take_left]

/-- What is kept of a script brings no names together. -/
theorem thins_shrinkFrom (fuel : Nat) (before cs : List Char) :
    Thins (startsName before) cs (shrinkFrom fuel before cs) := by
  induction fuel generalizing before cs with
  | zero => exact .refl _ cs
  | succ fuel ih =>
    cases cs with
    | nil => exact .stop
    | cons c rest =>
      have hstage : Stage before (c :: rest) ((step? before (c :: rest)).getD ([c], rest)).1
          ((step? before (c :: rest)).getD ([c], rest)).2 := by
        cases hstep : step? before (c :: rest) with
        | none =>
          -- where nothing can be taken the character is kept
          exact .of_append rfl
        | some step => exact stage_step? hstep
      obtain ⟨taken, htaken⟩ := hstage.suffix
      rw [shrinkFrom]
      dsimp only
      rw [take_of_append htaken]
      exact hstage.thins htaken (ih _ _)

theorem thins_trimBoth {p : Char → Bool} (hp : ∀ c, p c = true → c.toNat ≤ 0x20)
    (h : Thins false cs kept) : Thins false cs (trimBoth p kept) := by
  refine (h.dropWhile hp).of_begins ?_
  have hsuffix := List.dropWhile_suffix p (l := (kept.dropWhile p).reverse)
  rw [trimBoth, dropRight, ← List.reverse_suffix, List.reverse_reverse]
  exact hsuffix

/-- A shrunk script is kept of the script between two line ends. -/
theorem thins_shrink (text : String) :
    Thins false ('\n' :: (text.toList ++ ['\n'])) (shrink text).toList := by
  rw [shrink, String.toList_ofList]
  exact thins_trimBoth (fun c hc => of_decide_eq_true hc) (thins_shrinkFrom _ [] _)

end Stencil.Script
