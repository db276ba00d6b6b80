import Stencil.Proofs.Reading.Steps

/-!
# Readings that stop and go on

A reading that waits for a text keeps what it has come to in frames, one for each template around the
include at which it stopped. The invariant `FramesFit` says that these frames are a true account of the
way to that include: in each of them the text before the include is what the segments before it come to,
and the name in the include is brought to the template of the frame inside.

So whatever the missing text turns out to be, the reading goes on as if it had never stopped. The results
of a reading (`readTemplate_fits`), of going on with a text (`resume_fits`), and of a file that cannot be
had (`FramesFit.gives_error`) are the assembly of the template at which the reading began.
-/

namespace Stencil

namespace Gives

variable {W : World} {owner : String} {outer : List String} {name : List Char} {child : String}

/-- The text of an include is the text of the template that it names. -/
theorem include_ok {inner : String} (h : Gives W (owner :: outer) child (.ok inner))
    (hname : W.name name (.ok child)) (hedge : child ∉ owner :: outer → W.edge child owner) :
    Reads W (owner :: outer) [.include name] (.ok inner) := by
  rcases h with ⟨-, hr⟩ | ⟨hmem, ⟨e, -, hr⟩ | ⟨text, htext, hreads⟩⟩
  · simp at hr
  · simp at hr
  · have h := Reads.filled hname hmem (hedge hmem) htext hreads (Reads.nil (W := W))
    simpa [Except.map] using h

/-- A fault in an include is the fault of what follows too. -/
theorem include_error {e : Fault} (h : Gives W (owner :: outer) child (.error e))
    (hname : W.name name (.ok child)) (hedge : child ∉ owner :: outer → W.edge child owner)
    (rest : List Segment) : Reads W (owner :: outer) (.include name :: rest) (.error e) := by
  rcases h with ⟨hmem, hr⟩ | ⟨hmem, ⟨e', htext, hr⟩ | ⟨text, htext, hreads⟩⟩
  · rw [hr]
    exact .circular hname hmem
  · rw [hr]
    exact .missing hname hmem (hedge hmem) htext
  · exact .broken hname hmem (hedge hmem) htext hreads

end Gives

namespace Reading

/-- A frame stands at an include of a template, `inner`: what is before the include has come to the
text of the frame, and what is after it is the rest of the frame. -/
structure Frame.Fits (W : World) (outer : List String) (inner : String) (f : Frame) : Prop where
  at_include : ∃ text before name, W.text f.id (.ok text) ∧
    segmentsOf f.id text = before ++ .include name :: f.rest ∧
    Reads W (f.id :: outer) before (.ok f.before) ∧ W.name name (.ok inner)
  edge : W.edge inner f.id
  apart : inner ∉ f.id :: outer

/-- The frames lead from a template, `root`, that is read inside the chain `base`, to the template
`inner`; the innermost frame is the first one. -/
def FramesFit (W : World) (base : List String) (root : String) : String → List Frame → Prop
  | inner, [] => inner = root
  | inner, f :: rest => f.Fits W (chainOf rest ++ base) inner ∧ FramesFit W base root f.id rest

/-- A reading of a template, `root`, inside the chain `base` has come to what the assembly says, or it
waits on the way there. -/
def Outcome.Fits (W : World) (base : List String) (root : String) : Outcome → Prop
  | .done text => Gives W base root (.ok text)
  | .failed f => Gives W base root (.error (.ofReading f))
  | .waits w => root ∉ base ∧ FramesFit W base root w.id w.frames

/-- All that a reading with this trail has seen of the templates is known. -/
structure Desk.Seen (d : Desk) (t : Trail) (W : World) : Prop where
  name : ∀ n, W.name n (d.normalize (String.ofList n))
  text : ∀ id text, d.sources.get? id = some text → (t.taken.lookup id).isSome → W.text id (.ok text)
  edge : ∀ c p, p = "" ∨ t.relations.Has c p → (t.taken.lookup c).isSome → W.edge c p

/-- What is seen early on is seen at the end. -/
theorem Desk.Seen.of_follows {d : Desk} {t t' : Trail} {W : World} (h : d.Seen t' W)
    (hf : Follows d t t') : d.Seen t W := by
  refine ⟨h.name, fun id text hs ht => h.text id text hs (hf.isSome ht), fun c p hp hc => ?_⟩
  refine h.edge c p ?_ (hf.isSome hc)
  exact hp.imp_right (hf.has c p)

/-! ### Frames -/

section Frames

variable {W W' : World} {base : List String} {root inner : String} {frames : List Frame}

theorem Frame.Fits.of_le (hle : W ≤ W') {outer : List String} {f : Frame} (h : f.Fits W outer inner) :
    f.Fits W' outer inner := by
  obtain ⟨text, before, name, ht, hp, hr, hn⟩ := h.at_include
  have hinclude : W'.name name (.ok inner) := hle.name _ _ hn
  exact ⟨⟨text, before, name, hle.text _ _ ht, hp, hr.of_le hle, hinclude⟩, hle.edge _ _ h.edge, h.apart⟩

/-- Frames that fit to what is known fit if more is known. -/
theorem FramesFit.of_le (hle : W ≤ W') (h : FramesFit W base root inner frames) :
    FramesFit W' base root inner frames := by
  induction frames generalizing inner with
  | nil => exact h
  | cons f rest ih => exact ⟨h.1.of_le hle, ih h.2⟩

/-- Frames that lead on from where other frames lead to. -/
theorem FramesFit.append {id : String} {onward : List Frame}
    (h : FramesFit W (chainOf frames ++ base) inner id onward)
    (hframes : FramesFit W base root inner frames) : FramesFit W base root id (onward ++ frames) := by
  induction onward generalizing id with
  | nil =>
    rw [FramesFit] at h
    exact h ▸ hframes
  | cons g rest ih =>
    refine ⟨?_, ih h.2⟩
    have hg := h.1
    rwa [← List.append_assoc, ← show chainOf (rest ++ frames) = chainOf rest ++ chainOf frames from
      List.map_append] at hg

/-- What an include comes to is the next segment of the template around it. -/
theorem Frame.Fits.reads_ok {outer : List String} {f : Frame} (h : f.Fits W outer inner) {text : String}
    (hg : Gives W (f.id :: outer) inner (.ok text)) :
    ∃ all before, W.text f.id (.ok all) ∧ segmentsOf f.id all = before ++ f.rest ∧
      Reads W (f.id :: outer) before (.ok (f.before ++ text)) := by
  obtain ⟨all, before, name, ht, hp, hr, hn⟩ := h.at_include
  refine ⟨all, before ++ [.include name], ht, by rw [hp, List.append_assoc]; rfl, ?_⟩
  exact hr.snoc (hg.include_ok hn fun _ => h.edge)

/-- A fault in an include is the fault of the template around it. -/
theorem Frame.Fits.gives_error {outer : List String} {f : Frame} (h : f.Fits W outer inner)
    {e : Stencil.Fault} (hg : Gives W (f.id :: outer) inner (.error e)) (hout : f.id ∉ outer) :
    Gives W outer f.id (.error e) := by
  obtain ⟨all, before, name, ht, hp, hr, hn⟩ := h.at_include
  refine Or.inr ⟨hout, Or.inr ⟨all, ht, ?_⟩⟩
  rw [hp]
  exact hr.append (hg.include_error hn (fun _ => h.edge) f.rest)

/-- The template that the frames lead to stands outside of them. -/
theorem FramesFit.apart (h : FramesFit W base root inner frames) (hroot : root ∉ base) :
    inner ∉ chainOf frames ++ base := by
  cases frames with
  | nil =>
    rw [FramesFit] at h
    subst h
    exact hroot
  | cons f rest => exact h.1.apart

/-- A fault inside the frames is the fault of the template at which the reading began. -/
theorem FramesFit.gives_error (h : FramesFit W base root inner frames) (hroot : root ∉ base)
    {e : Stencil.Fault} (hg : Gives W (chainOf frames ++ base) inner (.error e)) :
    Gives W base root (.error e) := by
  induction frames generalizing inner with
  | nil =>
    rw [FramesFit] at h
    subst h
    exact hg
  | cons f rest ih => exact ih h.2 (h.1.gives_error hg (h.2.apart hroot))

end Frames

/-! ### Readings -/

variable (d : Desk)

/-- What readings come to: the reading of a template, which is then related to the template around it,
and the reading of the segments that are left of a template after some that are done. -/
theorem read_fits :
    (∀ chain parent id t (W : World), d.Seen (readTemplate d chain parent id t).2 W →
      (readTemplate d chain parent id t).1.Fits W chain id ∧
        (id ∉ chain → ∀ p, parent = some p → W.edge id p)) ∧
    ∀ chain id before rest t (W : World) (outer : List String) (all : String) (done : List Segment),
      chain = id :: outer → d.Seen (readSegments d chain id before rest t).2 W → id ∉ outer →
      W.text id (.ok all) → segmentsOf id all = done ++ rest → Reads W chain done (.ok before) →
      (readSegments d chain id before rest t).1.Fits W outer id := by
  refine read_induct d
    (P := fun chain parent id t r => ∀ W : World, d.Seen r.2 W →
      r.1.Fits W chain id ∧ (id ∉ chain → ∀ p, parent = some p → W.edge id p))
    (Q := fun chain id before rest t r => ∀ (W : World) (outer : List String) (all : String)
      (done : List Segment), chain = id :: outer → d.Seen r.2 W → id ∉ outer → W.text id (.ok all) →
      segmentsOf id all = done ++ rest → Reads W chain done (.ok before) → r.1.Fits W outer id)
    ?_ ?_ ?_ ?_ ?_ ?_ ?_ ?_ ?_
  -- a template: it is refused, waited for, or read
  · intro chain parent id t hmem W _
    exact ⟨Or.inl ⟨hmem, rfl⟩, fun h => absurd hmem h⟩
  · intro chain parent id t hmem _ W hseen
    refine ⟨⟨hmem, rfl⟩, ?_⟩
    rintro - p rfl
    exact hseen.edge id p (has_enter d t id p) (isSome_enter d t id (some p))
  · intro chain parent id t text hmem hs r ih W hseen
    have hfollows := ((leaves d).2 (id :: chain) id "" (segmentsOf id text) (t.enter d id parent)).follows
    have hmet := hfollows.isSome (isSome_enter d t id parent)
    refine ⟨ih W chain text [] rfl hseen hmem (hseen.text id text hs hmet) rfl .nil, ?_⟩
    rintro - p rfl
    have hedge := (has_enter d t id p).imp_right (hfollows.has id p)
    exact hseen.edge id p hedge hmet
  -- segments: none is left, a literal one, or an include
  · intro chain id before t W outer all done hchain _ hout ht hp hr
    subst hchain
    rw [List.append_nil] at hp
    exact Or.inr ⟨hout, Or.inr ⟨all, ht, hp ▸ hr⟩⟩
  · intro chain id before cs rest t r ih W outer all done hchain hseen hout ht hp hr
    refine ih W outer all (done ++ [.literal cs]) hchain hseen hout ht ?_ ?_
    · rw [hp, List.append_assoc]
      rfl
    · have h := hr.snoc (Reads.literal .nil : Reads W chain [.literal cs] _)
      simpa [Except.map] using h
  · intro chain id before name rest t f hn W outer all done hchain hseen hout ht hp hr
    subst hchain
    have hname : W.name name (.error f) := hn ▸ hseen.name name
    refine Or.inr ⟨hout, Or.inr ⟨all, ht, ?_⟩⟩
    rw [hp]
    exact hr.append (Reads.unnamed hname)
  · intro chain id before name rest t child inner t' hn ih₁ r ih₂ W outer all done hchain hseen hout ht
      hp hr
    have hfollows := ((leaves d).2 chain id (before ++ inner) rest t').follows
    -- the include has seen no more than what follows it
    obtain ⟨hgives, hedge⟩ := ih₁ W (hseen.of_follows hfollows)
    subst hchain
    have hname : W.name name (.ok child) := hn ▸ hseen.name name
    refine ih₂ W outer all (done ++ [.include name]) rfl hseen hout ht ?_ ?_
    · rw [hp, List.append_assoc]
      rfl
    · exact hr.snoc (Gives.include_ok hgives hname fun h => hedge h id rfl)
  · intro chain id before name rest t child f t' hn ih W outer all done hchain hseen hout ht hp hr
    obtain ⟨hgives, hedge⟩ := ih W hseen
    subst hchain
    have hname : W.name name (.ok child) := hn ▸ hseen.name name
    refine Or.inr ⟨hout, Or.inr ⟨all, ht, ?_⟩⟩
    rw [hp]
    exact hr.append (Gives.include_error hgives hname (fun h => hedge h id rfl) rest)
  · intro chain id before name rest t child w t' hn ih W outer all done hchain hseen hout ht hp hr
    obtain ⟨⟨hmem, hframes⟩, hedge⟩ := ih W hseen
    subst hchain
    have hname : W.name name (.ok child) := hn ▸ hseen.name name
    -- the template that is stopped in becomes the outermost frame
    have hframe : Frame.Fits W outer child ⟨id, before, rest⟩ :=
      ⟨⟨all, done, name, ht, hp, hr, hname⟩, hedge hmem id rfl, hmem⟩
    have hlast : FramesFit W outer id child [⟨id, before, rest⟩] := ⟨hframe, rfl⟩
    exact ⟨hout, FramesFit.append hframes hlast⟩

/-- Going on with the templates around an include after the reading inside it. -/
theorem climb_fits {W : World} {root inner : String} (frames : List Frame) {r : Outcome × Trail}
    (hframes : FramesFit W [] root inner frames) (hseen : d.Seen (climb d frames r).2 W)
    (hr : d.Seen r.2 W → r.1.Fits W (chainOf frames) inner) : (climb d frames r).1.Fits W [] root := by
  induction frames generalizing inner r with
  | nil =>
    rw [FramesFit] at hframes
    rw [climb] at hseen ⊢
    exact hframes ▸ hr hseen
  | cons f rest ih =>
    have happart := hframes.2.apart (List.not_mem_nil)
    rw [List.append_nil] at happart
    have hf := hframes.1
    rw [List.append_nil] at hf
    obtain ⟨o, t⟩ := r
    cases o with
    | failed e =>
      rw [climb] at hseen ⊢
      have hg : Gives W (f.id :: chainOf rest) inner (.error (.ofReading e)) := hr hseen
      refine hframes.2.gives_error List.not_mem_nil ?_
      rw [List.append_nil]
      exact hf.gives_error hg happart
    | done text =>
      have hfollows := ((leaves d).2 (f.id :: chainOf rest) f.id (f.before ++ text) f.rest t).follows
      rw [climb] at hseen ⊢
      refine ih hframes.2 hseen fun hseen' => ?_
      have hg : Gives W (f.id :: chainOf rest) inner (.ok text) :=
        hr (hseen'.of_follows hfollows)
      obtain ⟨all, before, hall, hpieces, hreads⟩ := hf.reads_ok hg
      exact (read_fits d).2 _ _ _ _ _ W (chainOf rest) all before rfl hseen' happart hall hpieces hreads
    | waits w =>
      rw [climb_waits] at hseen ⊢
      obtain ⟨-, honward⟩ := hr hseen
      refine ⟨List.not_mem_nil, FramesFit.append ?_ hframes⟩
      rwa [List.append_nil]

/-- Going on with a text that was waited for. -/
theorem resume_fits {W : World} {root text : String} {w : Wait} {t : Trail}
    (hframes : FramesFit W [] root w.id w.frames) (htext : W.text w.id (.ok text))
    (hseen : d.Seen (resume d w text t).2 W) : (resume d w text t).1.Fits W [] root := by
  have happart := hframes.apart List.not_mem_nil
  rw [List.append_nil] at happart
  rw [resume_eq] at hseen ⊢
  refine climb_fits d w.frames hframes hseen fun hseen' => ?_
  exact (read_fits d).2 _ _ _ _ _ W (chainOf w.frames) text [] rfl hseen' happart htext rfl .nil

/-! ### Readings that do not stop -/

/-- A template that is related already leaves the relations as they are. -/
theorem relations_enter {rel : Relations} {c p : String} {t : Trail} (ht : t.relations = rel)
    (h : p = "" ∨ rel.Has c p) : (t.enter d c (some p)).relations = rel := by
  rw [Trail.enter, relations_take]
  unfold Trail.relate
  split
  · exact ht
  · exact ht
  · next q hq heq =>
    rw [Option.some.injEq] at heq
    subst heq
    rcases h with rfl | hhas
    · exact absurd rfl hq
    · show t.relations.insert c p = rel
      rw [ht, Relations.insert_eq_self hhas]

section Whole

variable {W : World} {rel : Relations} (hname : ∀ n x, W.name n x → d.normalize (String.ofList n) = x)
  (htext : ∀ c text, W.text c (.ok text) → d.sources.get? c = some text)
  (hedge : ∀ c p, W.edge c p → p = "" ∨ rel.Has c p)

include hname htext hedge

/-- Segments whose templates are all there and all related are read at once, and the relations stay. -/
theorem readSegments_of_reads {chain : List String} {rest : List Segment}
    {r : Except Stencil.Fault String} (h : Reads W chain rest r) :
    ∀ (flat id before : String) (outer : List String) (t : Trail), r = .ok flat → chain = id :: outer →
      t.relations = rel → ∃ taken,
        readSegments d chain id before rest t = (.done (before ++ flat), ⟨rel, taken⟩) := by
  induction h with
  | nil =>
    rintro flat id before outer t hr - rfl
    cases hr
    exact ⟨t.taken, by rw [readSegments_nil, String.append_empty]⟩
  | @literal chain text rest r _ ih =>
    intro flat id before outer t hr hchain ht
    rcases r with e | flat'
    · exact nomatch hr
    · cases hr
      obtain ⟨taken, hread⟩ := ih flat' id (before ++ String.ofList text) outer t rfl hchain ht
      exact ⟨taken, by rw [readSegments_literal, hread, String.append_assoc]⟩
  | unnamed => exact fun _ _ _ _ _ hr => nomatch hr
  | circular => exact fun _ _ _ _ _ hr => nomatch hr
  | missing => exact fun _ _ _ _ _ hr => nomatch hr
  | broken => exact fun _ _ _ _ _ hr => nomatch hr
  | @filled owner outer' name rest child text inner r hn hmem he hsource _ _ ih₁ ih₂ =>
    intro flat id before outer t hr hchain ht
    cases hchain
    rcases r with e | flat'
    · exact nomatch hr
    · cases hr
      obtain ⟨taken₁, hread₁⟩ := ih₁ inner child "" (owner :: outer') (t.enter d child (some owner)) rfl
        rfl (relations_enter d ht (hedge _ _ he))
      obtain ⟨taken₂, hread₂⟩ := ih₂ flat' owner (before ++ inner) outer' ⟨rel, taken₁⟩ rfl rfl rfl
      refine ⟨taken₂, ?_⟩
      rw [readSegments_include d _ _ _ (hname _ _ hn), readTemplate_text d hmem (htext _ _ hsource), hread₁]
      simp only [String.empty_append]
      rw [hread₂, String.append_assoc]

/-- A template is read at once if it and all that is set into it are there and related. -/
theorem readTemplate_of_enters {id flat : String} (h : Enters W [] id (.ok flat)) {t : Trail}
    (ht : t.relations = rel) :
    ∃ taken, readTemplate d [] none id t = (.done flat, ⟨rel, taken⟩) := by
  rcases h with ⟨e, -, hr⟩ | ⟨text, hsource, hreads⟩
  · exact nomatch hr
  · have hrelations : (t.enter d id none).relations = rel := by
      rw [Trail.enter, relations_take]
      exact ht
    obtain ⟨taken, hread⟩ := readSegments_of_reads d hname htext hedge hreads flat id "" [] _ rfl rfl
      hrelations
    refine ⟨taken, ?_⟩
    rw [readTemplate_text d List.not_mem_nil (htext _ _ hsource), hread, String.empty_append]

end Whole

end Reading

end Stencil
