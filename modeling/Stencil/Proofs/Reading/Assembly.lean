import Mathlib.Logic.Relation
import Stencil.Proofs.Include
import Stencil.Session.Fault

/-!
# What a template is assembled to

A rule for every way in which a text goes on, with no word of caches and of stops. It says what the
segments of a template come to, given the identifiers that names are brought to, the texts of the
templates and the edges between them. These are relations: a template whose text changes while it is
read may be met with two texts, and then both count.

A template is read within the chain of the templates around it, the innermost first, and an include of
one of them is refused. The text of an include is its own assembly, set in its place; the first fault
from the left, in depth, is the fault of the whole.

* `Reads.mono`, `Reads.of_le`: an assembly stays one if more is known of the templates in it;
* `Reads.det`: if nothing is met in two ways there is one assembly only;
* `Reads.fault`: an assembly fails by a name, by a circle, or by a text that cannot be had.
-/

namespace Stencil

/-- What is known of the templates while they are read. -/
structure World where
  /-- What the name in an include is brought to. -/
  name : List Char → Except NameFault String → Prop
  /-- The text of a template, or why it cannot be had. -/
  text : String → Except Fault String → Prop
  /-- The first template is set into the second one. -/
  edge : String → String → Prop

/-- All that is known of the templates here is known there too. -/
structure World.Le (W W' : World) : Prop where
  name : ∀ n x, W.name n x → W'.name n x
  text : ∀ c x, W.text c x → W'.text c x
  edge : ∀ c p, W.edge c p → W'.edge c p

instance : LE World := ⟨World.Le⟩

/-- The segments in which a text is read: a template is cut at its includes, any other text is whole. -/
def segmentsOf (id text : String) : List Segment :=
  if Identifier.isTemplate id then segments text.toList else [.literal text.toList]

/-- A template of one character at which no include starts is nothing but text. -/
theorem segmentsOf_single {id text : String} {c : Char} (hid : Identifier.isTemplate id = true)
    (htext : text.toList = [c]) (hnone : include? [c] = none) : segmentsOf id text = [.literal [c]] := by
  rw [segmentsOf, if_pos hid, segments, htext, segmentsAfter_cons hnone, segmentsAfter_nil]
  rfl

/-- What some segments of a template come to; the chain starts with that template. -/
inductive Reads (W : World) : List String → List Segment → Except Fault String → Prop
  | nil {chain : List String} : Reads W chain [] (.ok "")
  | literal {chain : List String} {text : List Char} {rest : List Segment}
      {r : Except Fault String} :
      Reads W chain rest r →
      Reads W chain (.literal text :: rest) (r.map (String.ofList text ++ ·))
  | unnamed {chain : List String} {name : List Char} {rest : List Segment} {f : NameFault} :
      W.name name (.error f) → Reads W chain (.include name :: rest) (.error (.name f))
  | circular {chain : List String} {name : List Char} {rest : List Segment} {child : String} :
      W.name name (.ok child) → child ∈ chain →
      Reads W chain (.include name :: rest) (.error (.circular (Reading.circle chain child)))
  | missing {owner : String} {outer : List String} {name : List Char} {rest : List Segment}
      {child : String} {e : Fault} :
      W.name name (.ok child) → child ∉ owner :: outer → W.edge child owner →
      W.text child (.error e) → Reads W (owner :: outer) (.include name :: rest) (.error e)
  | broken {owner : String} {outer : List String} {name : List Char} {rest : List Segment}
      {child text : String} {e : Fault} :
      W.name name (.ok child) → child ∉ owner :: outer → W.edge child owner →
      W.text child (.ok text) → Reads W (child :: owner :: outer) (segmentsOf child text) (.error e) →
      Reads W (owner :: outer) (.include name :: rest) (.error e)
  | filled {owner : String} {outer : List String} {name : List Char} {rest : List Segment}
      {child text inner : String} {r : Except Fault String} :
      W.name name (.ok child) → child ∉ owner :: outer → W.edge child owner →
      W.text child (.ok text) → Reads W (child :: owner :: outer) (segmentsOf child text) (.ok inner) →
      Reads W (owner :: outer) rest r →
      Reads W (owner :: outer) (.include name :: rest) (r.map (inner ++ ·))

/-- What a template comes to inside a chain that it does not stand in. -/
def Enters (W : World) (chain : List String) (id : String) (r : Except Fault String) : Prop :=
  (∃ e, W.text id (.error e) ∧ r = .error e) ∨
    ∃ text, W.text id (.ok text) ∧ Reads W (id :: chain) (segmentsOf id text) r

/-- What a template comes to inside a chain. -/
def Gives (W : World) (chain : List String) (id : String) (r : Except Fault String) : Prop :=
  (id ∈ chain ∧ r = .error (.circular (Reading.circle chain id))) ∨ (id ∉ chain ∧ Enters W chain id r)

/-! ### A text set before what was come to -/

section

variable {r : Except Fault String} {a b flat : String} {e : Fault}

theorem map_map_append : (r.map (b ++ ·)).map (a ++ ·) = r.map (a ++ b ++ ·) := by
  cases r <;> simp [Except.map, String.append_assoc]

theorem eq_error_of_map (h : r.map (a ++ ·) = .error e) : r = .error e := by
  rcases r with e' | text
  · exact h
  · exact nomatch h

theorem eq_ok_of_map (h : r.map (a ++ ·) = .ok flat) : ∃ text, r = .ok text ∧ a ++ text = flat := by
  rcases r with e | text
  · exact nomatch h
  · exact ⟨text, rfl, Except.ok.inj h⟩

end

namespace Reads

variable {W W' : World} {chain outer : List String} {rest : List Segment}

/-- An assembly stays one if more is known of the templates in it: those of a collection that holds the
template itself and, with a template, all that is set into it. -/
theorem mono (In : String → Prop) (hin : ∀ n c p, In p → W.name n (.ok c) → W.edge c p → In c)
    (hname : ∀ n x, W.name n x → W'.name n x) (htext : ∀ c x, In c → W.text c x → W'.text c x)
    (hedge : ∀ c p, In c → In p → W.edge c p → W'.edge c p) {r : Except Fault String}
    (h : Reads W chain rest r) (hchain : ∀ p, chain.head? = some p → In p) :
    Reads W' chain rest r := by
  induction h with
  | nil => exact .nil
  | literal _ ih => exact .literal (ih hchain)
  | unnamed hn => exact .unnamed (hname _ _ hn)
  | circular hn hmem => exact .circular (hname _ _ hn) hmem
  | missing hn hmem he ht =>
    have hp := hchain _ rfl
    have hc := hin _ _ _ hp hn he
    exact .missing (hname _ _ hn) hmem (hedge _ _ hc hp he) (htext _ _ hc ht)
  | broken hn hmem he ht _ ih =>
    have hp := hchain _ rfl
    have hc := hin _ _ _ hp hn he
    refine .broken (hname _ _ hn) hmem (hedge _ _ hc hp he) (htext _ _ hc ht) (ih ?_)
    rintro p ⟨⟩
    exact hc
  | filled hn hmem he ht _ _ ih₁ ih₂ =>
    have hp := hchain _ rfl
    have hc := hin _ _ _ hp hn he
    refine .filled (hname _ _ hn) hmem (hedge _ _ hc hp he) (htext _ _ hc ht) (ih₁ ?_) (ih₂ hchain)
    rintro p ⟨⟩
    exact hc

/-- An assembly stays one if more is known. -/
theorem of_le (hle : W ≤ W') {r : Except Fault String} (h : Reads W chain rest r) :
    Reads W' chain rest r :=
  h.mono (fun _ => True) (fun _ _ _ _ _ _ => trivial) hle.name (fun c x _ => hle.text c x)
    (fun c p _ _ => hle.edge c p) (fun _ _ => trivial)

/-- What comes before some segments is set before what they come to. -/
theorem append {before : List Segment} {a : String} {r : Except Fault String}
    (h : Reads W chain before (.ok a)) (hrest : Reads W chain rest r) :
    Reads W chain (before ++ rest) (r.map (a ++ ·)) := by
  generalize hb : (Except.ok a : Except Fault String) = b at h
  induction h generalizing a with
  | nil =>
    rw [Except.ok.injEq] at hb
    subst hb
    have hr : r.map (("" : String) ++ ·) = r := by cases r <;> simp [Except.map]
    rwa [hr, List.nil_append]
  | literal _ ih =>
    obtain ⟨a', rfl, rfl⟩ := eq_ok_of_map hb.symm
    rw [← map_map_append]
    exact literal (ih hrest rfl)
  -- what has come to a text has not failed
  | unnamed => simp at hb
  | circular => simp at hb
  | missing => simp at hb
  | broken => simp at hb
  | filled hn hmem he ht h₁ _ _ ih₂ =>
    obtain ⟨a', rfl, rfl⟩ := eq_ok_of_map hb.symm
    rw [← map_map_append]
    exact filled hn hmem he ht h₁ (ih₂ hrest rfl)

/-- One more segment after some that have come to a text. -/
theorem snoc {before : List Segment} {part : Segment} {a : String} {r : Except Fault String}
    (h : Reads W chain before (.ok a)) (hpart : Reads W chain [part] r) :
    Reads W chain (before ++ [part]) (r.map (a ++ ·)) :=
  append h hpart

/-- If nothing is met in two ways, segments come to one result only. -/
theorem det (hname : ∀ n x y, W.name n x → W.name n y → x = y)
    (htext : ∀ c x y, W.text c x → W.text c y → x = y) {r r' : Except Fault String}
    (h : Reads W chain rest r) (h' : Reads W chain rest r') : r = r' := by
  have hok : ∀ {n c c'}, W.name n (.ok c) → W.name n (.ok c') → c = c' := fun h₁ h₂ => by
    simpa using hname _ _ _ h₁ h₂
  have hne : ∀ {n c f}, W.name n (.ok c) → W.name n (.error f) → False := fun h₁ h₂ => by
    simpa using hname _ _ _ h₁ h₂
  induction h generalizing r' with
  | nil =>
    cases h'
    rfl
  | literal _ ih =>
    cases h' with
    | literal h' => rw [ih h']
  -- an include in both: the name is brought to the same template, and what is met there is the same
  | unnamed hn =>
    cases h' with
    | unnamed hn' => simpa using hname _ _ _ hn hn'
    | circular hn' _ => exact (hne hn' hn).elim
    | missing hn' _ _ _ => exact (hne hn' hn).elim
    | broken hn' _ _ _ _ => exact (hne hn' hn).elim
    | filled hn' _ _ _ _ _ => exact (hne hn' hn).elim
  | circular hn hmem =>
    cases h' with
    | unnamed hn' => exact (hne hn hn').elim
    | circular hn' _ => rw [hok hn hn']
    | missing hn' hmem' _ _ => exact absurd (hok hn hn' ▸ hmem) hmem'
    | broken hn' hmem' _ _ _ => exact absurd (hok hn hn' ▸ hmem) hmem'
    | filled hn' hmem' _ _ _ _ => exact absurd (hok hn hn' ▸ hmem) hmem'
  | missing hn hmem _ ht =>
    cases h' with
    | unnamed hn' => exact (hne hn hn').elim
    | circular hn' hmem' => exact absurd (hok hn hn' ▸ hmem') hmem
    | missing hn' _ _ ht' =>
      obtain rfl := hok hn hn'
      simpa using htext _ _ _ ht ht'
    | broken hn' _ _ ht' _ =>
      obtain rfl := hok hn hn'
      simpa using htext _ _ _ ht ht'
    | filled hn' _ _ ht' _ _ =>
      obtain rfl := hok hn hn'
      simpa using htext _ _ _ ht ht'
  | broken hn hmem _ ht _ ih =>
    cases h' with
    | unnamed hn' => exact (hne hn hn').elim
    | circular hn' hmem' => exact absurd (hok hn hn' ▸ hmem') hmem
    | missing hn' _ _ ht' =>
      obtain rfl := hok hn hn'
      simpa using htext _ _ _ ht ht'
    | broken hn' _ _ ht' h' =>
      obtain rfl := hok hn hn'
      obtain rfl : _ = _ := by simpa using htext _ _ _ ht ht'
      exact ih h'
    | filled hn' _ _ ht' h' _ =>
      obtain rfl := hok hn hn'
      obtain rfl : _ = _ := by simpa using htext _ _ _ ht ht'
      simpa using ih h'
  | filled hn hmem _ ht _ _ ih₁ ih₂ =>
    cases h' with
    | unnamed hn' => exact (hne hn hn').elim
    | circular hn' hmem' => exact absurd (hok hn hn' ▸ hmem') hmem
    | missing hn' _ _ ht' =>
      obtain rfl := hok hn hn'
      simpa using htext _ _ _ ht ht'
    | broken hn' _ _ ht' h' =>
      obtain rfl := hok hn hn'
      obtain rfl : _ = _ := by simpa using htext _ _ _ ht ht'
      simpa using ih₁ h'
    | filled hn' _ _ ht' h' h'' =>
      obtain rfl := hok hn hn'
      obtain rfl : _ = _ := by simpa using htext _ _ _ ht ht'
      obtain rfl : _ = _ := by simpa using ih₁ h'
      rw [ih₂ h'']

/-- Segments fail by a name, by a circle, or by a text that cannot be had. -/
theorem fault {r : Except Fault String} {e : Fault} (h : Reads W chain rest r) (hr : r = .error e) :
    (∃ f, e = .name f) ∨ (∃ circle, e = .circular circle) ∨ ∃ c, W.text c (.error e) := by
  induction h with
  | nil => exact nomatch hr
  | literal _ ih => exact ih (eq_error_of_map hr)
  | @unnamed _ _ _ f _ =>
    cases hr
    exact Or.inl ⟨f, rfl⟩
  | circular =>
    cases hr
    exact Or.inr (Or.inl ⟨_, rfl⟩)
  | @missing _ _ _ _ c _ _ _ _ ht =>
    cases hr
    exact Or.inr (Or.inr ⟨c, ht⟩)
  | broken _ _ _ _ _ ih => exact ih hr
  | filled _ _ _ _ _ _ _ ih => exact ih (eq_error_of_map hr)

end Reads

/-- Inside of no other template a template is never refused. -/
theorem Gives.enters {W : World} {id : String} {r : Except Fault String} (h : Gives W [] id r) :
    Enters W [] id r := by
  rcases h with ⟨hmem, -⟩ | ⟨-, henters⟩
  · exact absurd hmem List.not_mem_nil
  · exact henters

/-- If nothing is met in two ways, a template comes to one result only. -/
theorem Gives.det {W : World} {chain : List String} {id : String} {r r' : Except Fault String}
    (h : Gives W chain id r) (hname : ∀ n x y, W.name n x → W.name n y → x = y)
    (htext : ∀ c x y, W.text c x → W.text c y → x = y) (h' : Gives W chain id r') : r = r' := by
  rcases h with ⟨hmem, rfl⟩ | ⟨hmem, h⟩ <;> rcases h' with ⟨hmem', rfl⟩ | ⟨hmem', h'⟩
  · rfl
  · exact absurd hmem hmem'
  · exact absurd hmem' hmem
  · rcases h with ⟨e, ht, rfl⟩ | ⟨text, ht, h⟩ <;> rcases h' with ⟨e', ht', rfl⟩ | ⟨text', ht', h'⟩
    · exact htext _ _ _ ht ht'
    · exact nomatch htext _ _ _ ht ht'
    · exact nomatch htext _ _ _ ht ht'
    · obtain rfl : text = text' := Except.ok.inj (htext _ _ _ ht ht')
      exact h.det hname htext h'

/-- A template fails by a name, by a circle, or by a text that cannot be had. -/
theorem Gives.fault {W : World} {chain : List String} {id : String} {e : Fault}
    (h : Gives W chain id (.error e)) :
    (∃ f, e = .name f) ∨ (∃ circle, e = .circular circle) ∨ ∃ c, W.text c (.error e) := by
  rcases h with ⟨-, hr⟩ | ⟨-, ⟨e', ht, hr⟩ | ⟨text, -, h⟩⟩
  · cases hr
    exact Or.inr (Or.inl ⟨_, rfl⟩)
  · cases hr
    exact Or.inr (Or.inr ⟨id, ht⟩)
  · exact h.fault rfl

/-- What a template comes to stays so if more is known of the templates in it. -/
theorem Enters.mono {W W' : World} {chain : List String} {id : String} {r : Except Fault String}
    (h : Enters W chain id r) (In : String → Prop)
    (hin : ∀ n c p, In p → W.name n (.ok c) → W.edge c p → In c)
    (hname : ∀ n x, W.name n x → W'.name n x) (htext : ∀ c x, In c → W.text c x → W'.text c x)
    (hedge : ∀ c p, In c → In p → W.edge c p → W'.edge c p) (hid : In id) : Enters W' chain id r := by
  rcases h with ⟨e, ht, hr⟩ | ⟨text, ht, hreads⟩
  · exact Or.inl ⟨e, htext _ _ hid ht, hr⟩
  · refine Or.inr ⟨text, htext _ _ hid ht, hreads.mono In hin hname htext hedge ?_⟩
    rintro p ⟨⟩
    exact hid

/-- What a template comes to stays so if more is known. -/
theorem Enters.of_le {W W' : World} (hle : W ≤ W') {chain : List String} {id : String}
    {r : Except Fault String} (h : Enters W chain id r) : Enters W' chain id r := by
  rcases h with ⟨e, ht, hr⟩ | ⟨text, ht, hreads⟩
  · exact Or.inl ⟨e, hle.text _ _ ht, hr⟩
  · exact Or.inr ⟨text, hle.text _ _ ht, hreads.of_le hle⟩

theorem Gives.of_le {W W' : World} (hle : W ≤ W') {chain : List String} {id : String}
    {r : Except Fault String} (h : Gives W chain id r) : Gives W' chain id r :=
  h.imp_right fun ⟨hmem, henters⟩ => ⟨hmem, henters.of_le hle⟩

end Stencil
