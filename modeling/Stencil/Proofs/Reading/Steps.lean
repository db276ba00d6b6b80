import Stencil.Proofs.Cache.Dependents
import Stencil.Proofs.Reading.Assembly

/-!
# A reading, case by case

The equations of a reading, one for each way in which it goes on, and an induction along them: a
property of the results of readings is shown for each way once. A text that is no template is read like
a template of one literal segment, so it needs no case of its own.

The first use of it says what a reading does to its trail (`leaves`): the relations and the versions
that were there stay, the versions that are added are those of the moment, and a text that is waited
for is not there and has been met.
-/

namespace Stencil

/-- The trail after a template is met as the include of another. -/
def Trail.enter (d : Reading.Desk) (t : Trail) (id : String) (parent : Option String) : Trail :=
  (t.relate id parent).take id (d.version id)

namespace Reading

variable (d : Desk)

/-! ### The equations -/

theorem readTemplate_circular {chain : List String} {id : String} (h : id ∈ chain)
    (parent : Option String) (t : Trail) :
    readTemplate d chain parent id t = (.failed (.circular (circle chain id)), t) := by
  rw [readTemplate, dif_pos (by simpa using h)]

theorem readTemplate_waits {chain : List String} {id : String} (h : id ∉ chain)
    (hs : d.sources.get? id = none) (parent : Option String) (t : Trail) :
    readTemplate d chain parent id t =
      (.waits ⟨id, d.version id, []⟩, t.enter d id parent) := by
  rw [readTemplate, dif_neg (by simpa using h)]
  split
  · rfl
  · next text ht => rw [hs] at ht; simp at ht

theorem readSegments_nil (chain : List String) (id before : String) (t : Trail) :
    readSegments d chain id before [] t = (.done before, t) := by
  rw [readSegments]

theorem readSegments_literal (chain : List String) (id before : String) (text : List Char)
    (rest : List Segment) (t : Trail) :
    readSegments d chain id before (.literal text :: rest) t =
      readSegments d chain id (before ++ String.ofList text) rest t := by
  rw [readSegments]

theorem readTemplate_text {chain : List String} {id text : String} (h : id ∉ chain)
    (hs : d.sources.get? id = some text) (parent : Option String) (t : Trail) :
    readTemplate d chain parent id t =
      readSegments d (id :: chain) id "" (segmentsOf id text) (t.enter d id parent) := by
  rw [readTemplate, dif_neg (by simpa using h)]
  split
  · next hn => rw [hs] at hn; simp at hn
  · next text' ht =>
    obtain rfl : text = text' := by rw [hs] at ht; simpa using ht
    rw [segmentsOf]
    split
    · rfl
    · rw [readSegments_literal, readSegments_nil]
      simp [Trail.enter]

theorem readSegments_unnamed (chain : List String) (id before : String) {name : List Char}
    {f : NameFault} (h : d.normalize (String.ofList name) = .error f) (rest : List Segment)
    (t : Trail) :
    readSegments d chain id before (.include name :: rest) t = (.failed (.name f), t) := by
  rw [readSegments, h]

/-- An include of a template is read, and then what follows it. -/
theorem readSegments_include (chain : List String) (id before : String) {name : List Char}
    {child : String} (h : d.normalize (String.ofList name) = .ok child) (rest : List Segment)
    (t : Trail) :
    readSegments d chain id before (.include name :: rest) t =
      match readTemplate d chain (some id) child t with
      | (.done text, t) => readSegments d chain id (before ++ text) rest t
      | (.failed f, t) => (.failed f, t)
      | (.waits w, t) => (.waits { w with frames := w.frames ++ [⟨id, before, rest⟩] }, t) := by
  rw [readSegments]
  generalize d.normalize (String.ofList name) = x at h
  subst h
  rfl

theorem climb_waits (frames : List Frame) (w : Wait) (t : Trail) :
    climb d frames (.waits w, t) = (.waits { w with frames := w.frames ++ frames }, t) := by
  cases frames with
  | nil => rw [climb, List.append_nil]
  | cons f rest =>
    rw [climb]
    simp

theorem resume_eq (w : Wait) (text : String) (t : Trail) :
    resume d w text t = climb d w.frames
      (readSegments d (w.id :: chainOf w.frames) w.id "" (segmentsOf w.id text) t) := by
  rw [resume, segmentsOf]
  split
  · rfl
  · rw [readSegments_literal, readSegments_nil]
    simp

/-! ### The induction -/

/-- Induction along a reading: a property `P` of the results of templates and a property `Q` of the
results of segments hold of all if they are kept in each way in which a reading goes on. -/
theorem read_induct {P : List String → Option String → String → Trail → Outcome × Trail → Prop}
    {Q : List String → String → String → List Segment → Trail → Outcome × Trail → Prop}
    (circular : ∀ chain parent id t, id ∈ chain →
      P chain parent id t (.failed (.circular (circle chain id)), t))
    (waits : ∀ chain parent id t, id ∉ chain → d.sources.get? id = none →
      P chain parent id t (.waits ⟨id, d.version id, []⟩, t.enter d id parent))
    (text : ∀ chain parent id t text, id ∉ chain → d.sources.get? id = some text →
      let r := readSegments d (id :: chain) id "" (segmentsOf id text) (t.enter d id parent)
      Q (id :: chain) id "" (segmentsOf id text) (t.enter d id parent) r → P chain parent id t r)
    (nil : ∀ chain id before t, Q chain id before [] t (.done before, t))
    (literal : ∀ chain id before cs rest t r,
      Q chain id (before ++ String.ofList cs) rest t r → Q chain id before (.literal cs :: rest) t r)
    (unnamed : ∀ chain id before name rest t f, d.normalize (String.ofList name) = .error f →
      Q chain id before (.include name :: rest) t (.failed (.name f), t))
    (filled : ∀ chain id before name rest t child inner t',
      d.normalize (String.ofList name) = .ok child →
      P chain (some id) child t (.done inner, t') →
      let r := readSegments d chain id (before ++ inner) rest t'
      Q chain id (before ++ inner) rest t' r → Q chain id before (.include name :: rest) t r)
    (failed : ∀ chain id before name rest t child f t',
      d.normalize (String.ofList name) = .ok child → P chain (some id) child t (.failed f, t') →
      Q chain id before (.include name :: rest) t (.failed f, t'))
    (stops : ∀ chain id before name rest t child w t',
      d.normalize (String.ofList name) = .ok child → P chain (some id) child t (.waits w, t') →
      Q chain id before (.include name :: rest) t
        (.waits { w with frames := w.frames ++ [⟨id, before, rest⟩] }, t')) :
    (∀ chain parent id t, P chain parent id t (readTemplate d chain parent id t)) ∧
      ∀ chain id before rest t, Q chain id before rest t (readSegments d chain id before rest t) := by
  refine readTemplate.mutual_induct d
    (fun chain parent id t => P chain parent id t (readTemplate d chain parent id t))
    (fun chain id before rest t => Q chain id before rest t (readSegments d chain id before rest t))
    ?_ ?_ ?_ ?_ ?_ ?_ ?_ ?_ ?_ ?_
  · intro chain parent id t h
    have hmem : id ∈ chain := by simpa using h
    rw [readTemplate_circular d hmem]
    exact circular chain parent id t hmem
  · intro chain parent id t h hs
    have hmem : id ∉ chain := by simpa using h
    rw [readTemplate_waits d hmem hs]
    exact waits chain parent id t hmem hs
  · intro chain parent id t h t₁ txt hs htemplate ih
    have hmem : id ∉ chain := by simpa using h
    rw [readTemplate_text d hmem hs]
    refine text chain parent id t txt hmem hs ?_
    rw [segmentsOf, if_pos htemplate]
    exact ih
  · intro chain parent id t h txt hs htemplate
    have hmem : id ∉ chain := by simpa using h
    rw [readTemplate_text d hmem hs]
    refine text chain parent id t txt hmem hs ?_
    -- a text that is no template is one literal segment
    rw [segmentsOf, if_neg htemplate, readSegments_literal, readSegments_nil]
    exact literal _ _ _ _ _ _ _ (nil _ _ _ _)
  · intro chain id before t
    rw [readSegments_nil]
    exact nil chain id before t
  · intro chain id before t cs rest ih
    rw [readSegments_literal]
    exact literal _ _ _ _ _ _ _ ih
  · intro chain id before t name rest f h
    rw [readSegments_unnamed d _ _ _ h]
    exact unnamed _ _ _ _ _ _ _ h
  · intro chain id before t name rest child h inner t' hr ih₁ ih₂
    rw [readSegments_include d _ _ _ h, hr]
    rw [hr] at ih₁
    exact filled _ _ _ _ _ _ _ _ _ h ih₁ ih₂
  · intro chain id before t name rest child h f t' hr ih
    rw [readSegments_include d _ _ _ h, hr]
    rw [hr] at ih
    exact failed _ _ _ _ _ _ _ _ _ h ih
  · intro chain id before t name rest child h w t' hr ih
    rw [readSegments_include d _ _ _ h, hr]
    rw [hr] at ih
    exact stops _ _ _ _ _ _ _ _ _ h ih

/-! ### The trail -/

/-- A trail goes on from another with versions of this moment. -/
structure Follows (t t' : Trail) : Prop where
  has : ∀ c p, t.relations.Has c p → t'.relations.Has c p
  keeps : ∀ id v, t.taken.lookup id = some v → t'.taken.lookup id = some v
  takes : ∀ id v, t'.taken.lookup id = some v → t.taken.lookup id = some v ∨ v = d.version id
  adds : ∀ p ∈ t'.taken, p ∈ t.taken ∨ p.2 = d.version p.1

namespace Follows

variable {d}

theorem refl (t : Trail) : Follows d t t :=
  ⟨fun _ _ h => h, fun _ _ h => h, fun _ _ h => Or.inl h, fun _ h => Or.inl h⟩

theorem trans {t t' t'' : Trail} (h : Follows d t t') (h' : Follows d t' t'') : Follows d t t'' := by
  refine ⟨fun c p hc => h'.has c p (h.has c p hc), fun id v hv => h'.keeps id v (h.keeps id v hv),
    ?_, ?_⟩
  · intro id v hv
    rcases h'.takes id v hv with hv | rfl
    · exact h.takes id v hv
    · exact Or.inr rfl
  · intro p hp
    rcases h'.adds p hp with hp | hp
    · exact h.adds p hp
    · exact Or.inr hp

theorem isSome {t t' : Trail} (h : Follows d t t') {id : String}
    (hs : (t.taken.lookup id).isSome) : (t'.taken.lookup id).isSome := by
  obtain ⟨v, hv⟩ := Option.isSome_iff_exists.1 hs
  exact Option.isSome_iff_exists.2 ⟨v, h.keeps id v hv⟩

end Follows

theorem taken_relate (t : Trail) (child : String) (parent : Option String) :
    (t.relate child parent).taken = t.taken := by
  unfold Trail.relate
  split <;> rfl

theorem relations_take (t : Trail) (id : String) (v : Version) :
    (t.take id v).relations = t.relations := by
  rw [Trail.take]
  split <;> rfl

theorem has_relate (t : Trail) (child : String) (parent : Option String) (c p : String) :
    (t.relate child parent).relations.Has c p ↔
      t.relations.Has c p ∨ (parent = some p ∧ p ≠ "" ∧ c = child) := by
  unfold Trail.relate
  split
  · simp
  · constructor
    · exact Or.inl
    · rintro (h | ⟨h, hne, -⟩)
      · exact h
      · exact absurd (Option.some.inj h).symm hne
  · next q hq =>
    have hq' : q ≠ "" := fun he => hq (by rw [he])
    rw [Relations.has_insert]
    constructor
    · rintro (h | ⟨rfl, rfl⟩)
      · exact Or.inl h
      · exact Or.inr ⟨rfl, hq', rfl⟩
    · rintro (h | ⟨h, -, rfl⟩)
      · exact Or.inl h
      · exact Or.inr ⟨rfl, (Option.some.inj h).symm⟩

theorem lookup_take (t : Trail) (id : String) (v : Version) (k : String) :
    (t.take id v).taken.lookup k =
      if k = id ∧ t.taken.lookup id = none then some v else t.taken.lookup k := by
  rw [Trail.take]
  split
  · next w hw => simp [hw]
  · next hn =>
    rw [List.lookup_append]
    by_cases hk : k = id
    · simp [hk, hn]
    · have hb : (k == id) = false := by simp [hk]
      simp [hk, List.lookup_cons, hb]

theorem follows_enter (t : Trail) (id : String) (parent : Option String) :
    Follows d t (t.enter d id parent) := by
  refine ⟨?_, ?_, ?_, ?_⟩
  · intro c p h
    rw [Trail.enter, relations_take, has_relate]
    exact Or.inl h
  · intro k v h
    rw [Trail.enter, lookup_take, taken_relate, if_neg]
    · exact h
    · rintro ⟨rfl, hn⟩
      rw [hn] at h
      simp at h
  · intro k v h
    rw [Trail.enter, lookup_take, taken_relate] at h
    split at h
    · next hk =>
      rw [Option.some.injEq] at h
      exact Or.inr (by rw [hk.1, ← h])
    · exact Or.inl h
  · intro p hp
    rw [Trail.enter, Trail.take] at hp
    split at hp
    · rw [taken_relate] at hp
      exact Or.inl hp
    · rw [taken_relate, List.mem_append, List.mem_singleton] at hp
      rcases hp with hp | rfl
      · exact Or.inl hp
      · exact Or.inr rfl

/-- A template that is entered has been met. -/
theorem isSome_enter (t : Trail) (id : String) (parent : Option String) :
    ((t.enter d id parent).taken.lookup id).isSome := by
  rw [Trail.enter, lookup_take, taken_relate]
  split
  · rfl
  · next h =>
    rw [not_and] at h
    exact Option.isSome_iff_ne_none.2 (h rfl)

/-- A template that is entered from another is related to it, unless that one has no name. -/
theorem has_enter (t : Trail) (id parent : String) :
    parent = "" ∨ (t.enter d id (some parent)).relations.Has id parent := by
  by_cases h : parent = ""
  · exact Or.inl h
  · rw [Trail.enter, relations_take, has_relate]
    exact Or.inr (Or.inr ⟨rfl, h, rfl⟩)

/-- What holds of every result of a reading: its trail, and what it waits for. -/
structure Leaves (t : Trail) (r : Outcome × Trail) : Prop where
  follows : Follows d t r.2
  waits : ∀ w, r.1 = .waits w →
    d.sources.get? w.id = none ∧ w.version = d.version w.id ∧ (r.2.taken.lookup w.id).isSome

theorem leaves : (∀ chain parent id t, Leaves d t (readTemplate d chain parent id t)) ∧
    ∀ chain id before rest t, Leaves d t (readSegments d chain id before rest t) := by
  refine read_induct d ?_ ?_ ?_ ?_ ?_ ?_ ?_ ?_ ?_
  · intro chain parent id t _
    exact ⟨.refl t, fun w hw => by simp at hw⟩
  · intro chain parent id t _ hs
    refine ⟨follows_enter d t id parent, ?_⟩
    rintro w ⟨⟩
    exact ⟨hs, rfl, isSome_enter d t id parent⟩
  · intro chain parent id t text _ _ r h
    exact ⟨(follows_enter d t id parent).trans h.follows, h.waits⟩
  · intro chain id before t
    exact ⟨.refl t, fun w hw => by simp at hw⟩
  · intro chain id before cs rest t r h
    exact h
  · intro chain id before name rest t f _
    exact ⟨.refl t, fun w hw => by simp at hw⟩
  · intro chain id before name rest t child inner t' _ h₁ r h₂
    exact ⟨h₁.follows.trans h₂.follows, h₂.waits⟩
  · intro chain id before name rest t child f t' _ h
    exact ⟨h.follows, fun w hw => by simp at hw⟩
  · intro chain id before name rest t child w t' _ h
    refine ⟨h.follows, ?_⟩
    rintro w' ⟨⟩
    exact h.waits w rfl

/-- Going on with the templates around an include leaves a trail in the same way. -/
theorem leaves_climb (frames : List Frame) {t : Trail} {r : Outcome × Trail} (h : Leaves d t r) :
    Leaves d t (climb d frames r) := by
  induction frames generalizing r with
  | nil =>
    rw [climb]
    exact h
  | cons f rest ih =>
    obtain ⟨o, t'⟩ := r
    cases o with
    | done text =>
      have hs := (leaves d).2 (f.id :: chainOf rest) f.id (f.before ++ text) f.rest t'
      rw [climb]
      exact ih ⟨h.follows.trans hs.follows, hs.waits⟩
    | failed e =>
      rw [climb]
      exact h
    | waits w =>
      rw [climb_waits]
      refine ⟨h.follows, ?_⟩
      rintro w' ⟨⟩
      exact h.waits w rfl

theorem leaves_resume (w : Wait) (text : String) (t : Trail) : Leaves d t (resume d w text t) := by
  rw [resume_eq]
  exact leaves_climb d w.frames ((leaves d).2 _ _ _ _ _)

end Reading

end Stencil
