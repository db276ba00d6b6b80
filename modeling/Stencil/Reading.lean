import Stencil.Cache
import Stencil.Identifier
import Stencil.Include
import Stencil.Shrink
import Stencil.Text.Utf8

/-!
# Reading templates

A template is read with its includes set in. Texts come from the cache; where one is not there, the
reading stops and waits for it, and it goes on when the text has come. What it waits for is a template
and the templates around it, each with the text before the include and the segments after it. Along
the way the reading records every include as a relation, and the version of every template when it is
first met.

A template cannot be set into itself: one that is already being read around an include is refused.
So with every template that a reading goes into, there is one cached text less that it could go into,
and readings end.
-/

namespace Stencil

/-- What a reading leaves behind: the relations, and the versions of the templates that were met. -/
structure Trail where
  relations : Relations
  taken : Snapshot

namespace Trail

/-- The trail after an include of a template. -/
def relate (t : Trail) (child : String) (parent : Option String) : Trail :=
  match parent with
  | none | some "" => t
  | some parent => { t with relations := t.relations.insert child parent }

/-- The trail after a template is met; the version of the first time counts. -/
def take (t : Trail) (id : String) (v : Version) : Trail :=
  match t.taken.lookup id with
  | some _ => t
  | none => { t with taken := t.taken ++ [(id, v)] }

end Trail

namespace Reading

/-- Why a template cannot be read. -/
inductive Fault where
  /-- The last template includes the first one. -/
  | circular (chain : List String)
  /-- An include names no template. -/
  | name (f : NameFault)

/-- A template around an include: the text before the include, and the segments after it. -/
structure Frame where
  id : String
  before : String
  rest : List Segment

/-- A template whose text is not there: its version when it was asked for, and the templates around
it, the innermost first. -/
structure Wait where
  id : String
  version : Version
  frames : List Frame

/-- How far a reading comes. -/
inductive Outcome where
  | done (text : String)
  | failed (f : Fault)
  | waits (w : Wait)

/-- What a reading works with: how names become identifiers, the texts that are there, and the
versions of templates. -/
structure Desk where
  normalize : String → Except NameFault String
  sources : Store String
  version : String → Version

/-- How many of the texts that are there belong to templates not in the chain. -/
def untouched (sources : Store String) (chain : List String) : Nat :=
  (sources.ids.filter fun id => !chain.contains id).length

theorem mem_ids_of_get? {s : Store String} {id text : String} (h : s.get? id = some text) :
    id ∈ s.ids := by
  obtain ⟨entries⟩ := s
  simp only [Store.get?, Store.ids] at *
  induction entries with
  | nil => simp at h
  | cons e rest ih =>
    obtain ⟨k, v⟩ := e
    by_cases hk : id = k
    · simp [hk]
    · have hb : (id == k) = false := by simp [hk]
      rw [List.lookup_cons, hb] at h
      exact List.mem_cons_of_mem _ (ih h)

theorem untouched_cons_lt {s : Store String} {chain : List String} {id text : String}
    (h : s.get? id = some text) (hc : ¬ chain.contains id) :
    untouched s (id :: chain) < untouched s chain :=
  Files.length_filter_cons_lt (mem_ids_of_get? h) hc

/-- The chain of a circle that closes at a template; `chain` has the innermost template first. -/
def circle (chain : List String) (id : String) : List String :=
  chain.reverse.dropWhile (· != id) ++ [id]

mutual

/-- Reads a template that stands inside the templates of the chain, the innermost first. -/
def readTemplate (d : Desk) (chain : List String) (parent : Option String) (id : String) (t : Trail) :
    Outcome × Trail :=
  if _hc : chain.contains id then (.failed (.circular (circle chain id)), t)
  else
    let t := (t.relate id parent).take id (d.version id)
    match _h : d.sources.get? id with
    | none => (.waits ⟨id, d.version id, []⟩, t)
    | some text =>
      if Identifier.isTemplate id then readSegments d (id :: chain) id "" (segments text.toList) t
      else (.done text, t)
termination_by (untouched d.sources chain, 0)
decreasing_by
  exact Prod.Lex.left _ _ (untouched_cons_lt _h _hc)

/-- Reads the segments that are left of a template, the head of the chain, after some text. -/
def readSegments (d : Desk) (chain : List String) (id before : String) (rest : List Segment)
    (t : Trail) : Outcome × Trail :=
  match rest with
  | [] => (.done before, t)
  | .literal text :: rest => readSegments d chain id (before ++ String.ofList text) rest t
  | .include name :: rest =>
    match d.normalize (String.ofList name) with
    | .error f => (.failed (.name f), t)
    | .ok child =>
      match readTemplate d chain (some id) child t with
      | (.done text, t) => readSegments d chain id (before ++ text) rest t
      | (.failed f, t) => (.failed f, t)
      | (.waits w, t) => (.waits { w with frames := w.frames ++ [⟨id, before, rest⟩] }, t)
termination_by (untouched d.sources chain, rest.length + 1)
decreasing_by
  all_goals
    apply Prod.Lex.right
    simp only [List.length_cons]
    omega

end

/-- The templates around an include, the innermost first. -/
def chainOf (frames : List Frame) : List String := frames.map Frame.id

/-- Goes on with the templates around an include after the reading inside it. -/
def climb (d : Desk) : List Frame → Outcome × Trail → Outcome × Trail
  | [], inner => inner
  | f :: rest, (.done text, t) =>
    climb d rest (readSegments d (f.id :: chainOf rest) f.id (f.before ++ text) f.rest t)
  | _ :: _, (.failed f, t) => (.failed f, t)
  | frames, (.waits w, t) => (.waits { w with frames := w.frames ++ frames }, t)

/-- Goes on with a reading after the text that it waits for has come. -/
def resume (d : Desk) (w : Wait) (text : String) (t : Trail) : Outcome × Trail :=
  let inner :=
    if Identifier.isTemplate w.id then
      readSegments d (w.id :: chainOf w.frames) w.id "" (segments text.toList) t
    else (.done text, t)
  climb d w.frames inner

/-- Why what a file holds is not taken as the text of a template. -/
inductive LoadFault where
  | notText (f : Text.Utf8Fault)
  | shrink (f : ShrinkFault)
  deriving Repr, DecidableEq

/-- What a file holds as the text of a template; a stylesheet is shrunk. -/
def ofBytes (shrinker : Shrinker) (id : String) (bytes : List UInt8) : Except LoadFault String :=
  match Text.decode bytes with
  | .error f => .error (.notText f)
  | .ok text => if Identifier.isStylesheet id then (shrinker text).mapError .shrink else .ok text

end Reading

end Stencil
