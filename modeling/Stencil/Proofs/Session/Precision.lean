import Stencil.Proofs.Files.Walk
import Stencil.Proofs.Identifier.Canonical
import Stencil.Proofs.Session.Relating

/-!
# What an invalidation drops

The relations of a session are those of includes that it has met. When a template is invalidated its own parents
are forgotten, but it stays a parent of what it included, also if it is changed and includes that no more. So a
relation tells of an include in some text that a template has had since its include was last forgotten
(`Session.rememberedAfter`), not in the one that it has now.

An invalidation goes along these relations. A compiled template that it drops is the invalidated one, or it
embeds that one through includes in the cached texts, which are those that it was compiled from, or it is, or
embeds, a template that has lost an include on the way there (`dropped_includes`). While no include is lost the
invalidation is precise; `Lost` is a run in which one is, and a template is dropped without need.
-/

namespace Stencil

open Relation

namespace Session

variable {s s' : Session} {before : String → String → Prop} {c p X : String}

/-! ### Includes that are remembered -/

/-- An action makes the session forget which templates include a template. -/
def Forgets (s : Session) (a : Action) (c : String) : Prop :=
  match a with
  | .invalidate name => s.normalize name = .ok c
  | .invalidateAll => (s.cache.sources.get? c).isSome
  | .clear => True
  | .compile _ | .render _ _ | .precompile _ | .change _ => False

/-- The includes that are remembered after an action: those from before whose template is not forgotten by it,
and those in the texts that are cached then. -/
def remembered (s : Session) (before : String → String → Prop) (a : Action) : String → String → Prop :=
  fun c p => (before c p ∧ ¬ s.Forgets a c) ∨ (s.perform a).cached.Includes p c

/-- The includes that are remembered after a run. -/
def rememberedAfter (s : Session) (before : String → String → Prop) :
    List Action → String → String → Prop
  | [] => before
  | a :: rest => (s.perform a).rememberedAfter (s.remembered before a) rest

/-- A session is settled, and all its relations are of includes that are remembered. -/
structure Recalls (s : Session) (remembered : String → String → Prop) : Prop extends Settled s where
  edges : ∀ c p, s.cache.relations.Has c p → remembered c p

/-- A session is at rest, and its relations are those of another one or of includes in what it has cached. -/
structure RelatesOver (s s' : Session) : Prop extends AtRest s' where
  edges : ∀ c p, s'.cache.relations.Has c p → s.cache.relations.Has c p ∨ s'.cached.Includes p c

theorem RelatesOver.compile (h : s.RelatesOver s') (name : String) :
    s.RelatesOver (s'.compile name).2 := by
  obtain ⟨hrest, hgrows⟩ := h.toAtRest.compile name
  refine ⟨hrest, fun c p hc => ?_⟩
  rcases compile_relates h.toAtRest name hc with hc | hc
  · exact (h.edges c p hc).imp_right fun hc => hc.of_le hgrows.cached_le.name hgrows.cached_le.text
  · exact Or.inr hc

/-- When templates are compiled, the relations that are added are of includes in what is cached afterwards. -/
theorem AtRest.relatesOver (h : s.AtRest) {a : Action} (ha : a.Compiles) : s.RelatesOver (s.perform a) := by
  have hnew : s.RelatesOver s := ⟨h, fun _ _ hc => Or.inl hc⟩
  cases a with
  | compile name =>
    rw [Session.perform]
    exact hnew.compile name
  | render name data =>
    rw [Session.perform, render_session]
    exact hnew.compile name
  | precompile directory =>
    rw [Session.perform]
    refine precompile_keeps ?_ (fun s' name hs => hs.compile name) s directory hnew
    exact fun s' notes hs => ⟨⟨hs.ended, hs.inflight⟩, hs.edges⟩
  | invalidate name => exact ha.elim
  | invalidateAll => exact ha.elim
  | clear => exact ha.elim
  | change tree => exact ha.elim

/-- Compiles make the session forget nothing. -/
theorem not_forgets {a : Action} (ha : a.Compiles) : ¬ s.Forgets a c := by
  cases a <;> first | exact ha.elim | exact id

/-- What relations tell of is remembered after every action that leaves what names are brought to. -/
theorem Recalls.perform (h : s.Recalls before) (a : Action)
    (hchange : ∀ tree, a = .change tree → ({ s with tree } : Session).normalize = s.normalize) :
    (s.perform a).Recalls (s.remembered before a) := by
  refine ⟨(h.toSettled.perform hchange).1, fun c p hc => ?_⟩
  have hcompiles : a.Compiles → s.remembered before a c p := by
    intro ha
    rcases (h.toAtRest.relatesOver ha).edges c p hc with hold | hincludes
    · exact Or.inl ⟨h.edges c p hold, not_forgets ha⟩
    · exact Or.inr hincludes
  cases a with
  | compile name => exact hcompiles trivial
  | render name data => exact hcompiles trivial
  | precompile directory => exact hcompiles trivial
  | invalidate name =>
    rw [Session.perform] at hc
    cases hname : s.normalize name with
    | error f =>
      rw [step_invalidate_error hname] at hc
      refine Or.inl ⟨h.edges c p hc, fun heq => ?_⟩
      cases hname.symm.trans heq
    | ok d =>
      rw [step_invalidate_ok hname] at hc
      obtain ⟨hold, hne⟩ := (Cache.has_invalidate _ _ _ _).1 hc
      exact Or.inl ⟨h.edges c p hold, fun heq => hne (Except.ok.inj (heq.symm.trans hname))⟩
  | invalidateAll =>
    obtain ⟨hold, hnone⟩ := Cache.has_of_invalidateAll _ hc
    refine Or.inl ⟨h.edges c p hold, fun hsome => ?_⟩
    rw [Forgets, hnone] at hsome
    cases hsome
  | clear =>
    exact absurd hc List.not_mem_nil
  | change tree => exact Or.inl ⟨h.edges c p hc, id⟩

/-- After every sequence of actions what the relations tell of is remembered, if no change of the files changes
what names are brought to. -/
theorem Recalls.performAll (h : s.Recalls before) (actions : List Action)
    (hchange : ∀ tree name, .change tree ∈ actions →
      Identifier.normalize tree s.root s.root name = s.normalize name) :
    (s.performAll actions).Recalls (s.rememberedAfter before actions) := by
  induction actions generalizing s before with
  | nil => exact h
  | cons a actions ih =>
    have hhead : ∀ tree, a = .change tree → ({ s with tree } : Session).normalize = s.normalize := by
      rintro tree rfl
      funext name
      exact hchange tree name List.mem_cons_self
    refine ih (h.perform a hhead) fun tree name hmem => ?_
    rw [root, (h.toSettled.settings_perform a).1, (h.toSettled.perform hhead).2]
    exact hchange tree name (List.mem_cons_of_mem _ hmem)

/-! ### What an invalidation drops -/

theorem single_cached (s : Session) : s.cached.Single :=
  ⟨fun _ _ _ h h' => h.symm.trans h', fun d x y hx hy =>
    s.single_atHand.text d x y (s.cached_le_atHand.text d x hx) (s.cached_le_atHand.text d y hy)⟩

/-- A template has lost an include: it has included a template in a text that it had since that one was last
forgotten, and it does not in the text that is cached now. -/
def Loses (s : Session) (remembered : String → String → Prop) (p d : String) : Prop :=
  remembered d p ∧ ¬ s.cached.Includes p d

/-- A template that is come to by includes that are remembered embeds the one that they start from, or it has
lost an include on the way, or embeds a template that has. -/
theorem embeds_or_loses {remembered : String → String → Prop} (h : TransGen remembered c X) :
    TransGen s.cached.Includes X c ∨
      ∃ p d, ReflTransGen s.cached.Includes X p ∧ s.Loses remembered p d ∧ ReflTransGen remembered c d := by
  induction h with
  | @single x hx =>
    by_cases hincludes : s.cached.Includes x c
    · exact Or.inl (.single hincludes)
    · exact Or.inr ⟨x, c, .refl, ⟨hx, hincludes⟩, .refl⟩
  | @tail y x hpath hx ih =>
    by_cases hincludes : s.cached.Includes x y
    · rcases ih with hembeds | ⟨p, d, hp, hloses, hd⟩
      · exact Or.inl (.head hincludes hembeds)
      · exact Or.inr ⟨p, d, .head hincludes hp, hloses, hd⟩
    · exact Or.inr ⟨x, y, .refl, ⟨hx, hincludes⟩, hpath.to_reflTransGen⟩

/-- What an invalidation drops is the invalidated template, or it embeds that one, or it has lost an include on the
way there, or embeds a template that has. -/
theorem Recalls.dropped {remembered : String → String → Prop} (h : s.Recalls remembered) {name : String}
    (hname : s.normalize name = .ok c) {a : Artifact} (hX : s.cache.compiled.get? X = some a)
    (hdropped : (s.step (.invalidate name)).cache.compiled.get? X ≠ some a) :
    X = c ∨ TransGen s.cached.Includes X c ∨
      ∃ p d, ReflTransGen s.cached.Includes X p ∧ s.Loses remembered p d ∧ ReflTransGen remembered c d := by
  rw [step_invalidate_ok hname] at hdropped
  have hgone : (s.cache.invalidate c).compiled.get? X ≠ some a := hdropped
  rw [Cache.compiled_invalidate] at hgone
  split at hgone
  · next haffected =>
    rcases haffected with hdependent | heq
    · refine Or.inr (embeds_or_loses ?_)
      exact TransGen.mono h.edges _ _ (Relations.mem_dependents.1 hdependent).2
    · exact Or.inl heq
  · exact absurd hX hgone

/-- In the tree of a compiled template every include is related. -/
theorem Settled.related (h : s.Settled) {a : Artifact} (hX : s.cache.compiled.get? X = some a)
    (hc : s.cached.InTree X c p) : s.cache.relations.Has c p := by
  obtain ⟨flat, henters, -⟩ := (h.built X a hX).2
  have hgives : Gives s.cached [] X (.ok flat) := Or.inr ⟨List.not_mem_nil, henters⟩
  exact (hgives.related s.single_cached hc).resolve_left hc.2.ne_empty

end Session

/-- After every run over trees without links, each compiled template is made of the texts that are cached, and
when a template is then invalidated a compiled one survives, but if it is that template, or embeds it by
includes in those texts, or if it has lost an include, or embeds a template that has: that is, at some time
since `d` was last forgotten `p` had a text that included `d`, and `d` led on from the invalidated template
by includes of the same kind, and the text that `p` has now does not include `d` any more. -/
theorem dropped_includes (settings : Config.Settings) (shrinkers : Shrinkers) {tree : Files.Tree}
    (htree : tree.Linkless) {actions : List Action} (hchanges : ∀ t, .change t ∈ actions → t.Linkless)
    {name c X : String} {a : Artifact} :
    let start : Session := { settings, shrinkers, tree }
    let s := start.performAll actions
    let remembered := start.rememberedAfter (fun _ _ => False) actions
    s.normalize name = .ok c → s.cache.compiled.get? X = some a →
    s.Built X a ∧ ((s.step (.invalidate name)).cache.compiled.get? X = some a ∨
      X = c ∨ TransGen s.cached.Includes X c ∨
      ∃ p d, ReflTransGen s.cached.Includes X p ∧ s.Loses remembered p d ∧
        ReflTransGen remembered c d) := by
  intro start s remembered hname hX
  have hnew : start.Recalls fun _ _ => False :=
    ⟨Session.settled_new settings shrinkers tree, fun _ _ hc => absurd hc List.not_mem_nil⟩
  have hrecalls : s.Recalls remembered := by
    refine hnew.performAll actions fun t name hmem => ?_
    exact (Identifier.normalize_congr (htree.sameLinks (hchanges t hmem)) _ _ _).symm
  refine ⟨(hrecalls.built X a hX).2, ?_⟩
  by_cases hkept : (s.step (.invalidate name)).cache.compiled.get? X = some a
  · exact Or.inl hkept
  · exact Or.inr (hrecalls.dropped hname hX hkept)

/-! ### An include that is lost -/

namespace Session

/-- Every file that has changed in a run was invalidated before the next compile. -/
def Heeds (s : Session) (before : String → Prop) : List Action → Prop
  | [] => True
  | a :: rest => (a.Compiles → ∀ d, ¬ before d) ∧ (s.perform a).Heeds (s.stale before a) rest

variable {s : Session}

/-- When the file of a template is rewritten, that template is the only one whose file has changed. -/
theorem Alters.eq_of_set (hlinkless : s.tree.Linkless) (hroot : ".." ∉ Files.components s.root) {d d' : String}
    (hd' : Identifier.IsIdentifier d') {place : Files.Place} (hplace : Files.components (s.path d') = place)
    {old new : List UInt8} (hold : s.tree.entry? place = some (.file old))
    (h : s.Alters (s.tree.set place (.file new)) d) : d = d' := by
  obtain ⟨⟨name, hname⟩, hread⟩ := h
  have hd : Identifier.IsIdentifier d := Identifier.isIdentifier_of_normalize hname
  have hsame : Files.components (s.path d) = Files.components (s.path d') := by
    by_contra hne
    obtain ⟨names, -, hdots, hpath⟩ := hd.components_under s.root
    have hdots' : ".." ∉ Files.components (s.path d) := by
      rw [path, hpath, List.mem_append]
      exact not_or.2 ⟨hroot, hdots⟩
    refine hread ?_
    rw [hlinkless.read_set hold hdots' fun heq => hne (heq.trans hplace.symm)]
  exact hd.eq_of_components_under hd' hsame

end Session

namespace Lost

/-- A template, and another one that includes it. -/
def tree : Files.Tree :=
  { entries := [(["v"], .directory), (["v", "a.mjs"], .file (Linked.bytes "<%include 'c.mjs'%>A")),
      (["v", "c.mjs"], .file (Linked.bytes "c"))] }

/-- The second one without the include. -/
def plain : Files.Tree := tree.set ["v", "a.mjs"] (.file (Linked.bytes "A"))

/-- The first one changed as well. -/
def changed : Files.Tree := plain.set ["v", "c.mjs"] (.file (Linked.bytes "d"))

def settings : Config.Settings := { root := "/v", compress := false }

/-- A compiler of templates that has not been used. -/
def session (tree : Files.Tree) : Session := { settings, tree }

/-- The second template is compiled, its include is taken out, and it is invalidated. -/
def edits : List Action := [.compile "a.mjs", .change plain, .invalidate "a.mjs"]

/-- The second template is then compiled again, and the first one changes. -/
def actions : List Action := edits ++ [.compile "a.mjs", .change changed]

theorem linkless_tree : tree.Linkless := .of_entries (by simp [tree])

theorem linkless_plain : plain.Linkless := linkless_tree.set _ _

theorem linkless_changed : changed.Linkless := linkless_plain.set _ _

theorem load_a : (session tree).load "a.mjs" = .ok "<%include 'c.mjs'%>A" := by
  have hpath : Files.components ((session tree).path "a.mjs") = ["v", "a.mjs"] := by decide
  have hentry : (session tree).tree.entry? ["v", "a.mjs"] =
      some (.file (Linked.bytes "<%include 'c.mjs'%>A")) := by decide
  exact Session.load_of_entries hpath (by decide) (by decide) (by decide) (by decide) hentry (by decide) (by decide)

theorem load_c : (session tree).load "c.mjs" = .ok "c" := by
  have hpath : Files.components ((session tree).path "c.mjs") = ["v", "c.mjs"] := by decide
  have hentry : (session tree).tree.entry? ["v", "c.mjs"] = some (.file (Linked.bytes "c")) := by decide
  exact Session.load_of_entries hpath (by decide) (by decide) (by decide) (by decide) hentry (by decide) (by decide)

theorem load_plain : (session plain).load "a.mjs" = .ok "A" := by
  have hpath : Files.components ((session plain).path "a.mjs") = ["v", "a.mjs"] := by decide
  have hentry : (session plain).tree.entry? ["v", "a.mjs"] = some (.file (Linked.bytes "A")) := by decide
  exact Session.load_of_entries hpath (by decide) (by decide) (by decide) (by decide) hentry (by decide) (by decide)

theorem segments_a : segmentsOf "a.mjs" "<%include 'c.mjs'%>A" =
    [.literal [], .include ['c', '.', 'm', 'j', 's'], .literal ['A']] := by
  have htemplate : Identifier.isTemplate "a.mjs" = true := by decide
  have hinclude : include? "<%include 'c.mjs'%>A".toList = some (['c', '.', 'm', 'j', 's'], ['A']) := by
    decide
  have hnone : include? ['A'] = none := by decide
  rw [segmentsOf, if_pos htemplate, segments, segmentsAfter_include hinclude, segmentsAfter_cons hnone,
    segmentsAfter_nil]
  rfl

theorem segments_plain : segmentsOf "a.mjs" "A" = [.literal ['A']] :=
  segmentsOf_single (by decide) (by decide) (by decide)

theorem segments_c : segmentsOf "c.mjs" "c" = [.literal ['c']] :=
  segmentsOf_single (by decide) (by decide) (by decide)

theorem isIdentifier_a : Identifier.IsIdentifier "a.mjs" := by
  have h : Identifier.normalize {} "/v" "/v" "a.mjs" = .ok "a.mjs" := by decide
  exact Identifier.isIdentifier_of_normalize h

theorem isIdentifier_c : Identifier.IsIdentifier "c.mjs" := by
  have h : Identifier.normalize {} "/v" "/v" "c.mjs" = .ok "c.mjs" := by decide
  exact Identifier.isIdentifier_of_normalize h

/-- With the include the second template comes to the texts of both. -/
theorem gives_both : Gives (session tree).onDisk [] "a.mjs" (.ok "cA") := by
  have hname : (session tree).onDisk.name ['c', '.', 'm', 'j', 's'] (.ok "c.mjs") :=
    isIdentifier_c.normalize tree "/v" "/v"
  have hc : Reads (session tree).onDisk ["c.mjs", "a.mjs"] (segmentsOf "c.mjs" "c") (.ok "c") := by
    rw [segments_c]
    exact .literal .nil
  refine Or.inr ⟨List.not_mem_nil, Or.inr ⟨_, load_a, ?_⟩⟩
  rw [segments_a]
  exact .literal (.filled hname (by decide) trivial load_c hc (.literal .nil))

/-- Without the include it comes to its own text. -/
theorem gives_plain {s : Session} (hload : s.load = (session plain).load) :
    Gives s.onDisk [] "a.mjs" (.ok "A") := by
  refine Or.inr ⟨List.not_mem_nil, Or.inr ⟨"A", ?_, ?_⟩⟩
  · show s.load "a.mjs" = .ok "A"
    rw [hload, load_plain]
  · rw [segments_plain]
    exact .literal .nil

/-- The session when the second template has been compiled. -/
def before : Session := ((session tree).compile "a.mjs").2

/-- The session when the include has been taken out, just before the second template is compiled again. -/
def edited : Session := (session tree).performAll edits

theorem settled_session : (session tree).Settled := Session.settled_new settings {} tree

theorem before_spec : before.Settled ∧ Session.GrowsNamed (session tree) before :=
  settled_session.compile "a.mjs"

theorem compiled_before : ∃ a, before.cache.compiled.get? "a.mjs" = some a :=
  settled_session.exists_compiled (fun _ _ hd => nomatch hd) (isIdentifier_a.normalize tree "/v" "/v") rfl
    gives_both (Session.exists_build rfl (by decide))

/-- The relation is there after the first compile. -/
theorem related_before : before.cache.relations.Has "c.mjs" "a.mjs" := by
  obtain ⟨hsettled, hgrows⟩ := before_spec
  obtain ⟨a, ha⟩ := compiled_before
  obtain ⟨text, hsource⟩ := (hsettled.built _ a ha).2.source
  have hload := (hgrows.loads _ text hsource).resolve_left nofun
  obtain rfl : text = _ := Except.ok.inj (hload.symm.trans load_a)
  have hname : before.normalize "c.mjs" = .ok "c.mjs" := isIdentifier_c.normalize _ _ _
  refine hsettled.related ha ⟨.refl, _, ['c', '.', 'm', 'j', 's'], ⟨_, rfl, hsource⟩, ?_, hname⟩
  rw [segments_a]
  exact .tail _ (.head _)

/-- What has changed then is the second template alone, so nothing is stale when that is invalidated. -/
theorem not_stale (d : String) : ¬ (session tree).staleAfter (fun _ => False) edits d := by
  rintro ⟨hfalse | halters, hne⟩
  · exact hfalse
  obtain ⟨-, hgrows⟩ := before_spec
  have halters' : before.Alters (before.tree.set ["v", "a.mjs"] (.file (Linked.bytes "A"))) d := by
    rw [hgrows.tree]
    exact halters
  have hroot : before.root = "/v" := by
    rw [Session.root, hgrows.settings]
    rfl
  have hpath : Files.components (before.path "a.mjs") = ["v", "a.mjs"] := by
    rw [Session.path, hroot]
    decide
  have hold : before.tree.entry? ["v", "a.mjs"] = some (.file (Linked.bytes "<%include 'c.mjs'%>A")) := by
    rw [hgrows.tree]
    decide
  have hlinkless : before.tree.Linkless := by
    rw [hgrows.tree]
    exact linkless_tree
  have hdots : ".." ∉ Files.components before.root := by
    rw [hroot]
    decide
  obtain rfl := halters'.eq_of_set hlinkless hdots isIdentifier_a hpath hold
  exact hne (isIdentifier_a.normalize _ _ _)

theorem coherent_edited : edited.Coherent fun _ => False := by
  have hnew : (session tree).Coherent fun _ => False :=
    Session.coherent_new settings {} linkless_tree
  obtain ⟨hcoherent, -⟩ := hnew.performAll edits fun t ht => by
    obtain rfl : t = plain := by simpa [edits] using ht
    exact linkless_plain
  exact ⟨hcoherent.toSettled, hcoherent.linkless, fun d text hd =>
    (hcoherent.current d text hd).imp_right (Or.imp_left (not_stale d))⟩

theorem edited_spec : edited.cache = before.cache.invalidate "a.mjs" ∧ edited.tree = plain ∧
    edited.settings = settings ∧ edited.shrinkers = {} := by
  have h : edited = ({ before with tree := plain } : Session).step (.invalidate "a.mjs") := rfl
  rw [h, Session.step_invalidate_ok (isIdentifier_a.normalize _ _ _)]
  exact ⟨rfl, rfl, before_spec.2.settings, before_spec.2.shrinkers⟩

theorem load_edited : edited.load = (session plain).load :=
  Session.load_congr edited_spec.2.2.1 edited_spec.2.2.2 edited_spec.2.1

/-- The session when the second template has been compiled again. -/
def after : Session := (edited.compile "a.mjs").2

/-- The session when the first template has changed. -/
def last : Session := (session tree).performAll actions

theorem last_eq : last = { after with tree := changed } := by
  have hedited : edits.foldl Session.perform (session tree) = edited := by rw [edited, Session.performAll]
  rw [last, actions, Session.performAll, List.foldl_append, hedited, after]
  simp only [List.foldl_cons, List.foldl_nil, Session.perform]

theorem cache_last : last.cache = after.cache := by rw [last_eq]

theorem after_spec : after.Settled ∧ Session.GrowsNamed edited after :=
  coherent_edited.toSettled.compile "a.mjs"

/-- The second template is compiled again. -/
theorem compiled_after : ∃ a, after.cache.compiled.get? "a.mjs" = some a := by
  rw [after]
  obtain ⟨hcache, -, hsettings, -⟩ := edited_spec
  have hnone : edited.cache.compiled.get? "a.mjs" = none := by
    rw [hcache, Cache.compiled_invalidate, if_pos (Or.inr rfl)]
  refine coherent_edited.exists_compiled ?_ (isIdentifier_a.normalize _ _ _) hnone (gives_plain load_edited) ?_
  · exact fun d text hd => (coherent_edited.current d text hd).2.resolve_left id
  · exact Session.exists_build (by rw [hsettings]; rfl) (by decide)

/-- The text of the second template has no include any more. -/
theorem source_after : after.cache.sources.get? "a.mjs" = some "A" := by
  obtain ⟨hsettled, hgrows⟩ := after_spec
  obtain ⟨a, ha⟩ := compiled_after
  obtain ⟨text, hsource⟩ := (hsettled.built _ a ha).2.source
  rcases hgrows.loads _ text hsource with hold | hload
  · rw [edited_spec.1, Cache.sources_invalidate, if_pos rfl] at hold
    exact nomatch hold
  · rw [load_edited, load_plain] at hload
    rw [hsource, Except.ok.inj hload]

theorem not_includes {c : String} : ¬ last.cached.Includes "a.mjs" c := by
  rintro ⟨text, name, ⟨text', htext, hsource⟩, hname, -⟩
  rw [cache_last, source_after] at hsource
  obtain rfl : text = text' := Except.ok.inj htext
  obtain rfl : "A" = text := Option.some.inj hsource
  rw [segments_plain] at hname
  exact nomatch List.mem_singleton.1 hname

/-- The relation of the include has outlived it. -/
theorem related_last : last.cache.relations.Has "c.mjs" "a.mjs" := by
  have hedited : edited.cache.relations.Has "c.mjs" "a.mjs" := by
    rw [edited_spec.1, Cache.has_invalidate]
    exact ⟨related_before, by decide⟩
  rw [cache_last]
  exact after_spec.2.has _ _ hedited

theorem heeds_actions : (session tree).Heeds (fun _ => False) actions := by
  simp only [actions, edits, List.cons_append, List.nil_append, Session.Heeds, Action.Compiles]
  exact ⟨fun _ _ h => h, nofun, nofun, fun _ => not_stale, nofun, trivial⟩

theorem linkless_actions : ∀ t, .change t ∈ actions → t.Linkless := by
  intro t ht
  have ht : t = plain ∨ t = changed := by simpa [actions, edits] using ht
  rcases ht with rfl | rfl
  · exact linkless_plain
  · exact linkless_changed

theorem compiled_last : ∃ a, last.cache.compiled.get? "a.mjs" = some a := by
  rw [cache_last]
  exact compiled_after

/-- The compiled template that is dropped has lost the include. -/
theorem dropped_includes_lost :
    tree.Linkless ∧ (∀ t, .change t ∈ actions → t.Linkless) ∧ last.normalize "c.mjs" = .ok "c.mjs" ∧
      ∃ a, last.cache.compiled.get? "a.mjs" = some a ∧ last.Built "a.mjs" a ∧
        ((last.step (.invalidate "c.mjs")).cache.compiled.get? "a.mjs" = some a ∨
          "a.mjs" = "c.mjs" ∨ TransGen last.cached.Includes "a.mjs" "c.mjs" ∨
          ∃ p d, ReflTransGen last.cached.Includes "a.mjs" p ∧
            last.Loses ((session tree).rememberedAfter (fun _ _ => False) actions) p d ∧
            ReflTransGen ((session tree).rememberedAfter (fun _ _ => False) actions) "c.mjs" d) := by
  obtain ⟨a, ha⟩ := compiled_last
  have hname : last.normalize "c.mjs" = .ok "c.mjs" := isIdentifier_c.normalize _ _ _
  refine ⟨linkless_tree, linkless_actions, hname, a, ha, ?_⟩
  unfold last session at hname ha ⊢
  exact dropped_includes settings {} linkless_tree linkless_actions hname ha

/-- Every change is heeded, and the second template, which is made of what is cached, does not embed the first one
any more; and yet it is dropped when that is invalidated. -/
theorem dropped_without_include :
    tree.Linkless ∧ (∀ t, .change t ∈ actions → t.Linkless) ∧
      (session tree).Heeds (fun _ => False) actions ∧ last.normalize "c.mjs" = .ok "c.mjs" ∧
      (∃ a, last.cache.compiled.get? "a.mjs" = some a ∧ last.Built "a.mjs" a) ∧
      "a.mjs" ≠ "c.mjs" ∧ ¬ TransGen last.cached.Includes "a.mjs" "c.mjs" ∧
      (last.step (.invalidate "c.mjs")).cache.compiled.get? "a.mjs" = none := by
  have hname : last.normalize "c.mjs" = .ok "c.mjs" := isIdentifier_c.normalize _ _ _
  have hnew : (session tree).Coherent fun _ => False :=
    Session.coherent_new settings {} linkless_tree
  have hsettled : last.Settled := (hnew.performAll actions linkless_actions).1.toSettled
  obtain ⟨a, ha⟩ := compiled_last
  refine ⟨linkless_tree, linkless_actions, heeds_actions, hname, ⟨a, ha, (hsettled.built _ a ha).2⟩,
    by decide, ?_, ?_⟩
  · intro hembeds
    obtain ⟨c, hincludes, -⟩ := TransGen.head'_iff.1 hembeds
    exact not_includes hincludes
  · have hdependent : "a.mjs" ∈ last.cache.relations.dependents "c.mjs" :=
      Relations.mem_dependents.2 ⟨by decide, .single related_last⟩
    rw [Session.step_invalidate_ok hname]
    show (last.cache.invalidate "c.mjs").compiled.get? "a.mjs" = none
    rw [Cache.compiled_invalidate, if_pos (Or.inl hdependent)]

end Lost

end Stencil
