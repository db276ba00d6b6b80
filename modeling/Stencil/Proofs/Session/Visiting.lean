import Stencil.Proofs.Session.Entries
import Stencil.Proofs.Session.Patience

/-!
# Precompiling is visiting

To precompile is to visit all that stands below the root, directories before what is in them and otherwise in the
order of the names (`Rooted.precompile_eq`): a template is compiled, and nothing is done with what is none. The calls
for what is in a directory are unfolded by induction on how far down precompiling still goes (`Flattens`), which is
further than paths that can be looked up.
-/

namespace Stencil

open Files

namespace Session

variable {s s' : Session} {top : Place} {names : List String} {e : Entry}

/-! ### Visits -/

/-- What is precompiled by two parts in turn; what fails ends it. -/
def followed (here : Except Fault (List String) × Session)
    (next : Session → Except Fault (List String) × Session) : Except Fault (List String) × Session :=
  match here with
  | (.error f, s) => (.error f, s)
  | (.ok done, s) => ((next s).1.map (done ++ ·), (next s).2)

/-- What precompiling does with a template. -/
def visitTemplate (s : Session) (id : String) : Except Fault (List String) × Session :=
  match s.compile id with
  | (.error f, s) => (.error f, s.note [.precompileFailed id f.message])
  | (.ok _, s) => (.ok [id], s.note [.precompiled id])

/-- What precompiling does with an entry, but for what is in it: a directory is listed. -/
def visit (s : Session) (id : String) : Except Fault (List String) × Session :=
  match s.tree.isDirectory (s.path id) with
  | .error f => (.error (.unreachable (s.path id) f), s)
  | .ok true => ((s.children id).map fun _ => [], s)
  | .ok false =>
    if Identifier.isTemplate id then s.visitTemplate id else (.ok [], s)

/-- Visits in turn. -/
def visitEach (s : Session) : List String → Except Fault (List String) × Session
  | [] => (.ok [], s)
  | id :: rest => followed (s.visit id) fun s => s.visitEach rest

theorem followed_assoc (here : Except Fault (List String) × Session)
    (next last : Session → Except Fault (List String) × Session) :
    followed (followed here next) last = followed here fun s => followed (next s) last := by
  obtain ⟨f | done, s⟩ := here
  · rfl
  · unfold followed
    dsimp only
    generalize next s = p
    obtain ⟨f | more, s'⟩ := p
    · rfl
    · dsimp only [Except.map]
      generalize (last s').1 = r
      cases r with
      | error f => rfl
      | ok rest => simp only [List.append_assoc]

/-- Nothing is done first. -/
theorem followed_nil (s : Session) (next : Session → Except Fault (List String) × Session) :
    followed (.ok [], s) next = next s := by
  unfold followed
  dsimp only
  generalize next s = p
  obtain ⟨f | ids, s'⟩ := p <;> rfl

/-- Nothing is done last. -/
theorem followed_last (here : Except Fault (List String) × Session) :
    followed here (fun s => s.visitEach []) = here := by
  obtain ⟨f | done, s⟩ := here
  · rfl
  · simp only [followed, visitEach, Except.map, List.append_nil]

theorem followed_congr {here : Except Fault (List String) × Session}
    {next next' : Session → Except Fault (List String) × Session} (h : next here.2 = next' here.2) :
    followed here next = followed here next' := by
  obtain ⟨f | done, s⟩ := here
  · rfl
  · unfold followed
    dsimp only
    rw [h]

theorem visitEach_append (s : Session) (ids rest : List String) :
    s.visitEach (ids ++ rest) = followed (s.visitEach ids) fun s => s.visitEach rest := by
  induction ids generalizing s with
  | nil => exact (followed_nil s fun s => s.visitEach rest).symm
  | cons id ids ih =>
    rw [List.cons_append, visitEach, visitEach, followed_assoc]
    exact followed_congr (ih _)

/-- What a directory does not come before is visited. -/
theorem precompileEach_visit {depth : Nat} {child : String} (rest : List String)
    (h : s.tree.isDirectory (s.path child) ≠ .ok true) :
    precompileEach depth s (child :: rest) =
      followed (s.visit child) fun s => precompileEach depth s rest := by
  rw [precompileEach.eq_def depth s (child :: rest)]
  unfold visit
  dsimp only
  cases hdirectory : s.tree.isDirectory (s.path child) with
  | error f => rfl
  | ok isDirectory =>
    cases isDirectory with
    | true => exact absurd hdirectory h
    | false =>
      dsimp only
      by_cases htemplate : Identifier.isTemplate child = true
      · simp only [if_pos htemplate]
        unfold visitTemplate
        generalize s.compile child = p
        obtain ⟨f | a, s'⟩ := p <;> rfl
      · simp only [if_neg htemplate]
        rfl

/-- What is in a directory comes before what is next to it. -/
theorem precompileEach_directory {depth : Nat} {child : String} {inner : List String} (rest : List String)
    (h : s.tree.isDirectory (s.path child) = .ok true) (hinner : s.children child = .ok inner) :
    precompileEach (depth + 1) s (child :: rest) =
      followed (precompileEach depth s inner) fun s => precompileEach (depth + 1) s rest := by
  rw [precompileEach.eq_def (depth + 1) s (child :: rest)]
  dsimp only
  rw [h]
  dsimp only
  rw [hinner]
  dsimp only
  generalize precompileEach depth s inner = p
  obtain ⟨f | done, s'⟩ := p <;> rfl

/-- A directory that cannot be listed ends the visits. -/
theorem visit_of_unlisted {id : String} {f : Fault} (h : s.tree.isDirectory (s.path id) = .ok true)
    (hinner : s.children id = .error f) : s.visit id = (.error f, s) := by
  unfold visit
  rw [h]
  dsimp only
  rw [hinner]
  rfl

/-- Nothing is done with a directory that can be listed. -/
theorem visit_of_listed {id : String} {inner : List String} (h : s.tree.isDirectory (s.path id) = .ok true)
    (hinner : s.children id = .ok inner) : s.visit id = (.ok [], s) := by
  unfold visit
  rw [h]
  dsimp only
  rw [hinner]
  rfl

/-- What is in a directory that cannot be listed is not come to. -/
theorem precompileEach_unlisted {depth : Nat} {child : String} {f : Fault} (rest : List String)
    (h : s.tree.isDirectory (s.path child) = .ok true) (hinner : s.children child = .error f) :
    precompileEach (depth + 1) s (child :: rest) =
      followed (s.visit child) fun s => precompileEach (depth + 1) s rest := by
  rw [precompileEach.eq_def (depth + 1) s (child :: rest), visit_of_unlisted h hinner]
  dsimp only
  rw [h]
  dsimp only
  rw [hinner]
  rfl

/-- Visits leave a session at rest, and its cache only grows. -/
theorem AtRest.visit (h : s.AtRest) (id : String) : (s.visit id).2.AtRest ∧ Grows s (s.visit id).2 := by
  unfold Session.visit
  cases s.tree.isDirectory (s.path id) with
  | error f => exact ⟨h, .refl s⟩
  | ok isDirectory =>
    cases isDirectory with
    | true => exact ⟨h, .refl s⟩
    | false =>
      dsimp only
      by_cases htemplate : Identifier.isTemplate id = true
      · rw [if_pos htemplate]
        unfold visitTemplate
        obtain ⟨hrest, hgrows⟩ := h.compile id
        generalize s.compile id = p at hrest hgrows
        obtain ⟨f | a, s'⟩ := p
        · exact ⟨⟨hrest.ended, hrest.inflight⟩, hgrows.toGrows.trans (.of_cache rfl rfl rfl rfl)⟩
        · exact ⟨⟨hrest.ended, hrest.inflight⟩, hgrows.toGrows.trans (.of_cache rfl rfl rfl rfl)⟩
      · rw [if_neg htemplate]
        exact ⟨h, .refl s⟩

theorem AtRest.visitEach (h : s.AtRest) (ids : List String) :
    (s.visitEach ids).2.AtRest ∧ Grows s (s.visitEach ids).2 := by
  induction ids generalizing s with
  | nil =>
    unfold Session.visitEach
    exact ⟨h, .refl s⟩
  | cons id ids ih =>
    obtain ⟨hrest, hgrows⟩ := h.visit id
    unfold Session.visitEach followed
    generalize s.visit id = p at hrest hgrows
    obtain ⟨f | here, s'⟩ := p
    · exact ⟨hrest, hgrows⟩
    · obtain ⟨hrest', hgrows'⟩ := ih hrest
      exact ⟨hrest', hgrows.trans hgrows'⟩

/-! ### What stands below an entry -/

/-- An entry with all that stands below it, by their identifiers and in order. -/
def subtree (s : Session) (top : Place) (names : List String) : List String :=
  joinNames names :: (s.tree.inside (top ++ names)).map fun rest => joinNames (names ++ rest)

theorem subtree_of_grows (hgrows : Grows s s') : s'.subtree top = s.subtree top := by
  unfold subtree
  rw [hgrows.tree]

/-- What stands below an entry is, one after the other, what is in it with all that stands below that. -/
theorem Rooted.inside_eq (h : s.Rooted top) (names : List String) :
    ((s.tree.inside (top ++ names)).map fun rest => joinNames (names ++ rest)) =
      (s.tree.childNames (top ++ names)).flatMap fun n => s.subtree top (names ++ [n]) := by
  rw [h.proper.inside_eq, List.map_flatMap]
  refine List.flatMap_congr fun n _ => ?_
  rw [subtree, List.map_cons, List.map_map, ← List.append_assoc]
  simp only [Function.comp_def, List.append_assoc, List.singleton_append]

/-- Nothing is done with a directory that is listed but with what is in it. -/
theorem Rooted.visitEach_directory (h : s.Rooted top)
    (hgo : s.tree.isDirectory (s.path (joinNames names)) = .ok true) {inner : List String}
    (hinner : s.children (joinNames names) = .ok inner) :
    s.visitEach (s.subtree top names) =
      s.visitEach ((s.tree.childNames (top ++ names)).flatMap fun n => s.subtree top (names ++ [n])) := by
  rw [subtree, visitEach, visit_of_listed hgo hinner, followed_nil, h.inside_eq]

/-- Nothing is come to from an entry that is refused. -/
theorem visitEach_refused {f : Fault} (hvisit : s.visit (joinNames names) = (.error f, s)) :
    s.visitEach (s.subtree top names) = s.visit (joinNames names) := by
  rw [subtree, visitEach, hvisit]
  rfl

/-- Nothing is come to from an entry that is no directory. -/
theorem Rooted.visitEach_leaf (h : s.Rooted top) (hentry : s.tree.entry? (top ++ names) = some e)
    (hgo : s.tree.isDirectory (s.path (joinNames names)) ≠ .ok true) :
    s.visitEach (s.subtree top names) = s.visit (joinNames names) := by
  have hdirectory := h.isDirectory hentry
  cases hobstacle : s.obstacle? top names with
  | some f =>
    rw [hobstacle] at hdirectory
    refine visitEach_refused (f := .unreachable (s.path (joinNames names)) f) ?_
    unfold visit
    rw [hdirectory]
  | none =>
    rw [hobstacle] at hdirectory
    have hne : s.tree.entry? (top ++ names) ≠ some .directory := by
      intro heq
      obtain rfl : e = .directory := Option.some.inj (hentry.symm.trans heq)
      exact hgo hdirectory
    rw [subtree, visitEach, h.proper.inside_eq_nil hne, List.map_nil]
    exact followed_last _

/-- To precompile some of the entries of a directory is to visit them and all that stands below them. -/
def Flattens (top : Place) (depth : Nat) : Prop :=
  ∀ {s : Session}, s.Rooted top → s.AtRest → ∀ {names kids : List String},
    names.length + depth = Tree.pathLimit → (∀ n ∈ kids, n ∈ s.tree.childNames (top ++ names)) →
    precompileEach depth s (kids.map fun n => joinNames (names ++ [n])) =
      s.visitEach (kids.flatMap fun n => s.subtree top (names ++ [n]))

/-- That holds of directories if it holds of those in them. -/
theorem flattens_of_below {depth : Nat} (below : ∀ d, depth = d + 1 → Flattens top d) :
    Flattens top depth := by
  intro s h hrest names kids hlength hkids
  induction kids generalizing s with
  | nil =>
    rw [List.map_nil, List.flatMap_nil]
    unfold precompileEach visitEach
    rfl
  | cons n kids ih =>
    rw [List.map_cons, List.flatMap_cons, visitEach_append]
    obtain ⟨e, hentry⟩ := Tree.mem_childNames.1 (hkids n List.mem_cons_self)
    rw [List.append_assoc] at hentry
    have hdirectory := h.isDirectory hentry
    -- the next ones are visited in a session that has grown
    have hnext : ∀ s' : Session, s'.AtRest ∧ Grows s s' →
        precompileEach depth s' (kids.map fun n => joinNames (names ++ [n])) =
          s'.visitEach (kids.flatMap fun n => s.subtree top (names ++ [n])) := by
      rintro s' ⟨hrest', hgrows⟩
      rw [← subtree_of_grows hgrows]
      refine ih (h.of_grows hgrows) hrest' fun m hm => ?_
      rw [hgrows.tree]
      exact hkids m (List.mem_cons_of_mem _ hm)
    by_cases hgo : s.tree.isDirectory (s.path (joinNames (names ++ [n]))) = .ok true
    · have hobstacle : s.obstacle? top (names ++ [n]) = none := by
        cases hobstacle : s.obstacle? top (names ++ [n]) with
        | some f =>
          rw [hgo, hobstacle] at hdirectory
          exact nomatch hdirectory
        | none => rfl
      rw [hgo, hobstacle, Except.ok.injEq] at hdirectory
      obtain rfl : e = .directory := by simpa using hdirectory.symm
      have hlt := h.length_lt hentry (not_tooLong_of_obstacle? hobstacle)
      have hlong : (names ++ [n]).length = names.length + 1 := List.length_append
      obtain ⟨d, rfl⟩ : ∃ d, depth = d + 1 := ⟨depth - 1, by omega⟩
      have hlocate := h.locate hentry
      rw [hobstacle] at hlocate
      have hchildren := h.children hlocate hentry
      by_cases hlisted : top ++ (names ++ [n]) ∈ s.tree.unreadable
      · rw [if_pos hlisted] at hchildren
        rw [precompileEach_unlisted _ hgo hchildren, visitEach_refused (visit_of_unlisted hgo hchildren)]
        exact followed_congr (hnext _ (hrest.visit _))
      · rw [if_neg hlisted] at hchildren
        have hbelow := below d rfl h hrest (show (names ++ [n]).length + d = _ by omega) fun m hm => hm
        rw [precompileEach_directory _ hgo hchildren, hbelow, ← h.visitEach_directory hgo hchildren]
        exact followed_congr (hnext _ (hrest.visitEach _))
    · rw [precompileEach_visit _ hgo, h.visitEach_leaf hentry hgo]
      exact followed_congr (hnext _ (hrest.visit _))

theorem flattens (top : Place) (depth : Nat) : Flattens top depth := by
  induction depth with
  | zero => exact flattens_of_below fun d hd => absurd hd (Nat.succ_ne_zero d).symm
  | succ depth ih =>
    refine flattens_of_below fun d hd => ?_
    cases hd
    exact ih

/-- To precompile the templates below the root is to visit all that stands below it. -/
theorem Rooted.precompile_eq (h : s.Rooted top) (hrest : s.AtRest) :
    s.precompile "" = s.visitEach ((s.tree.inside top).map joinNames) := by
  have hroot : top ++ [] = top := List.append_nil top
  have hlocate : s.tree.locate (s.path (joinNames [])) = .ok (top ++ []) := by
    rw [hroot]
    exact h.located
  have hentry : s.tree.entry? (top ++ []) = some .directory := by rw [hroot, h.directory]
  have hchildren := h.children hlocate hentry
  have hempty : joinNames [] = "" := by decide
  rw [hempty, if_neg (hroot.symm ▸ h.listed)] at hchildren
  unfold precompile
  rw [hchildren]
  dsimp only
  have hflattens : precompileEach depthLimit s
      ((s.tree.childNames (top ++ [])).map fun n => joinNames ([] ++ [n])) = _ :=
    flattens top depthLimit h hrest (Nat.zero_add _) fun n hn => hn
  rw [hflattens, ← h.inside_eq, hroot]
  rfl

end Session

end Stencil
