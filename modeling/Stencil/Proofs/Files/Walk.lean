import Stencil.Proofs.Files

/-!
# Walks in a tree without links

Where nothing is a link a walk takes its names one after the other, so it comes to the place that they spell, or
it fails (`Linkless.walk_eq_ok`), and to walk along names that are put together is to walk along the first ones
and then along the others (`Linkless.walk_append`). What a file holds is no matter to it: when a file is
rewritten, every path leads where it led before, and only what is read at that place changes
(`Linkless.read_set`).
-/

namespace Stencil.Files.Tree

variable {t t' : Tree} {place here : Place} {last : Bool} {links : Nat}

/-- What a walk in a tree without links does with its next name. -/
theorem Linkless.walk_cons (h : t.Linkless) (name : String) (rest : List String) :
    t.walk last links here (name :: rest) =
      if t.entry? here = some .directory then
        if here ∈ t.closed then .error .noPermission
        else if name = ".." then t.walk last links here.dropLast rest
        else if name.utf8ByteSize > nameLimit then .error .nameTooLong
        else if t.entry? (here ++ [name]) = none then .error .notFound
        else t.walk last links (here ++ [name]) rest
      else .error .notADirectory := by
  rw [walk]
  cases hhere : t.entry? here with
  | none => rfl
  | some e =>
    cases e with
    | file content => rfl
    | link target => exact absurd hhere (h here target)
    | directory =>
      rw [if_pos rfl]
      dsimp only
      simp only [List.contains_iff_mem]
      cases hnext : t.entry? (here ++ [name]) with
      | none => rfl
      | some e =>
        cases e with
        | directory => rfl
        | file content => rfl
        | link target => exact absurd hnext (h _ target)

/-- A walk comes to the place that its names spell. -/
theorem Linkless.walk_eq_ok (h : t.Linkless) {names : List String} (hdots : ".." ∉ names)
    (hwalk : t.walk last links here names = .ok place) : place = here ++ names := by
  induction names generalizing here with
  | nil =>
    rw [walk, Except.ok.injEq] at hwalk
    rw [← hwalk, List.append_nil]
  | cons name rest ih =>
    rw [List.mem_cons, not_or] at hdots
    rw [h.walk_cons, if_neg (Ne.symm hdots.1)] at hwalk
    split at hwalk
    · split at hwalk
      · cases hwalk
      · split at hwalk
        · cases hwalk
        · split at hwalk
          · cases hwalk
          · rw [ih hdots.2 hwalk, List.append_assoc, List.singleton_append]
    · cases hwalk

/-- To walk along names that are put together is to walk along the first ones and then along the others. -/
theorem Linkless.walk_append (h : t.Linkless) (names rest : List String) :
    t.walk last links here (names ++ rest) =
      (t.walk last links here names).bind fun place => t.walk last links place rest := by
  induction names generalizing here with
  | nil =>
    rw [List.nil_append, walk.eq_def t last links here []]
    rfl
  | cons name names ih =>
    rw [List.cons_append, h.walk_cons, h.walk_cons]
    split
    · split
      · rfl
      · split
        · exact ih
        · split
          · rfl
          · split
            · rfl
            · exact ih
    · rfl

/-! ### Files that are rewritten -/

theorem entry?_set (t : Tree) (e : Entry) (place q : Place) :
    Tree.entry? (t.set place e) q =
      if q = [] then some .directory else if q = place then some e else t.entry? q := by
  have hfilter : t.entries.filter (fun p => p.1 != place) = t.entries.filter fun p => p.1 ≠ place := by
    refine List.filter_congr fun p _ => ?_
    by_cases hp : p.1 = place <;> simp [hp]
  unfold entry? set
  split
  · rfl
  · rw [hfilter, List.lookup_append, Store.lookup_filter (· ≠ place), Store.lookup_cons_ite]
    by_cases hplace : q = place <;> simp [hplace]

theorem entry?_set_of_ne (t : Tree) (e : Entry) {place q : Place} (hq : q ≠ place) :
    Tree.entry? (t.set place e) q = t.entry? q := by
  rw [entry?_set, if_neg hq]
  split
  · next hnil => rw [hnil, entry?, if_pos rfl]
  · rfl

/-- A tree stays without links when a file is written into it. -/
theorem Linkless.set (h : t.Linkless) (place : Place) (content : List UInt8) :
    (t.set place (.file content)).Linkless := by
  intro q target hq
  rw [entry?_set] at hq
  split at hq
  · exact nomatch hq
  · split at hq
    · exact nomatch hq
    · exact h q target hq

section Rewritten

variable {old new : List UInt8} (h : t.Linkless) (hplace : t.entry? place = some (.file old))

include h hplace

/-- When a file is rewritten every path leads where it led before. -/
theorem Linkless.walk_set (names : List String) :
    (t.set place (.file new)).walk last links here names = t.walk last links here names := by
  have hne : place ≠ [] := by
    rintro rfl
    exact nomatch hplace
  induction names generalizing here with
  | nil => rw [walk, walk]
  | cons name rest ih =>
    have hsame : ∀ q, (Tree.entry? (t.set place (.file new)) q = some .directory ↔
        t.entry? q = some .directory) ∧
        (Tree.entry? (t.set place (.file new)) q = none ↔ t.entry? q = none) := by
      intro q
      by_cases hq : q = place
      · simp [entry?_set, hq, hne, hplace]
      · rw [entry?_set_of_ne t _ hq]
        exact ⟨Iff.rfl, Iff.rfl⟩
    have hclosed : (t.set place (.file new)).closed = t.closed := rfl
    rw [(h.set place new).walk_cons, h.walk_cons, hclosed]
    simp only [(hsame _).1, (hsame _).2, ih]

/-- When a file is rewritten nothing else is read differently. -/
theorem Linkless.read_set {path : String} (hdots : ".." ∉ components path)
    (hpath : components path ≠ place) : (t.set place (.file new)).read path = t.read path := by
  have hlocate : (t.set place (.file new)).locate path = t.locate path := by
    unfold locate locateLast
    rw [h.walk_set hplace]
  unfold read
  rw [hlocate]
  cases hat : t.locate path with
  | error f => rfl
  | ok q =>
    have hq : q = components path := by
      unfold locate locateLast at hat
      split at hat
      · exact nomatch hat
      · split at hat
        · exact nomatch hat
        · rw [h.walk_eq_ok hdots hat, List.nil_append]
    subst hq
    simp only [bind, Except.bind, entry?_set_of_ne t _ hpath]
    rfl

end Rewritten

end Stencil.Files.Tree
