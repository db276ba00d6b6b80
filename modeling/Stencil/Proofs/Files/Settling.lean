import Stencil.Proofs.Files.Path

/-!
# Where links lead

The real path of a file is found by following links, however many, until one leads in a circle. Names that meet no
circle lead to a place over a number of links (`Leads`, `settle_eq_ok_iff`), and no link is seen on the way to that
place (`Leads.straight`), so that the real path of such a real path is the path itself. Where a circle is met, the
names behind it are taken as they stand: a link may be left on the way, and the real path of the real path is then
another one.

A path along which a walk comes to an end meets no circle (`leads_of_walk`), for a walk sees every link on its way: it
does not go through a directory in which no name can be looked up (`shut_concat`). To follow a link takes the same
number of links each time (`Leads.det`), and what is followed on the way to its end takes fewer, so it is not the link
itself (`Leads.settle`). A path that leads somewhere is so its own real path exactly if no link stands on its way
(`realPath_eq_self_iff`).
-/

namespace Stencil.Files.Tree

/-- No link is seen on the way to a place, nor at it. -/
def Straight (t : Tree) (place : Place) : Prop := ∀ way, way <+: place → ∀ target, t.glimpse? way ≠ some (.link target)

/-- Names lead from a directory to a place over so many links. -/
inductive Leads (t : Tree) : Place → List String → Nat → Place → Prop
  | nil (here : Place) : Leads t here [] 0 here
  | dots {here rest k place} (h : Leads t here.dropLast rest k place) : Leads t here (".." :: rest) k place
  | plain {here name rest k place} (hname : name ≠ "..")
      (hno : ∀ target, t.glimpse? (here ++ [name]) ≠ some (.link target)) (h : Leads t (here ++ [name]) rest k place) :
      Leads t here (name :: rest) k place
  | link {here name target rest j k next place} (hname : name ≠ "..")
      (hlink : t.glimpse? (here ++ [name]) = some (.link target))
      (hnext : Leads t (startOf here target) (components target) j next) (h : Leads t next rest k place) :
      Leads t here (name :: rest) (j + k + 1) place

variable {t : Tree} {above : List Place} {here place next : Place} {name target path : String}
  {names rest stuck : List String} {links j k : Nat}

/-! ### What is seen -/

theorem glimpse?_of_shut (h : t.shut place = false) : t.glimpse? place = t.entry? place := by
  rw [glimpse?, h]
  exact if_neg Bool.false_ne_true

theorem shut_eq_false_iff : t.shut place = false ↔ ∀ directory ∈ t.closed, directory <+: place → directory = place := by
  unfold shut
  rw [List.any_eq_false]
  refine forall₂_congr fun directory _ => ?_
  by_cases heq : directory = place <;> simp [heq]

@[simp] theorem shut_nil (t : Tree) : t.shut [] = false :=
  shut_eq_false_iff.2 fun _ _ hprefix => List.prefix_nil.1 hprefix

/-- A name is seen in a directory that is seen and in which names can be looked up. -/
theorem shut_concat : t.shut (here ++ [name]) = false ↔ t.shut here = false ∧ here ∉ t.closed := by
  rw [shut_eq_false_iff, shut_eq_false_iff]
  constructor
  · intro h
    refine ⟨fun directory hmem hprefix => ?_, fun hmem => ?_⟩
    · have heq := h directory hmem (List.IsPrefix.trans hprefix (List.prefix_append _ _))
      have hlength := hprefix.length_le
      rw [heq, List.length_append, List.length_singleton] at hlength
      omega
    · have heq := congrArg List.length (h here hmem (List.prefix_append _ _))
      rw [List.length_append, List.length_singleton] at heq
      omega
  · rintro ⟨hseen, hopen⟩ directory hmem hprefix
    rcases List.prefix_concat_iff.1 hprefix with heq | hprefix
    · exact heq
    · exact absurd (hseen directory hmem hprefix ▸ hmem) hopen

theorem shut_dropLast (h : t.shut here = false) : t.shut here.dropLast = false := by
  rcases List.eq_nil_or_concat' here with rfl | ⟨start, last, rfl⟩
  · exact h
  · rw [List.dropLast_concat]
    exact (shut_concat.1 h).1

theorem shut_startOf (h : t.shut here = false) (target : String) : t.shut (startOf here target) = false := by
  unfold startOf
  split
  · exact shut_nil t
  · exact h

/-! ### Ways without links -/

theorem straight_nil (t : Tree) : t.Straight [] := by
  intro way hway target
  rw [List.prefix_nil.1 hway, glimpse?_of_shut (shut_nil t), entry?]
  exact fun h => nomatch h

theorem Straight.of_prefix {way : Place} (h : t.Straight place) (hway : way <+: place) : t.Straight way :=
  fun _ hfirst => h _ (hfirst.trans hway)

theorem straight_concat_iff :
    t.Straight (here ++ [name]) ↔ t.Straight here ∧ ∀ target, t.glimpse? (here ++ [name]) ≠ some (.link target) := by
  constructor
  · exact fun h => ⟨h.of_prefix (List.prefix_append _ _), h _ (List.prefix_refl _)⟩
  · rintro ⟨hhere, hlast⟩ way hway
    rcases List.prefix_concat_iff.1 hway with rfl | hway
    · exact hlast
    · exact hhere way hway

theorem Straight.startOf (h : t.Straight here) (target : String) : t.Straight (startOf here target) := by
  unfold Tree.startOf
  split
  · exact straight_nil t
  · exact h

/-- Names without a link on the way lead to the place that they spell. -/
theorem settle_of_straight (hdots : ".." ∉ names) (h : t.Straight (here ++ names)) :
    t.settle above here names = .ok (here ++ names) := by
  induction names generalizing here with
  | nil => rw [settle_nil, List.append_nil]
  | cons name rest ih =>
    obtain ⟨hname, hrest⟩ := not_or.1 (fun hor => hdots (List.mem_cons.2 hor))
    have happend : here ++ name :: rest = here ++ [name] ++ rest := by simp
    rw [happend] at h ⊢
    rw [settle_plain (Ne.symm hname) (straight_concat_iff.1 (h.of_prefix (List.prefix_append _ _))).2]
    exact ih hrest h

/-! ### Where names lead -/

/-- Names lead to one place, over the same number of links each time. -/
theorem Leads.det (h : t.Leads here names k place) {k' : Nat} {place' : Place} (h' : t.Leads here names k' place') :
    k = k' ∧ place = place' := by
  induction h generalizing k' place' with
  | nil here =>
    cases h'
    exact ⟨rfl, rfl⟩
  | dots _ ih =>
    cases h' with
    | dots h' => exact ih h'
    | plain hname => exact absurd rfl hname
    | link hname => exact absurd rfl hname
  | plain hname hno _ ih =>
    cases h' with
    | dots => exact absurd rfl hname
    | plain _ _ h' => exact ih h'
    | link _ hlink => exact absurd hlink (hno _)
  | link hname hlink _ _ ihnext ih =>
    cases h' with
    | dots => exact absurd rfl hname
    | plain _ hno => exact absurd hlink (hno _)
    | link _ hlink' hnext' h' =>
      cases hlink.symm.trans hlink'
      obtain ⟨rfl, rfl⟩ := ihnext hnext'
      obtain ⟨rfl, rfl⟩ := ih h'
      exact ⟨rfl, rfl⟩

/-- No link is seen on the way to a place that is led to. -/
theorem Leads.straight (h : t.Leads here names k place) (hhere : t.Straight here) : t.Straight place := by
  induction h with
  | nil => exact hhere
  | dots _ ih => exact ih (hhere.of_prefix (List.dropLast_prefix _))
  | plain _ hno _ ih => exact ih (straight_concat_iff.2 ⟨hhere, hno⟩)
  | link _ _ _ _ ihnext ih => exact ih (ihnext (hhere.startOf _))

theorem leads_of_settle (h : t.settle above here names = .ok place) : ∃ k, t.Leads here names k place := by
  induction above, here, names using settle.induct t generalizing place with
  | case1 above here =>
    rw [settle_nil] at h
    cases h
    exact ⟨0, .nil here⟩
  | case2 above here rest ih =>
    rw [settle_dots] at h
    obtain ⟨k, hk⟩ := ih h
    exact ⟨k, .dots hk⟩
  | case3 above here name rest hname target hlink habove =>
    rw [List.contains_iff_mem] at habove
    rw [settle_circle hname hlink habove] at h
    cases h
  | case4 above here name rest hname target hlink hnew next hnext ihlink ihrest =>
    rw [List.contains_iff_mem] at hnew
    rw [settle_link hname hlink hnew, hnext] at h
    obtain ⟨j, hj⟩ := ihlink hnext
    obtain ⟨k, hk⟩ := ihrest h
    exact ⟨j + k + 1, .link hname hlink hj hk⟩
  | case5 above here name rest hname target hlink hnew stuck hstuck ihlink =>
    rw [List.contains_iff_mem] at hnew
    rw [settle_link hname hlink hnew, hstuck] at h
    cases h
  | case6 above here name rest hname hno ih =>
    rw [settle_plain hname hno] at h
    obtain ⟨k, hk⟩ := ih h
    exact ⟨k, .plain hname hno hk⟩

/-- Names that lead somewhere lead in no circle, if each link that is being followed takes at least as many links. -/
theorem Leads.settle (h : t.Leads here names k place)
    (habove : ∀ here' name' target j next, here' ++ [name'] ∈ above →
      t.glimpse? (here' ++ [name']) = some (.link target) →
      t.Leads (startOf here' target) (components target) j next → k ≤ j) :
    t.settle above here names = .ok place := by
  induction h generalizing above with
  | nil here => exact settle_nil t above here
  | dots _ ih => exact (settle_dots ..).trans (ih habove)
  | plain hname hno _ ih => exact (settle_plain hname hno).trans (ih habove)
  | @link here name target rest j k next place hname hlink hnext hrest ihnext ih =>
    -- the link takes fewer links than the names, so it is not being followed
    have hnew : here ++ [name] ∉ above := by
      intro hmem
      have hle := habove here name target j next hmem hlink hnext
      omega
    have htarget : t.settle ((here ++ [name]) :: above) (startOf here target) (components target) = .ok next := by
      refine ihnext fun here' name' target' j' next' hmem hlink' hnext' => ?_
      rcases List.mem_cons.1 hmem with heq | hmem
      · obtain ⟨rfl, ⟨⟩⟩ := List.append_inj' heq rfl
        cases hlink.symm.trans hlink'
        exact Nat.le_of_eq (hnext.det hnext').1
      · have hle := habove here' name' target' j' next' hmem hlink' hnext'
        omega
    rw [settle_link hname hlink hnew, htarget]
    refine ih fun here' name' target' j' next' hmem hlink' hnext' => ?_
    have hle := habove here' name' target' j' next' hmem hlink' hnext'
    omega

/-- Names lead in no circle exactly if they lead somewhere. -/
theorem settle_eq_ok_iff : t.settle [] here names = .ok place ↔ ∃ k, t.Leads here names k place :=
  ⟨leads_of_settle, fun ⟨_, h⟩ => h.settle fun _ _ _ _ _ hmem => absurd hmem List.not_mem_nil⟩

/-! ### Walks -/

theorem Leads.of_append (h : t.Leads here (names ++ rest) k place) :
    ∃ i j next, t.Leads here names i next ∧ t.Leads next rest j place ∧ k = i + j := by
  induction names generalizing here k with
  | nil => exact ⟨0, k, here, .nil here, h, (Nat.zero_add k).symm⟩
  | cons name names ih =>
    rw [List.cons_append] at h
    cases h with
    | dots h =>
      obtain ⟨i, j, next, hfirst, hrest, rfl⟩ := ih h
      exact ⟨i, j, next, .dots hfirst, hrest, rfl⟩
    | plain hname hno h =>
      obtain ⟨i, j, next, hfirst, hrest, rfl⟩ := ih h
      exact ⟨i, j, next, .plain hname hno hfirst, hrest, rfl⟩
    | link hname hlink hnext h =>
      obtain ⟨i, j, next, hfirst, hrest, rfl⟩ := ih h
      exact ⟨_, j, next, .link hname hlink hnext hfirst, hrest, by omega⟩

/-- The first step of a walk, if the walk comes to an end. -/
theorem walk_cons_eq_ok (h : t.walk true links here (name :: rest) = .ok place) :
    here ∉ t.closed ∧
    ((name = ".." ∧ t.walk true links here.dropLast rest = .ok place) ∨
    (name ≠ ".." ∧ (∀ target, t.entry? (here ++ [name]) ≠ some (.link target)) ∧
      t.walk true links (here ++ [name]) rest = .ok place) ∨
    ∃ target left, name ≠ ".." ∧ t.entry? (here ++ [name]) = some (.link target) ∧ links = left + 1 ∧
      t.walk true left (startOf here target) (components target ++ rest) = .ok place) := by
  rw [walk] at h
  split at h
  · split at h
    · cases h
    · next hopen =>
      refine ⟨by simpa using hopen, ?_⟩
      split at h
      · next hname => exact Or.inl ⟨hname, h⟩
      · next hname =>
        split at h
        · cases h
        · split at h
          · cases h
          · next target hlink =>
            rw [if_neg (by simp)] at h
            split at h
            · cases h
            · next left =>
              split at h
              · cases h
              · exact Or.inr (Or.inr ⟨target, left, hname, hlink, rfl, h⟩)
          · next e hno hentry =>
            refine Or.inr (Or.inl ⟨hname, fun target hlink => ?_, h⟩)
            rw [hentry] at hlink
            exact hno target (Option.some.inj hlink)
  · cases h

/-- A walk that starts where everything is seen comes to where its names lead. -/
theorem leads_of_walk (hseen : t.shut here = false) (h : t.walk true links here names = .ok place) :
    ∃ k, t.Leads here names k place := by
  induction links using Nat.strongRecOn generalizing here names place with
  | ind links ihlinks =>
    induction names generalizing here with
    | nil =>
      rw [walk] at h
      cases h
      exact ⟨0, .nil _⟩
    | cons name rest ih =>
      obtain ⟨hopen, hstep⟩ := walk_cons_eq_ok h
      -- the next name is seen as it is
      have hnext : t.shut (here ++ [name]) = false := shut_concat.2 ⟨hseen, hopen⟩
      rcases hstep with ⟨rfl, hwalk⟩ | ⟨hname, hno, hwalk⟩ | ⟨target, left, hname, hlink, rfl, hwalk⟩
      · obtain ⟨k, hk⟩ := ih (shut_dropLast hseen) hwalk
        exact ⟨k, .dots hk⟩
      · obtain ⟨k, hk⟩ := ih hnext hwalk
        exact ⟨k, .plain hname (glimpse?_of_shut hnext ▸ hno) hk⟩
      · obtain ⟨k, hk⟩ := ihlinks left (Nat.lt_succ_self left) (shut_startOf hseen target) hwalk
        obtain ⟨i, j, next, hfirst, hrest, -⟩ := hk.of_append
        exact ⟨i + j + 1, .link hname ((glimpse?_of_shut hnext).trans hlink) hfirst hrest⟩

/-! ### Real paths -/

/-- Links on the way of a path lead in a circle. -/
def Circular (t : Tree) (path : String) : Prop := ∃ stuck, t.settle [] [] (components path) = .error stuck

/-- The names that lead to a place, or up to a circle and on from there. -/
def namesOf : Except (List String) Place → List String
  | .ok place => place
  | .error stuck => stuck

theorem isName_of_settle (hhere : ∀ n ∈ here, IsName n) (hnames : ∀ n ∈ names, IsName n) :
    ∀ n ∈ namesOf (t.settle above here names), IsName n := by
  have hstart : ∀ {here : Place} (target : String), (∀ n ∈ here, IsName n) → ∀ n ∈ startOf here target, IsName n := by
    intro here target hhere
    unfold startOf
    split
    · exact fun n hn => absurd hn List.not_mem_nil
    · exact hhere
  have hconcat : ∀ {here : Place} {name : String} {rest : List String}, (∀ n ∈ here, IsName n) →
      (∀ n ∈ name :: rest, IsName n) → ∀ n ∈ here ++ [name], IsName n := fun hhere hnames =>
    List.forall_mem_append.2 ⟨hhere, List.forall_mem_singleton.2 (hnames _ List.mem_cons_self)⟩
  induction above, here, names using settle.induct t with
  | case1 above here =>
    rw [settle_nil]
    exact hhere
  | case2 above here rest ih =>
    rw [settle_dots]
    exact ih (fun n hn => hhere n (List.dropLast_subset here hn)) (List.forall_mem_cons.1 hnames).2
  | case3 above here name rest hname target hlink habove =>
    rw [List.contains_iff_mem] at habove
    rw [settle_circle hname hlink habove]
    exact List.forall_mem_append.2 ⟨hhere, hnames⟩
  | case4 above here name rest hname target hlink hnew next hnext ihlink ihrest =>
    rw [List.contains_iff_mem] at hnew
    rw [settle_link hname hlink hnew, hnext]
    rw [hnext] at ihlink
    exact ihrest (ihlink (hstart target hhere) fun n hn => isName_of_mem_components hn)
      (List.forall_mem_cons.1 hnames).2
  | case5 above here name rest hname target hlink hnew stuck hstuck ihlink =>
    rw [List.contains_iff_mem] at hnew
    rw [settle_link hname hlink hnew, hstuck]
    rw [hstuck] at ihlink
    exact List.forall_mem_append.2
      ⟨ihlink (hstart target hhere) fun n hn => isName_of_mem_components hn, (List.forall_mem_cons.1 hnames).2⟩
  | case6 above here name rest hname hno ih =>
    rw [settle_plain hname hno]
    exact ih (hconcat hhere hnames) (List.forall_mem_cons.1 hnames).2

theorem Leads.dots_not_mem (h : t.Leads here names k place) (hhere : ".." ∉ here) : ".." ∉ place := by
  induction h with
  | nil => exact hhere
  | dots _ ih => exact ih fun hmem => hhere (List.dropLast_subset _ hmem)
  | plain hname _ _ ih =>
    refine ih fun hmem => ?_
    rcases List.mem_append.1 hmem with hmem | hmem
    · exact hhere hmem
    · exact hname (List.mem_singleton.1 hmem).symm
  | link _ _ _ _ ihnext ih =>
    refine ih (ihnext ?_)
    unfold startOf
    split
    · exact List.not_mem_nil
    · exact hhere

theorem isName_of_mem_settle (t : Tree) (path : String) : ∀ n ∈ namesOf (t.settle [] [] (components path)), IsName n :=
  isName_of_settle (fun _ hn => absurd hn List.not_mem_nil) fun _ hn => isName_of_mem_components hn

/-- A place that an absolute path leads to without a circle has names that spell it, and no link on its way. -/
theorem place_of_settle (h : t.settle [] [] (components path) = .ok place) :
    (∀ n ∈ place, IsName n) ∧ ".." ∉ place ∧ t.Straight place := by
  obtain ⟨k, hk⟩ := leads_of_settle h
  have hnames := isName_of_mem_settle t path
  rw [h] at hnames
  exact ⟨hnames, hk.dots_not_mem List.not_mem_nil, hk.straight (straight_nil t)⟩

/-- A real path is made of names without pairs of dots. -/
theorem exists_realPath (t : Tree) (path : String) :
    ∃ names, (∀ n ∈ names, IsName n) ∧ ".." ∉ names ∧ t.realPath path = "/" ++ joinNames names := by
  unfold realPath
  cases hsettle : t.settle [] [] (components path) with
  | ok place =>
    obtain ⟨hnames, hdots, -⟩ := place_of_settle hsettle
    exact ⟨place, hnames, hdots, rfl⟩
  | error stuck =>
    have hnames := isName_of_mem_settle t path
    rw [hsettle] at hnames
    exact ⟨collapse stuck, fun n hn => hnames n (mem_collapse hn), dots_not_mem_collapse, rfl⟩

theorem components_slash_joinNames (h : ∀ n ∈ names, IsName n) : components ("/" ++ joinNames names) = names := by
  have hempty : "/" ++ joinNames names = "" ++ "/" ++ joinNames names := by rw [String.empty_append]
  rw [hempty, components_append, components_empty, List.nil_append, components_joinNames h]

/-- A real path that is found without a circle has no link on its way. -/
theorem straight_realPath (h : ¬ t.Circular path) : t.Straight (components (t.realPath path)) := by
  cases hsettle : t.settle [] [] (components path) with
  | ok place =>
    obtain ⟨hnames, -, hstraight⟩ := place_of_settle hsettle
    rw [realPath, hsettle, components_slash_joinNames hnames]
    exact hstraight
  | error stuck => exact absurd ⟨stuck, hsettle⟩ h

/-- A path without links on its way is its own real path. -/
theorem realPath_of_straight (hnames : ∀ n ∈ names, IsName n) (hdots : ".." ∉ names) (h : t.Straight names) :
    t.realPath ("/" ++ joinNames names) = "/" ++ joinNames names := by
  have hsettle : t.settle [] [] names = .ok names := settle_of_straight hdots h
  rw [realPath, components_slash_joinNames hnames, hsettle]

/-- A path that leads somewhere is its own real path exactly if no link stands on its way. -/
theorem realPath_eq_self_iff (hnames : ∀ n ∈ names, IsName n) (hdots : ".." ∉ names)
    (h : t.locate ("/" ++ joinNames names) = .ok place) :
    t.realPath ("/" ++ joinNames names) = "/" ++ joinNames names ↔ t.Straight names := by
  refine ⟨fun hself => ?_, realPath_of_straight hnames hdots⟩
  have hcomponents := components_slash_joinNames hnames
  have hsettle : t.settle [] [] (components ("/" ++ joinNames names)) = .ok place := by
    rw [locate, locateLast] at h
    split at h
    · cases h
    · split at h
      · cases h
      · exact settle_eq_ok_iff.2 (leads_of_walk (shut_nil t) h)
  obtain ⟨hplace, -, hstraight⟩ := place_of_settle hsettle
  rw [realPath, hsettle] at hself
  dsimp only at hself
  have hsame : place = names := by rw [← components_slash_joinNames hplace, hself, hcomponents]
  exact hsame ▸ hstraight

end Stencil.Files.Tree
