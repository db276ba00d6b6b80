import Stencil.Proofs.Session.Provenance
import Stencil.Proofs.Session.Rereading

/-!
# Texts that are replaced

A task asks for a file when the cache has no text of it, and several tasks can do so before the first of
them comes back: templates that are compiled at once share what they include, but not their fetches. Each
task keeps what it has read if the version of the template is still that of the moment at which it asked.
Whether the cache has been given a text by another task in between is not looked at.

So a text can be replaced without an invalidation, by a fetch that is late (`Run.Late`): one that was asked
for before the text was there and comes back after it. Nothing else can replace it, so a text stays exactly
if all the late fetches have read the same text (`Run.stays_iff`). In `Race` the file changes between two
fetches, and the text of the first one is replaced by that of the second one.
-/

namespace Stencil

namespace Session

/-- What a task goes on with is kept, whatever the cache has of the template, if the version is the one that
the task waits for. -/
theorem source_of_resume {s : Session} {k : Nat} {t : Task} {w : Reading.Wait}
    {content : Except Files.Fault (List UInt8)} {text : String} (hk : s.tasks[k]? = some t)
    (hphase : t.phase = .fetched w content) (htext : s.textOf w.id content = .ok text)
    (hversion : s.cache.version w.id = w.version) :
    (s.step (.resume k)).cache.sources.get? w.id = some text := by
  show (s.resume k).cache.sources.get? w.id = some text
  rw [resume_eq hk hphase, htext]
  dsimp only
  obtain ⟨t', -, h⟩ := advanced_advance (s.receive w text) k t
    (Reading.resume (s.receive w text).desk w text ((s.receive w text).trail t))
  rw [h.sources, sources_receive, if_pos ⟨rfl, hversion⟩]

/-- A task that starts waits for its template if there is no text of it. -/
theorem start_absent {s : Session} {k : Nat} {id : String}
    (hk : s.tasks[k]? = some { job := .compile id }) (hs : s.cache.sources.get? id = none) :
    s.start k = (s.note [.compiling id]).advance k { job := .compile id }
      (.waits ⟨id, s.cache.version id, []⟩, Trail.enter s.desk ⟨s.cache.relations, []⟩ id none) := by
  have hread := Reading.readTemplate_waits s.desk List.not_mem_nil hs none ⟨s.cache.relations, []⟩
  unfold start
  rw [hk]
  exact congrArg ((s.note [.compiling id]).advance k { job := .compile id }) hread

end Session

namespace Run

variable {r : Run} {i n k : Nat} {d : String}

/-- A task that waits for a file has found no text of it, and waits for the version of that moment. -/
theorem Waits.began {w : Reading.Wait} (h : r.Waits k w i n) :
    r.version i w.id = w.version ∧ (r.before (i + 1)).cache.sources.get? w.id = none := by
  have hnew : r.phase i k ≠ some (.fetching w) := by
    intro hphase
    rcases h.asks with ⟨-, hstarting⟩ | ⟨-, w', content, hfetched⟩
    · rw [hphase] at hstarting
      exact nomatch hstarting
    · rw [hphase] at hfetched
      exact nomatch hfetched
  obtain ⟨e, he⟩ : ∃ e, r.events[i]? = some e := by
    rcases h.asks with ⟨he, -⟩ | ⟨he, -⟩ <;> exact ⟨_, he⟩
  obtain ⟨t', ht', hphase⟩ := phase_eq.1 (h.waiting (i + 1) (Nat.lt_succ_self i) h.lt)
  rcases (change he).task_cases ht' with hold | ⟨job, rfl, -⟩ | ⟨t, -, hmoves⟩
  · exact absurd (phase_eq.2 ⟨t', hold, hphase⟩) hnew
  · exact nomatch hphase
  · obtain ⟨hversion, -, habsent⟩ := hmoves.waits hphase
    exact ⟨hversion.symm, habsent⟩

/-- What is fetched is kept if its template has not been invalidated since the file was asked for. -/
theorem Fetched.stored {f : Fetch} (h : r.Fetched f) (hun : r.Untouched f.asked f.back f.id) :
    (r.before (f.back + 1)).cache.sources.get? f.id = some f.text := by
  have hback : f.back ≤ r.events.length := (List.getElem?_eq_some_iff.1 h.resumed).1.le
  obtain ⟨t, ht, hphase⟩ := phase_eq.1 (h.holds.holding f.back h.holds.lt le_rfl)
  have hversion : r.version f.back f.wait.id = f.wait.version :=
    ((untouched_iff h.asked_lt_back.le hback).1 hun).trans h.holds.waits.began.1
  rw [before_succ h.resumed]
  exact Session.source_of_resume ht hphase h.text hversion

/-- With an event that does not invalidate its template a text stays, or one that has been fetched takes its
place. -/
theorem source_succ {e : Event} {text : String} (he : r.events[n]? = some e)
    (hd : (r.before n).cache.sources.get? d = some text) (hno : ¬ (r.before n).Invalidates e d) :
    (r.before (n + 1)).cache.sources.get? d = some text ∨
      ∃ f, r.Fetched f ∧ f.id = d ∧ f.back = n ∧ r.Untouched f.asked f.back f.id ∧
        (r.before (n + 1)).cache.sources.get? d = some f.text := by
  obtain ⟨text', htext'⟩ := Option.isSome_iff_exists.1
    ((change he).sources_isSome (by rw [hd]; rfl) hno)
  rcases (change he).sources_cases htext' with
      ⟨hold, -⟩ | ⟨k, t, w, content, rfl, hk, hphase, htext, rfl, hversion⟩
  · rw [htext', ← hold]
    exact Or.inl hd
  · obtain ⟨f, hf, -, rfl, rfl, rfl, hasked⟩ := fetched_of_resume he hk hphase htext
    have hback : f.back ≤ r.events.length := (List.getElem?_eq_some_iff.1 he).1.le
    have hun : r.Untouched f.asked f.back f.id :=
      (untouched_iff hf.asked_lt_back.le hback).2 (hversion.trans hasked.symm)
    exact Or.inr ⟨f, hf, rfl, rfl, hun, htext'⟩

variable (r) in
/-- A file that was asked for before the `i`-th moment comes back after it, and before the `n`-th one, its
template not having been invalidated meanwhile. -/
structure Late (f : Fetch) (i n : Nat) : Prop where
  fetched : r.Fetched f
  asked_lt : f.asked < i
  le_back : i ≤ f.back
  back_lt : f.back < n
  untouched : r.Untouched f.asked f.back f.id

/-- A text that is in the cache stays there, as long as its template is not invalidated, exactly if every
late fetch of the template has read the same text. -/
theorem stays_iff {text : String} (hn : n ≤ r.events.length)
    (hd : (r.before i).cache.sources.get? d = some text) (hun : r.Untouched i n d) :
    (∀ m, i ≤ m → m ≤ n → (r.before m).cache.sources.get? d = some text) ↔
      ∀ f, r.Late f i n → f.id = d → f.text = text := by
  constructor
  · rintro hstays f hlate rfl
    have hstored := hlate.fetched.stored hlate.untouched
    rw [hstays (f.back + 1) (hlate.le_back.trans (Nat.le_succ _)) hlate.back_lt] at hstored
    exact (Option.some.inj hstored).symm
  · intro hlate m
    induction m using Nat.strong_induction_on with
    | _ m ih =>
      intro him hmn
      rcases Nat.eq_or_lt_of_le him with rfl | hlt
      · exact hd
      obtain ⟨p, rfl⟩ : ∃ p, m = p + 1 := Nat.exists_eq_succ_of_ne_zero (Nat.ne_zero_of_lt hlt)
      have hip : i ≤ p := Nat.le_of_lt_succ hlt
      obtain ⟨e, he⟩ : ∃ e, r.events[p]? = some e := ⟨_, List.getElem?_eq_getElem (hmn.trans hn)⟩
      have hbefore := ih p (Nat.lt_succ_self p) hip (Nat.le_of_succ_le hmn)
      rcases source_succ he hbefore fun hi => hun p hip hmn ⟨e, he, hi⟩ with
          hstays | ⟨f, hf, rfl, rfl, huntouched, htext⟩
      · exact hstays
      rcases Nat.lt_or_ge f.asked i with hearly | hlater
      · rw [htext, hlate f ⟨hf, hearly, hip, hmn, huntouched⟩ rfl]
      -- no task asks for a file while its text is there
      · have hthere := ih (f.asked + 1) (Nat.succ_lt_succ hf.asked_lt_back)
          (hlater.trans (Nat.le_succ _)) (hf.asked_lt_back.trans hmn)
        have habsent : (r.before (f.asked + 1)).cache.sources.get? f.id = none := hf.holds.waits.began.2
        rw [habsent] at hthere
        exact nomatch hthere

end Run

/-! ### Two fetches of one file -/

namespace Race

open Linked (bytes)

/-- A template that includes another file, and that file with some text. -/
def tree (text : String) : Files.Tree :=
  { entries := [(["v"], .directory), (["v", "a.mjs"], .file (bytes "<%include 'd'%>")),
      (["v", "d"], .file (bytes text))] }

/-- Both are compiled at once. The file is read for each of them, and it changes in between. -/
def run : Run where
  settings := { root := "/v", compress := false }
  tree := tree "old"
  events := [.call "d", .call "a.mjs", .start 1, .fetch 1, .resume 1, .start 0, .fetch 0,
    .change (tree "new"), .fetch 1, .resume 0, .resume 1]

/-- What the task of the template waits for first. -/
def template : Reading.Wait := ⟨"a.mjs", ⟨0, 0⟩, []⟩

/-- What it waits for inside its include. -/
def included : Reading.Wait := ⟨"d", ⟨0, 0⟩, [⟨"a.mjs", "", [.literal []]⟩]⟩

/-- What the task of the file waits for. -/
def file : Reading.Wait := ⟨"d", ⟨0, 0⟩, []⟩

/-- The session when both have been called for. -/
def called : Session := ((run.before 0).withCompile "d").withCompile "a.mjs"

/-- The session when the task of the template waits for it. -/
def waiting : Session :=
  (called.note [.compiling "a.mjs"]).advance 1 { job := .compile "a.mjs" }
    (.waits template, Trail.enter called.desk ⟨{}, []⟩ "a.mjs" none)

/-- The task of the template when its file has been read. -/
def reader : Task where
  job := .compile "a.mjs"
  phase := .fetched template ((tree "old").read "/v/a.mjs")
  taken := [("a.mjs", ⟨0, 0⟩)]

/-- The session when the text of the template has come. -/
def received : Session := (waiting.fetch 1).receive template "<%include 'd'%>"

/-- The session when the task of the template waits for the file. -/
def including : Session :=
  received.advance 1 reader
    (.waits included, Trail.enter received.desk (received.trail reader) "d" (some "a.mjs"))

/-- The session when the file has been read for both tasks. -/
def racing : Session :=
  let asked := (including.note [.compiling "d"]).advance 0 { job := .compile "d" }
    (.waits file, Trail.enter including.desk ⟨including.cache.relations, []⟩ "d" none)
  Session.fetch { asked.fetch 0 with tree := tree "new" } 1

theorem before_two : run.before 2 = called := by
  have hd : (run.before 0).call "d" = (.pending 0, (run.before 0).withCompile "d") :=
    Session.call_of_none (by decide) rfl rfl
  have ha : ((run.before 0).withCompile "d").call "a.mjs" = (.pending 1, called) :=
    Session.call_of_none (by decide) rfl rfl
  show (((run.before 0).call "d").2.call "a.mjs").2 = called
  rw [hd, ha]

theorem segments_a :
    segmentsOf "a.mjs" "<%include 'd'%>" = [.literal [], .include ['d'], .literal []] := by
  have htemplate : Identifier.isTemplate "a.mjs" = true := by decide
  have hinclude : include? "<%include 'd'%>".toList = some (['d'], []) := by decide
  rw [segmentsOf, if_pos htemplate, segments, segmentsAfter_include hinclude, segmentsAfter_nil]
  rfl

theorem load_a : waiting.load "a.mjs" = .ok "<%include 'd'%>" := by
  have hpath : Files.components (waiting.path "a.mjs") = ["v", "a.mjs"] := by decide
  have hentry : waiting.tree.entry? ["v", "a.mjs"] = some (.file (bytes "<%include 'd'%>")) := by decide
  exact Session.load_of_entries hpath (by decide) (by decide) (by decide) (by decide) hentry (by decide) (by decide)

theorem load_d {s : Session} {text : String} (hroot : s.root = "/v") (htree : s.tree = tree text)
    (htext : Text.decode (bytes text) = .ok text) : s.load "d" = .ok text := by
  have hpath : s.path "d" = "/v/d" := by
    rw [Session.path, hroot]
    decide
  have hcomponents : Files.components (s.path "d") = ["v", "d"] := by
    rw [hpath]
    decide
  have hdirectories : ∀ i < 2, Files.Tree.Enters (tree text) (["v", "d"].take i) := by
    intro i hi
    rcases i with _ | _ | i
    · exact ⟨rfl, List.not_mem_nil⟩
    · exact ⟨rfl, List.not_mem_nil⟩
    · omega
  have hreadable : ["v", "d"] ∉ s.tree.unreadable := htree ▸ List.not_mem_nil
  have hloaded : Reading.ofBytes s.shrinkers.stylesheet "d" (bytes text) = .ok text := by
    rw [Reading.ofBytes, htext]
    rfl
  have hentry : Files.Tree.entry? (tree text) ["v", "d"] = some (.file (bytes text)) := rfl
  exact Session.load_of_entries hcomponents (by rw [hpath]; decide) (by rw [hpath]; decide) (by decide)
    (htree ▸ hdirectories) (htree ▸ hentry) hreadable hloaded

/-- The task of the template comes to its include, of which there is no text. -/
theorem resume_reader :
    Reading.resume received.desk template "<%include 'd'%>" (received.trail reader) =
      (.waits included, Trail.enter received.desk (received.trail reader) "d" (some "a.mjs")) := by
  have hname : received.desk.normalize (String.ofList ['d']) = .ok "d" := by decide
  rw [Reading.resume_eq, template, segments_a, Reading.readSegments_literal,
    Reading.readSegments_include _ _ _ _ hname, Reading.readTemplate_waits _ (by decide) rfl]
  rfl

theorem before_five : run.before 5 = including := by
  have hstart : called.start 1 = waiting := Session.start_absent rfl rfl
  have hresume : (waiting.fetch 1).resume 1 = including := by
    have htext : (waiting.fetch 1).textOf template.id ((tree "old").read "/v/a.mjs") =
      .ok "<%include 'd'%>" := load_a
    rw [Session.resume_eq (s := waiting.fetch 1) (k := 1) (t := reader) rfl rfl, htext]
    exact congrArg (received.advance 1 reader) resume_reader
  rw [Run.before_succ (n := 4) rfl, Run.before_succ (n := 3) rfl, Run.before_succ (n := 2) rfl, before_two]
  show ((called.start 1).fetch 1).resume 1 = including
  rw [hstart, hresume]

theorem before_nine : run.before 9 = racing := by
  have hstart := Session.start_absent (s := including) (k := 0) rfl rfl
  rw [Run.before_succ (n := 8) rfl, Run.before_succ (n := 7) rfl, Run.before_succ (n := 6) rfl,
    Run.before_succ (n := 5) rfl, before_five]
  show Session.fetch { (including.start 0).fetch 0 with tree := tree "new" } 1 = racing
  rw [hstart]
  rfl

/-- The task of the file keeps what it has read. -/
theorem source_ten : (run.before 10).cache.sources.get? "d" = some "old" := by
  have htext : racing.textOf file.id ((tree "old").read "/v/d") = .ok "old" :=
    load_d (s := run.before 0) rfl rfl (by decide)
  rw [Run.before_succ (n := 9) rfl, before_nine]
  exact Session.source_of_resume (k := 0) rfl rfl htext rfl

/-- The task of the template keeps what it has read, in its place. -/
theorem source_eleven : (run.before 11).cache.sources.get? "d" = some "new" := by
  obtain ⟨t', htasks, hmoves⟩ := Session.moves_resume (s := racing) (k := 0) rfl rfl
  have hversion : (racing.step (.resume 0)).cache.version "d" = ⟨0, 0⟩ :=
    congrFun hmoves.version "d"
  have hk : (racing.step (.resume 0)).tasks[1]? = racing.tasks[1]? := by
    show (racing.resume 0).tasks[1]? = racing.tasks[1]?
    rw [htasks, List.getElem?_set_ne (by decide)]
  have htext : (racing.step (.resume 0)).textOf included.id ((tree "new").read "/v/d") = .ok "new" := by
    have hroot : (racing.step (.resume 0)).root = "/v" :=
      congrArg Config.Settings.root (Session.settings_step racing (.resume 0)).1
    have hpath : (racing.step (.resume 0)).path "d" = "/v/d" := by
      rw [Session.path, hroot]
      decide
    rw [← hpath]
    exact load_d (s := { racing.step (.resume 0) with tree := tree "new" }) hroot rfl (by decide)
  rw [Run.before_succ (n := 10) rfl, Run.before_succ (n := 9) rfl, before_nine]
  exact Session.source_of_resume hk rfl htext hversion

theorem untouched : run.Untouched 10 11 "d" := by
  rintro j hj hj' ⟨e, he, hi⟩
  obtain rfl : j = 10 := by omega
  obtain rfl : .resume 1 = e := Option.some.inj he
  exact hi

/-- The text that the cache has of the file is replaced by another one, though the file is not
invalidated. -/
theorem text_replaced :
    (run.before 10).cache.sources.get? "d" = some "old" ∧
      (run.before 11).cache.sources.get? "d" = some "new" ∧ run.Untouched 10 11 "d" :=
  ⟨source_ten, source_eleven, untouched⟩

/-- The fetch that replaces it is late. -/
theorem late_fetch : ∃ f, run.Late f 10 11 ∧ f.id = "d" ∧ f.text ≠ "old" := by
  by_contra hno
  have hlate : ∀ f, run.Late f 10 11 → f.id = "d" → f.text = "old" := by
    intro f hf hid
    by_contra hne
    exact hno ⟨f, hf, hid, hne⟩
  have hstays := (Run.stays_iff (by decide) source_ten untouched).2 hlate 11 (by decide) le_rfl
  rw [source_eleven] at hstays
  exact absurd hstays (by decide)

end Race

end Stencil
