import Stencil.Config.Settings
import Stencil.Minify
import Stencil.Session.Fault

/-!
# A compiler at work

A compiler answers calls by name. A template that is cached is given at once; for any other a task is
started, and calls for a template whose task is still under way wait for that task. A task reads its
template, and each time it needs a file it stops until the file has been read. Between two stops
nothing else happens, so a run of the compiler is a list of events: calls, the steps of the tasks in
any order, invalidations, and changes of the files.

A text is kept only if its template was not invalidated since the file was asked for, and a compiled
template only if none of the templates it is made of was.
-/

namespace Stencil

/-- A compiled template as one of those that a session made, by its number. -/
structure Artifact where
  number : Nat
  template : CompiledTemplate

instance : Held Artifact := ⟨fun _ => true⟩

/-- What a task is for. -/
inductive Job where
  /-- A template is compiled. -/
  | compile (id : String)
  /-- A template is only read, perhaps as the include of another. -/
  | read (id : String) (parent : Option String)
  deriving Repr, DecidableEq

namespace Job

/-- The template that a job is about. -/
def id : Job → String
  | compile id => id
  | read id _ => id

/-- The template that includes the one that a job is about. -/
def parent : Job → Option String
  | compile _ => none
  | read _ parent => parent

end Job

/-- What a task comes to. -/
inductive Product where
  | compiled (a : Artifact)
  /-- A text with the versions of the templates it is made of. -/
  | text (s : String) (taken : Snapshot)

/-- How far a task is. -/
inductive Phase where
  | starting
  /-- A file was asked for. -/
  | fetching (w : Reading.Wait)
  /-- The file was read, and the task has not gone on yet. -/
  | fetched (w : Reading.Wait) (content : Except Files.Fault (List UInt8))
  | finished (result : Except Fault Product)

/-- A task: its job, how far it is, and the versions that it has taken. -/
structure Task where
  job : Job
  phase : Phase := .starting
  taken : Snapshot := []

/-- A compiler with its files, its cache and its tasks, which are known by their places in the list. -/
structure Session where
  settings : Config.Settings
  shrinkers : Shrinkers := {}
  tree : Files.Tree
  cache : Cache String Artifact := {}
  tasks : List Task := []
  /-- The tasks that calls can still join, by template. -/
  inflight : List (String × Nat) := []
  /-- How many templates were compiled. -/
  made : Nat := 0
  /-- The templates whose files were asked for, the first one first. -/
  asked : List String := []
  /-- Whether the cache is reset again and again. -/
  watching : Bool := false
  notes : List Note := []

/-- What can happen to a compiler. -/
inductive Event where
  /-- A template is called for by a name. -/
  | call (name : String)
  /-- A template is called for to be read only. -/
  | read (id : String) (parent : Option String)
  /-- A task starts. -/
  | start (task : Nat)
  /-- The file that a task waits for is read. -/
  | fetch (task : Nat)
  /-- A task goes on with the file that was read. -/
  | resume (task : Nat)
  /-- A finished task can no longer be joined. -/
  | settle (task : Nat)
  /-- A template is invalidated by a name. -/
  | invalidate (name : String)
  | invalidateAll
  | clear
  /-- The files change. -/
  | change (tree : Files.Tree)

/-- How a call is answered. -/
inductive Reply where
  | refused (f : Fault)
  | ready (a : Artifact)
  | pending (task : Nat)

namespace Session

/-- The directory that templates lie in. -/
def root (s : Session) : String := s.settings.root

/-- The path of a template's file. -/
def path (s : Session) (id : String) : String := Files.under s.root id

/-- The identifier of the template of a name. -/
def normalize (s : Session) (name : String) : Except NameFault String :=
  Identifier.normalize s.tree s.root s.root name

/-- The session with something noted. -/
def note (s : Session) (notes : List Note) : Session := { s with notes := s.notes ++ notes }

/-- The session with another cache. -/
def setCache (s : Session) (cache : Cache String Artifact) : Session := { s with cache }

/-- What a reading works with at this moment. -/
def desk (s : Session) : Reading.Desk :=
  { normalize := s.normalize, sources := s.cache.sources, version := s.cache.version }

/-- The session with a task in its place. -/
def setTask (s : Session) (k : Nat) (t : Task) : Session := { s with tasks := s.tasks.set k t }

/-- The session after a task has ended. -/
def finish (s : Session) (k : Nat) (t : Task) (result : Except Fault Product) : Session :=
  s.setTask k { t with phase := .finished result }

/-- A flattened template as it is compiled, with what is noted on the way. -/
def shrink (s : Session) (id source : String) : Except Fault (String × List Note) :=
  if !s.settings.compress then .ok (source, [])
  else
    let shrunk :=
      if Identifier.isStylesheet id then (s.shrinkers.stylesheet source).map fun text => (text, [])
      else minify s.shrinkers.script source
    match shrunk with
    | .error f => .error (.shrink f)
    | .ok (text, notes) => .ok (text, notes ++ [.shrunk id ⟨source.length, text.length⟩])

/-- The options that templates are compiled with. -/
def options : Language.Options := { keepLastLineEnd := true }

/-- Compiles what a task has read, and keeps the result if nothing in it was invalidated. -/
def compileSource (s : Session) (k : Nat) (t : Task) (id source : String) : Session :=
  match s.shrink id source with
  | .error f => s.finish k t (.error f)
  | .ok (text, notes) =>
    let s := s.note notes
    match CompiledTemplate.compile options text (some id) with
    | .error (.rejected r a n) => (s.note [n]).finish k t (.error (.engine (.rejected r a n)))
    | .error .malformed => s.finish k t (.error (.engine .malformed))
    | .ok template =>
      let a : Artifact := { number := s.made, template }
      let s := { s with made := s.made + 1 }
      let s :=
        if s.cache.isCurrent t.taken then s.setCache (s.cache.putCompiled id a)
        else s.note [.notCached id]
      s.finish k t (.ok (.compiled a))

/-- Takes a task to where its reading came. -/
def advance (s : Session) (k : Nat) (t : Task) (read : Reading.Outcome × Trail) : Session :=
  let (outcome, trail) := read
  let s := s.setCache { s.cache with relations := trail.relations }
  let t := { t with taken := trail.taken }
  match outcome with
  | .waits w =>
    { s with asked := s.asked ++ [w.id] }.note [.fetching (s.path w.id)]
      |>.setTask k { t with phase := .fetching w }
  | .failed f => s.finish k t (.error (.ofReading f))
  | .done text =>
    match t.job with
    | .compile id => s.compileSource k t id text
    | .read .. => s.finish k t (.ok (.text text t.taken))

/-- The trail of a task. -/
def trail (s : Session) (t : Task) : Trail := ⟨s.cache.relations, t.taken⟩

/-- A task starts to read its template. -/
def start (s : Session) (k : Nat) : Session :=
  match s.tasks[k]? with
  | some t =>
    match t.phase with
    | .starting =>
      let s := match t.job with
        | .compile id => s.note [.compiling id]
        | .read .. => s
      s.advance k t (Reading.readTemplate s.desk [] t.job.parent t.job.id (s.trail t))
    | _ => s
  | none => s

/-- The file that a task waits for is read as it is now. -/
def fetch (s : Session) (k : Nat) : Session :=
  match s.tasks[k]? with
  | some t =>
    match t.phase with
    | .fetching w => s.setTask k { t with phase := .fetched w (s.tree.read (s.path w.id)) }
    | _ => s
  | none => s

/-- The session with a loaded text kept, unless its template was invalidated meanwhile. -/
def keepText (s : Session) (w : Reading.Wait) (text : String) : Session :=
  if s.cache.version w.id = w.version then s.setCache (s.cache.putSource w.id text)
  else s.note [.loadedStale w.id]

/-- A task goes on with the file that was read for it. -/
def resume (s : Session) (k : Nat) : Session :=
  match s.tasks[k]? with
  | some t =>
    match t.phase with
    | .fetched w (.error f) => s.finish k t (.error (.ofFile w.id (s.path w.id) f))
    | .fetched w (.ok bytes) =>
      match Reading.ofBytes s.shrinkers.stylesheet w.id bytes with
      | .error f => s.finish k t (.error (.ofLoad f))
      | .ok text =>
        let s := (s.note [.loaded w.id text.length]).keepText w text
        s.advance k t (Reading.resume s.desk w text (s.trail t))
    | _ => s
  | none => s

/-- Whether a task has ended. -/
def isFinished (s : Session) (k : Nat) : Bool :=
  match s.tasks[k]? with
  | some { phase := .finished _, .. } => true
  | _ => false

/-- A task that has ended can no longer be joined. -/
def settle (s : Session) (k : Nat) : Session :=
  if s.isFinished k then { s with inflight := s.inflight.filter (·.2 != k) } else s

/-- How a call for a template is answered, and the session with the task that may have been made. -/
def call (s : Session) (name : String) : Reply × Session :=
  match s.normalize name with
  | .error f => (.refused (.name f), s)
  | .ok id =>
    match s.cache.compiled.get? id, s.inflight.lookup id with
    | some a, _ => (.ready a, s)
    | none, some k => (.pending k, s)
    | none, none =>
      let k := s.tasks.length
      (.pending k, { s with tasks := s.tasks ++ [{ job := .compile id }], inflight := (id, k) :: s.inflight })

/-- A template is called for to be read only: the task for it. -/
def callRead (s : Session) (id : String) (parent : Option String) : Nat × Session :=
  (s.tasks.length, { s with tasks := s.tasks ++ [{ job := .read id parent }] })

/-- A template is invalidated by its name. -/
def invalidate (s : Session) (name : String) : Except Fault Session :=
  match s.normalize name with
  | .error f => .error (.name f)
  | .ok id =>
    let notes := s.cache.invalidateNotes id ++ [.invalidated id]
    .ok ((s.note notes).setCache (s.cache.invalidate id))

/-- Every template is invalidated. -/
def invalidateAll (s : Session) : Session :=
  (s.note s.cache.invalidateAllNotes).setCache s.cache.invalidateAll

/-- The cache is emptied. -/
def clear (s : Session) : Session := s.setCache s.cache.clear

/-- The session after an event. -/
def step (s : Session) : Event → Session
  | .call name => (s.call name).2
  | .read id parent => (s.callRead id parent).2
  | .start k => s.start k
  | .fetch k => s.fetch k
  | .resume k => s.resume k
  | .settle k => s.settle k
  | .invalidate name =>
    match s.invalidate name with
    | .ok s => s
    | .error _ => s
  | .invalidateAll => s.invalidateAll
  | .clear => s.clear
  | .change tree => { s with tree }

/-- The session after some events. -/
def run (s : Session) (events : List Event) : Session := events.foldl step s

end Session

end Stencil
