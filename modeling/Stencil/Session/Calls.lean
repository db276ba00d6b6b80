import Stencil.Session

/-!
# Calls carried through

A call with all the events that it takes until it is answered, nothing else happening meanwhile unless
it is said what. Rendering, precompiling and the life of a session are made of such calls.
-/

namespace Stencil

namespace Session

/-- The next event of a task. -/
def nextEvent (s : Session) (k : Nat) : Option Event :=
  match s.tasks[k]? with
  | some t =>
    match t.phase with
    | .starting => some (.start k)
    | .fetching _ => some (.fetch k)
    | .fetched .. => some (.resume k)
    | .finished _ => none
  | none => none

/-- Carries a task on until it has ended or stands where `halt` says. -/
def runTask (halt : Phase → Bool) (k : Nat) : (fuel : Nat) → Session → Session
  | 0, s => s
  | fuel + 1, s =>
    match s.tasks[k]? with
    | some t =>
      if halt t.phase then s
      else
        match s.nextEvent k with
        | some e => runTask halt k fuel (s.step e)
        | none => s
    | none => s

/-- The names in the includes of a file, if it is a text. -/
def namesInFile (content : List UInt8) : List (List Char) :=
  match Text.decode content with
  | .ok text => includeNames (segments text.toList)
  | .error _ => []

/-- The names in the includes that lie ahead in the templates that a task stands in. -/
def namesInPhase : Phase → List (List Char)
  | .fetching w => w.frames.flatMap fun f => includeNames f.rest
  | .fetched w content =>
    (w.frames.flatMap fun f => includeNames f.rest) ++ (content.toOption.map namesInFile).getD []
  | .starting | .finished _ => []

/-- The names in all includes that a task can come to: those in the texts that are kept, in the files,
and in the templates that tasks stand in. -/
def namesAhead (s : Session) : List (List Char) :=
  s.cache.sources.entries.flatMap (fun (_, text) => includeNames (segments text.toList)) ++
    s.tree.files.flatMap (fun (_, content) => namesInFile content) ++
    s.tasks.flatMap fun t => namesInPhase t.phase

/-- More events than a task can take: each file that it reads takes two, and it reads none twice. -/
def patience (s : Session) : Nat := 2 * s.namesAhead.length + 8

/-- Carries a task through to its end. -/
def complete (s : Session) (k : Nat) : Session := (runTask (fun _ => false) k s.patience s).settle k

/-- What a task has come to. -/
def result (s : Session) (k : Nat) : Except Fault Product :=
  match s.tasks[k]? with
  | some t =>
    match t.phase with
    | .finished r => r
    | _ => .error .unfinished
  | none => .error .unfinished

/-- The compiled template that a task has come to. -/
def artifact (s : Session) (k : Nat) : Except Fault Artifact :=
  match s.result k with
  | .ok (.compiled a) => .ok a
  | .ok (.text ..) => .error .unfinished
  | .error f => .error f

/-- Compiles the template of a name. -/
def compile (s : Session) (name : String) : Except Fault Artifact × Session :=
  match s.call name with
  | (.refused f, s) => (.error f, s)
  | (.ready a, s) => (.ok a, s)
  | (.pending k, s) =>
    let s := s.complete k
    (s.artifact k, s)

/-- Reads a template with its includes. -/
def readFlat (s : Session) (id : String) (parent : Option String) :
    Except Fault (String × Snapshot) × Session :=
  let (k, s) := s.callRead id parent
  let s := s.complete k
  match s.result k with
  | .ok (.text text taken) => (.ok (text, taken), s)
  | .ok (.compiled _) => (.error .unfinished, s)
  | .error f => (.error f, s)

/-- Renders a compiled template with data: the text, and the data as it is afterwards. -/
def renderWith (a : Artifact) (data : Datum) : Except Fault (String × Datum) :=
  (a.template.render data).mapError .rendering

/-- Renders the template of a name. The data stay as they are. -/
def render (s : Session) (name : String) (data : Datum) : Except Fault String × Session :=
  let (compiled, s) := s.compile name
  match compiled with
  | .error f => (.error f, s)
  | .ok a => ((renderWith a data).map (·.1), s)

/-- Carries the tasks through in rounds: in each, every task in turn goes on to its next file. -/
def runRounds (ks : List Nat) : (fuel : Nat) → Session → Session
  | 0, s => s
  | fuel + 1, s =>
    if ks.all s.isFinished then s
    else
      let s := ks.foldl (fun s k => match s.nextEvent k with | some e => s.step e | none => s) s
      runRounds ks fuel s

/-- Answers calls in turn before any task starts. -/
def callAll (s : Session) : List String → List Reply × Session
  | [] => ([], s)
  | name :: rest =>
    let (reply, s) := s.call name
    let (replies, s) := s.callAll rest
    (reply :: replies, s)

/-- Compiles the templates of some names together. -/
def compileTogether (s : Session) (names : List String) :
    List (Except Fault Artifact) × Session :=
  let (replies, s) := s.callAll names
  let ks := (replies.filterMap fun r => match r with | .pending k => some k | _ => none).eraseDups
  let s := runRounds ks s.patience s
  let s := ks.foldl settle s
  (replies.map fun r =>
    match r with
    | .refused f => .error f
    | .ready a => .ok a
    | .pending k => s.artifact k, s)

/-- Whether a task has read the file of a template and not gone on yet. -/
def holds (gate : String) : Phase → Bool
  | .fetched w (.ok _) => w.id == gate
  | _ => false

/-- Renders the template of a name; when the file of `gate` has been read, `meanwhile` happens before
the task goes on. Answers what that came to, if it happened, and the rendering. -/
def renderDuring {α : Type} (s : Session) (name gate : String) (data : Datum)
    (meanwhile : Session → α × Session) : Option α × Except Fault String × Session :=
  let rendered (compiled : Except Fault Artifact) : Except Fault String :=
    match compiled with
    | .error f => .error f
    | .ok a => (renderWith a data).map (·.1)
  match s.call name with
  | (.refused f, s) => (none, .error f, s)
  | (.ready a, s) => (none, rendered (.ok a), s)
  | (.pending k, s) =>
    let s := runTask (holds gate) k s.patience s
    if s.isFinished k then
      let s := s.settle k
      (none, rendered (s.artifact k), s)
    else
      let (answer, s) := meanwhile s
      let s := s.complete k
      (some answer, rendered (s.artifact k), s)

/-- The templates and directories in a directory, in ascending order; without an identifier, in the
root. -/
def children (s : Session) (id : String) : Except Fault (List String) :=
  let directory := s.path id
  match s.tree.list directory with
  | .error f => .error (.listing directory f)
  | .ok names =>
    let root := Files.components s.root
    let paths := names.map fun name => Files.components directory ++ [name]
    match paths.mapM (Identifier.afterRoot? root) with
    | some parts => .ok (ascending (parts.map Files.joinNames))
    | none => .error .listingOutside

/-- Compiles the templates among some entries of the tree, one after the other, and those in the
directories among them; `depth` bounds how deep directories lie. Answers what was compiled. -/
def precompileEach (depth : Nat) (s : Session) :
    List String → Except Fault (List String) × Session
  | [] => (.ok [], s)
  | child :: rest =>
    let (here, s) : Except Fault (List String) × Session :=
      match s.tree.isDirectory (s.path child) with
      | .error f => (.error (.unreachable (s.path child) f), s)
      | .ok true =>
        match depth with
        | 0 => (.error .unfinished, s)
        | depth + 1 =>
          match s.children child with
          | .error f => (.error f, s)
          | .ok inner => precompileEach depth s inner
      | .ok false =>
        if Identifier.isTemplate child then
          match s.compile child with
          | (.error f, s) => (.error f, s.note [.precompileFailed child f.message])
          | (.ok _, s) => (.ok [child], s.note [.precompiled child])
        else (.ok [], s)
    match here with
    | .error f => (.error f, s)
    | .ok done =>
      let (others, s) := precompileEach depth s rest
      (others.map (done ++ ·), s)
termination_by entries => (depth, entries.length)

/-- How deep directories can lie: no path is longer than the limit. -/
def depthLimit : Nat := Files.Tree.pathLimit

/-- Compiles every template in a directory and in those below it. -/
def precompile (s : Session) (directory : String) : Except Fault (List String) × Session :=
  match s.children directory with
  | .error f => (.error f, s)
  | .ok inner => precompileEach depthLimit s inner

/-- Begins the work: precompiles, and watches, where the settings say so. -/
def launch (s : Session) : Except Fault Unit × Session :=
  let (compiled, s) : Except Fault Unit × Session :=
    if s.settings.precompile then
      match s.precompile "" with
      | (.ok ids, s) => (.ok (), s.note [.allPrecompiled ids.length])
      | (.error f, s) => (.error f, s)
    else (.ok (), s)
  match compiled with
  | .error f => (.error f, s)
  | .ok () =>
    if s.settings.watch && !s.watching then
      (.ok (), { s with watching := true }.note [.resetPlanned s.settings.watchInterval])
    else (.ok (), s)

/-- Ends the work. -/
def close (s : Session) : Session := { s with watching := false }

/-- Reads the file of a template as it is. -/
def fetchFile (s : Session) (id : String) : Except Fault (List UInt8) × Session :=
  let path := s.path id
  let s := { s with asked := s.asked ++ [id] }.note [.fetching path]
  ((s.tree.read path).mapError (Fault.ofFile id path), s)

/-- Whether the file of a template is there, and whether it is a directory. -/
def probe (s : Session) (id : String) : Except Fault (Bool × Bool) := do
  let path := s.path id
  let isFile ← (s.tree.isFile path).mapError (Fault.unreachable path)
  let isDirectory ← (s.tree.isDirectory path).mapError (Fault.unreachable path)
  return (isFile, isDirectory)

end Session

end Stencil
