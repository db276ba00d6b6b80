import Stencil.Files.Path
import Stencil.Text.Quoted

/-!
# A tree of files

Directories, files and links, each at the names that lead to it from the top. To follow a path is to
walk down name by name; a link sets its target before the names that are left, and at most forty
links are followed on one walk. The real path of a file is found without a walk: names of which nothing is
seen stand for themselves, and links are followed, however many, until one leads in a circle.

The tree says too what is not allowed in it: files that may not be read and directories that may not be listed, places
that may not be written, and directories in which no name may be looked up, so that nothing below them can be come to.
-/

namespace Stencil.Files

/-- One more of some things that have been seen is one less that has not. -/
theorem length_filter_cons_lt {α : Type} [BEq α] [LawfulBEq α] {things seen : List α} {a : α} (hm : a ∈ things)
    (hs : ¬ seen.contains a) :
    (things.filter fun x => !(a :: seen).contains x).length < (things.filter fun x => !seen.contains x).length := by
  have split : (things.filter fun x => !(a :: seen).contains x) =
      (things.filter fun x => !seen.contains x).filter fun x => x != a := by
    rw [List.filter_filter]
    congr 1
    funext x
    by_cases hx : x = a <;> simp [hx]
  rw [split, List.length_filter_lt_length_iff_exists]
  exact ⟨a, List.mem_filter.2 ⟨hm, by simpa using hs⟩, by simp⟩

/-- What stands at a place of the tree. -/
inductive Entry where
  | directory
  | file (content : List UInt8)
  | link (target : String)
  deriving Repr, DecidableEq

/-- A place: the names that lead to it from the top. -/
abbrev Place := List String

/-- Every place but the top and what stands there, and what is not allowed. -/
structure Tree where
  entries : List (Place × Entry) := []
  /-- The files that may not be read, and the directories that may not be listed. -/
  unreadable : List Place := []
  /-- The files that may not be written, and the directories in which nothing may be made. -/
  unwritable : List Place := []
  /-- The directories in which no name may be looked up. -/
  closed : List Place := []
  deriving Repr

/-- Why a path cannot be used. -/
inductive Fault where
  | notFound
  | notADirectory
  | isADirectory
  | noPermission
  | alreadyThere
  | tooManyLinks
  | nameTooLong
  /-- The path holds a character that no name holds. -/
  | embeddedNull
  deriving Repr, DecidableEq

namespace Fault

/-- The fault in words. -/
def message : Fault → String
  | notFound => "No such file or directory"
  | notADirectory => "Not a directory"
  | isADirectory => "Is a directory"
  | noPermission => "Permission denied"
  | alreadyThere => "File exists"
  | tooManyLinks => "Too many levels of symbolic links"
  | nameTooLong => "File name too long"
  | embeddedNull => "embedded null byte"

/-- The number of the fault. -/
def code : Fault → Nat
  | notFound => 2
  | notADirectory => 20
  | isADirectory => 21
  | noPermission => 13
  | alreadyThere => 17
  | tooManyLinks => 40
  | nameTooLong => 36
  | embeddedNull => 22

/-- The fault in words, with its number and the path. -/
def describe (f : Fault) (path : String) : String :=
  match f with
  | embeddedNull => f.message
  | _ => s!"[Errno {f.code}] {f.message}: {Text.quoted path}"

/-- Whether the fault only says that nothing is to be found at the path. -/
def isAbsence : Fault → Bool
  | notFound | notADirectory | tooManyLinks | embeddedNull => true
  | _ => false

end Fault

namespace Tree

/-- What stands at a place, links not followed; the top is a directory. -/
def entry? (t : Tree) (place : Place) : Option Entry :=
  if place = [] then some .directory else t.entries.lookup place

/-- Whether a directory above a place lets no name in it be looked up. -/
def shut (t : Tree) (place : Place) : Bool := t.closed.any fun above => above != place && above.isPrefixOf place

/-- What is seen of a place, links not followed: nothing if the place cannot be come to. -/
def glimpse? (t : Tree) (place : Place) : Option Entry := if t.shut place then none else t.entry? place

/-- What is seen of a place stands there. -/
theorem entry?_of_glimpse? {t : Tree} {place : Place} {e : Entry} (h : t.glimpse? place = some e) :
    t.entry? place = some e := by
  unfold glimpse? at h
  split at h
  · cases h
  · exact h

/-- The greatest number of bytes in a name. -/
def nameLimit : Nat := 255

/-- The number of bytes at which a path is too long. -/
def pathLimit : Nat := 4096

/-- How many links are followed on one walk. -/
def linkLimit : Nat := 40

/-- Walks from a directory along the names that are left; `last` says whether a link at the end is
followed. -/
def walk (t : Tree) (last : Bool) (links : Nat) (here : Place) (names : List String) :
    Except Fault Place :=
  match names with
  | [] => .ok here
  | name :: rest =>
    match t.entry? here with
    | some .directory =>
      if t.closed.contains here then .error .noPermission
      else if name = ".." then walk t last links here.dropLast rest
      else if name.utf8ByteSize > nameLimit then .error .nameTooLong
      else
        match t.entry? (here ++ [name]) with
        | none => .error .notFound
        | some (.link target) =>
          if rest.isEmpty && !last then .ok (here ++ [name])
          else
            match links with
            | 0 => .error .tooManyLinks
            | links + 1 =>
              if target = "" then .error .notFound
              else walk t last links (if isAbsolute target then [] else here) (components target ++ rest)
        | some _ => walk t last links (here ++ [name]) rest
    | _ => .error .notADirectory
termination_by (links, names.length)

/-- The place that an absolute path leads to; `last` says whether a link at its end is followed. -/
def locateLast (t : Tree) (last : Bool) (path : String) : Except Fault Place :=
  if path.toList.contains '\x00' then .error .embeddedNull
  else if path.utf8ByteSize ≥ pathLimit then .error .nameTooLong
  else walk t last linkLimit [] (components path)

/-- The place that an absolute path leads to. -/
def locate (t : Tree) (path : String) : Except Fault Place := t.locateLast true path

/-- What an absolute path leads to. -/
def lookup (t : Tree) (path : String) : Except Fault Entry := do
  let place ← t.locate path
  match t.entry? place with
  | some e => .ok e
  | none => .error .notFound

/-- The content of the file that a path leads to. -/
def read (t : Tree) (path : String) : Except Fault (List UInt8) := do
  let place ← t.locate path
  match t.entry? place with
  | none => .error .notFound
  | some e =>
    if t.unreadable.contains place then .error .noPermission
    else
      match e with
      | .file content => .ok content
      | _ => .error .isADirectory

/-- Whether a path leads to an entry that passes a test; a fault that does not just say that nothing
is there is passed on. -/
def check (t : Tree) (p : Entry → Bool) (path : String) : Except Fault Bool :=
  match t.lookup path with
  | .ok e => .ok (p e)
  | .error f => if f.isAbsence then .ok false else .error f

/-- Whether a path leads to a directory. -/
def isDirectory (t : Tree) (path : String) : Except Fault Bool := t.check (· == .directory) path

/-- Whether a path leads to a file. -/
def isFile (t : Tree) (path : String) : Except Fault Bool :=
  t.check (fun e => match e with | .file _ => true | _ => false) path

/-- Whether a path leads anywhere. -/
def exists? (t : Tree) (path : String) : Except Fault Bool := t.check (fun _ => true) path

/-- The name under which an entry at `place` stands directly in the directory `parent`. -/
def childName? (parent place : Place) : Option String :=
  match place.getLast? with
  | some name => if place.dropLast = parent then some name else none
  | none => none

/-- The names in the directory that a path leads to, in ascending order. -/
def list (t : Tree) (path : String) : Except Fault (List String) := do
  let place ← t.locate path
  match t.entry? place with
  | some .directory =>
    if t.unreadable.contains place then .error .noPermission
    else
      let names := t.entries.filterMap fun (p, _) => childName? place p
      .ok (names.mergeSort fun a b => decide (a ≤ b))
  | some _ => .error .notADirectory
  | none => .error .notFound

/-- The tree with an entry set at a place. -/
def set (t : Tree) (place : Place) (e : Entry) : Tree :=
  { t with entries := t.entries.filter (fun (p, _) => p != place) ++ [(place, e)] }

/-- Whether a place lies at or below another. -/
def below (top place : Place) : Bool := top.isPrefixOf place

/-- The tree without a place and all that lies below it. -/
def remove (t : Tree) (place : Place) : Tree :=
  let outside := List.filter fun p => !below place p
  { entries := t.entries.filter fun (p, _) => !below place p
    unreadable := outside t.unreadable
    unwritable := outside t.unwritable
    closed := outside t.closed }

/-- The tree with what stands at and below a place moved to another, in place of what stands there. A
place with nothing at it leaves the tree as it is. -/
def move (t : Tree) (source target : Place) : Tree :=
  if (t.entry? source).isNone then t
  else
    let moved (place : Place) : Place :=
      if below source place then target ++ place.drop source.length else place
    let left := t.remove target
    { entries := left.entries.map fun (place, e) => (moved place, e)
      unreadable := left.unreadable.map moved
      unwritable := left.unwritable.map moved
      closed := left.closed.map moved }

/-- Where a path leads though its last name may be missing: its directory must be there. -/
def locateNew (t : Tree) (path : String) : Except Fault Place :=
  match t.locate path with
  | .ok place => .ok place
  | .error .notFound =>
    let names := components path
    match names.getLast?, walk t true linkLimit [] names.dropLast with
    | some name, .ok parent =>
      match t.entry? parent, t.entry? (parent ++ [name]) with
      | some .directory, some (.link target) =>
        let target := join ("/" ++ joinNames parent) target
        match (components target).getLast?, walk t true linkLimit [] (components target).dropLast with
        | some name, .ok parent => .ok (parent ++ [name])
        | _, _ => .error .notFound
      | some .directory, _ => .ok (parent ++ [name])
      | _, _ => .error .notADirectory
    | _, .error f => .error f
    | none, _ => .error .notFound
  | .error f => .error f

/-- Whether nothing may be written at a place: the file there is not to be written, or in its directory nothing may be
made. -/
def forbids (t : Tree) (place : Place) : Bool :=
  t.unwritable.contains (if (t.entry? place).isSome then place else place.dropLast)

/-- The tree with a file written at a path, in place of the one that is there. -/
def write (t : Tree) (path : String) (content : List UInt8) : Except Fault Tree := do
  let place ← t.locateNew path
  match t.entry? place with
  | some .directory => .error .isADirectory
  | _ => if t.forbids place then .error .noPermission else .ok (t.set place (.file content))

/-- Makes the directories along the names that are left, below one that is there. -/
def makeAlong (t : Tree) (path : String) : List String → Except Fault Tree
  | [] => .ok t
  | name :: rest =>
    let here := path ++ "/" ++ name
    match t.lookup here with
    | .ok .directory => makeAlong t here rest
    | .ok _ => if rest.isEmpty then .error .alreadyThere else .error .notADirectory
    | .error .notFound => do
      let place ← t.locateNew here
      match t.entry? place with
      | some _ => .error .alreadyThere
      | none =>
        if t.forbids place then .error .noPermission
        else makeAlong (t.set place .directory) here rest
    | .error f => .error f

/-- Makes the directory at a path and those above it where they are missing. -/
def makeDirectories (t : Tree) (path : String) : Except Fault Tree :=
  makeAlong t "" (components path)

/-- How many places are not among those at which links are being followed. -/
def unfollowed (t : Tree) (above : List Place) : Nat :=
  ((t.entries.map Prod.fst).filter fun place => !above.contains place).length

theorem unfollowed_cons_lt {t : Tree} {above : List Place} {here : Place} {name : String} {e : Entry}
    (h : t.glimpse? (here ++ [name]) = some e) (hnew : ¬ above.contains (here ++ [name])) :
    t.unfollowed ((here ++ [name]) :: above) < t.unfollowed above := by
  have hentry := entry?_of_glimpse? h
  unfold entry? at hentry
  rw [if_neg (by simp)] at hentry
  obtain ⟨before, after, hentries, -⟩ := List.lookup_eq_some_iff.1 hentry
  refine length_filter_cons_lt (List.mem_map.2 ⟨(here ++ [name], e), ?_, rfl⟩) hnew
  rw [hentries]
  exact List.mem_append_right before List.mem_cons_self

/-- The directory that the target of a link starts from, if the link stands in a directory. -/
def startOf (here : Place) (target : String) : Place := if isAbsolute target then [] else here

/-- The place that names lead to from a directory when names of which nothing is seen are taken as they stand; `above`
are the links that are being followed. One of them that is met again leads in a circle: the way ends there, and its
names and those that are left are returned as they stand. -/
def settle (t : Tree) (above : List Place) (here : Place) (names : List String) :
    Except (List String) Place :=
  match names with
  | [] => .ok here
  | name :: rest =>
    if name = ".." then settle t above here.dropLast rest
    else
      match _h : t.glimpse? (here ++ [name]) with
      | some (.link target) =>
        if _hc : above.contains (here ++ [name]) then .error (here ++ name :: rest)
        else
          match settle t ((here ++ [name]) :: above) (startOf here target) (components target) with
          | .ok next => settle t above next rest
          | .error stuck => .error (stuck ++ rest)
      | _ => settle t above (here ++ [name]) rest
termination_by (t.unfollowed above, names.length)
decreasing_by
  · exact Prod.Lex.right _ (Nat.lt_succ_self _)
  · exact Prod.Lex.left _ _ (unfollowed_cons_lt _h _hc)
  · exact Prod.Lex.right _ (Nat.lt_succ_self _)
  · exact Prod.Lex.right _ (Nat.lt_succ_self _)

/-- An absolute path with every link followed; what is left where links lead in a circle is collapsed as text. -/
def realPath (t : Tree) (path : String) : String :=
  match settle t [] [] (components path) with
  | .ok place => "/" ++ joinNames place
  | .error names => "/" ++ joinNames (collapse names)

/-- Every file with its path and content. -/
def files (t : Tree) : List (String × List UInt8) :=
  t.entries.filterMap fun (place, e) =>
    match e with
    | .file content => some ("/" ++ joinNames place, content)
    | _ => none

end Tree

end Stencil.Files
