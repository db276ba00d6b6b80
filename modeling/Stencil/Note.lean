import Stencil.Decimal.Shortest
import Stencil.Text.Quoted

/-!
# Notes

What the library says of its work while it does it. A note is an event; its level, the part of the
library that it comes from and its wording follow from the event. Some notes tell how the work goes
on and are raised from the lowest level when the configuration asks for them. The time that a step
took comes from the clock of whoever keeps the notes, so it is given when a note is worded.
-/

namespace Stencil

/-- How much a note matters. -/
inductive Level where
  | debug
  | info
  | warning
  | error
  | critical
  deriving Repr, DecidableEq

namespace Level

/-- The name of a level. -/
def label : Level → String
  | debug => "DEBUG"
  | info => "INFO"
  | warning => "WARNING"
  | error => "ERROR"
  | critical => "CRITICAL"

/-- The rank of a level. -/
def rank : Level → Nat
  | debug => 10
  | info => 20
  | warning => 30
  | error => 40
  | critical => 50

end Level

/-- The sizes of a text before and after it is shrunk, in characters. -/
structure Shrinkage where
  before : Nat
  after : Nat
  deriving Repr, DecidableEq

/-- A whole number nearest to a quotient of whole numbers in doubles, a half to the even one. -/
def Shrinkage.percent (s : Shrinkage) : Nat :=
  if s.before = 0 then 100
  else
    let x := Float.ofNat s.after / Float.ofNat s.before * 100
    ((Decimal.round? x).getD 0).toNat

/-- An event that is noted. -/
inductive Note where
  /-- An entry was removed from a store. -/
  | removed (id store : String)
  /-- The compiled dependents of a template were dropped. -/
  | dependentsDropped (id : String) (dependents : List String)
  /-- So many cached templates were dropped at once. -/
  | allDropped (count : Nat)
  /-- A template was invalidated by its name. -/
  | invalidated (id : String)
  /-- The file of a template is about to be read. -/
  | fetching (path : String)
  /-- A template of so many characters was loaded. -/
  | loaded (id : String) (size : Nat)
  /-- A loaded text was not kept because its template was invalidated meanwhile. -/
  | loadedStale (id : String)
  /-- A compile starts. -/
  | compiling (id : String)
  /-- A flattened template was shrunk. -/
  | shrunk (id : String) (sizes : Shrinkage)
  /-- A compiled template was not kept because something it is made of was invalidated meanwhile. -/
  | notCached (id : String)
  /-- A directive was lost while its template was shrunk. -/
  | directiveDropped (span : List Char)
  /-- The template language rejected a source. -/
  | sourceRejected (id : Option String) (reason : String)
  /-- A template was compiled ahead of its use. -/
  | precompiled (id : String)
  /-- A template could not be compiled ahead of its use. -/
  | precompileFailed (id reason : String)
  /-- All templates, so many, were compiled ahead of their use. -/
  | allPrecompiled (count : Nat)
  /-- The cache will be reset each time so many seconds have passed. -/
  | resetPlanned (interval : Float)
  /-- Configuration is about to be loaded from a file. -/
  | configLoading (path : String)
  /-- Configuration was loaded from a file. -/
  | configLoaded (path : String)
  deriving Repr

namespace Note

/-- The level of a note; `verbose` raises those that tell how the work goes on. -/
def level (verbose : Bool) : Note → Level
  | compiling _ | shrunk .. | precompiled _ | allPrecompiled _ => if verbose then .info else .debug
  | directiveDropped _ => .warning
  | sourceRejected .. | precompileFailed .. => .error
  | configLoading _ => .info
  | _ => .debug

/-- The part of the library that a note comes from. -/
def origin : Note → String
  | removed .. => "cache.stores"
  | dependentsDropped .. => "cache.relations"
  | allDropped _ => "cache.template_cache"
  | fetching _ => "templates.loader"
  | loaded .. | loadedStale _ => "templates.assembler"
  | directiveDropped _ => "templates.minifier"
  | sourceRejected .. => "templates.engine"
  | configLoading _ | configLoaded _ => "config.configuration"
  | _ => "compiler"

/-- A list of texts as it is written out. -/
def quotedList (names : List String) : String :=
  "[" ++ ", ".intercalate (names.map Text.quoted) ++ "]"

/-- A note in words; `elapsed` is the number of milliseconds that the step took. -/
def message (elapsed : String) : Note → String
  | removed id store => s!"Removed {id} from {store} store"
  | dependentsDropped id dependents =>
    s!"Invalidated {dependents.length} dependents of {id}: {quotedList dependents}"
  | allDropped count => s!"Invalidated {count} cached templates"
  | invalidated id => s!"[{id}] invalidated"
  | fetching path => s!"Reading template file: {path}"
  | loaded id size => s!"Loaded {id} ({size} chars)"
  | loadedStale id => s!"{id} invalidated while loading, text not cached"
  | compiling id => s!"[{id}] compile"
  | shrunk id sizes =>
    s!"[{id}] {sizes.before} -> {sizes.after}, {sizes.percent}%, {elapsed}ms"
  | notCached id => s!"[{id}] include invalidated during compile, result not cached"
  | directiveDropped span =>
    s!"Directive dropped by shrinker: {Text.quoted (String.ofList (span.take 60))}"
  | sourceRejected id reason =>
    let name := id.getD "<string>"
    s!"Template compile error in {name}: {reason}"
  | precompiled id => s!"[{id}] precompiled"
  | precompileFailed id reason => s!"[{id}] precompile failed: {reason}"
  | allPrecompiled count => s!"Precompiled {count} templates in {elapsed}ms"
  | resetPlanned interval => s!"Cache reset every {Decimal.text interval}s"
  | configLoading path => s!"Loading configuration from {path}"
  | configLoaded path => s!"Loaded configuration from {path}"

/-- The sizes that go with a note. -/
def sizes? : Note → Option (String × Shrinkage)
  | shrunk id sizes => some (id, sizes)
  | _ => none

end Note

end Stencil
