import Stencil.Failure
import Stencil.Shrink.Script
import Stencil.Shrink.Stylesheet

/-!
# Shrinkers

A shrinker makes a text shorter, or it fails for a reason of its own. Those of the library are called so that their
failures are reported, with the kind of the text and the number of its characters. Templates may be shrunk as scripts
by another shrinker instead, and that one fails as it likes.
-/

namespace Stencil

/-- Why a text was not shrunk. -/
inductive ShrinkFault where
  /-- A shrinker has failed for a reason of its own. -/
  | raised (reason : String)
  /-- The shrinker for texts of a kind has failed on a text of so many characters. -/
  | reported (kind : String) (length : Nat) (reason : String)
  deriving Repr, DecidableEq

namespace ShrinkFault

/-- The report of a shrinker for texts of a kind that has failed on a text of so many characters. -/
def report (kind : String) (length : Nat) (reason : String) : Report :=
  .plain .shrink s!"{kind} shrinker failed: {reason}" (.place "minifier" kind [("length", .int length)])

/-- The report of a fault, if it is one that is reported. -/
def report? : ShrinkFault → Option Report
  | raised _ => none
  | reported kind length reason => some (report kind length reason)

/-- A fault in words. -/
def message : ShrinkFault → String
  | raised reason => reason
  | reported kind length reason => (report kind length reason).text

end ShrinkFault

/-- A shrinker: the shrunk text, or why the text cannot be shrunk. -/
abbrev Shrinker := String → Except ShrinkFault String

/-- A shrinker called for a text of a kind, so that its failures are reported. -/
def reporting (kind : String) (shrinker : Shrinker) : Shrinker := fun text =>
  (shrinker text).mapError fun f => .reported kind text.length f.message

/-- The shrinker of scripts. -/
def scriptShrinker : Shrinker := reporting "script" fun text => .ok (Script.shrink text)

/-- The shrinkers that templates are shrunk with. -/
structure Shrinkers where
  /-- The shrinker of scripts as it is called. -/
  script : Shrinker := scriptShrinker
  /-- What shrinks stylesheets. -/
  style : Shrinker := fun text => .ok (Stylesheet.shrink text)

/-- The shrinker of stylesheets as it is called. -/
def Shrinkers.stylesheet (s : Shrinkers) : Shrinker := reporting "stylesheet" s.style

end Stencil
