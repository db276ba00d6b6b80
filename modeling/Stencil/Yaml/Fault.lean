/-!
# Why a YAML text cannot be read

Nearly every fault is a broken rule of the format and is not told apart any further. The others are
values whose notation is sound and which cannot be.
-/

namespace Stencil.Yaml

/-- Why a YAML text cannot be read. -/
inductive Fault where
  /-- The text breaks a rule of the format, or a node cannot be what its tag says. -/
  | malformed
  /-- A number or a date that cannot be, or a character beyond the last one, with what is wrong. -/
  | impossible (message : String)
  /-- A number too large to count with: that of a character, or of a place in base sixty. -/
  | tooLarge
  /-- A word that is no truth value where one is demanded. -/
  | unknownWord
  /-- No digits where a number is demanded. -/
  | emptyNumber
  /-- No time where one is demanded. -/
  | noMoment
  /-- A collection is named inside itself. Data hold no such collections, so it is not read. -/
  | endless
  deriving Repr, DecidableEq

end Stencil.Yaml
