/-!
# Problems with options

What is wrong with the value of an option, and the fault that all problems of a configuration are
reported as.
-/

namespace Stencil.Config

/-- What is wrong with an option. -/
inductive Complaint where
  /-- The option has to be given. -/
  | missing
  /-- There is no such option. -/
  | unknown
  /-- There is no such option to be changed. -/
  | noSuchField
  /-- The value breaks a rule of its option. -/
  | refused (reason : String)
  /-- A number or a text that is no truth value. -/
  | unreadableTruth
  | noTruth
  /-- A text that is no number. -/
  | unreadableNumber
  | noNumber
  | notPositive
  | noText
  /-- Bytes that are no text. -/
  | unreadableText
  deriving Repr, DecidableEq

namespace Complaint

/-- The code of a complaint. -/
def code : Complaint → String
  | missing => "missing"
  | unknown => "extra_forbidden"
  | noSuchField => "no_such_attribute"
  | refused _ => "value_error"
  | unreadableTruth => "bool_parsing"
  | noTruth => "bool_type"
  | unreadableNumber => "float_parsing"
  | noNumber => "float_type"
  | notPositive => "greater_than"
  | noText => "string_type"
  | unreadableText => "string_unicode"

/-- A complaint about the option `name` in words. -/
def message (name : String) : Complaint → String
  | missing => "Field required"
  | unknown => "Extra inputs are not permitted"
  | noSuchField => s!"Object has no attribute '{name}'"
  | refused reason => s!"Value error, {reason}"
  | unreadableTruth => "Input should be a valid boolean, unable to interpret input"
  | noTruth => "Input should be a valid boolean"
  | unreadableNumber => "Input should be a valid number, unable to parse string as a number"
  | noNumber => "Input should be a valid number"
  | notPositive => "Input should be greater than 0"
  | noText => "Input should be a valid string"
  | unreadableText =>
    "Input should be a valid string, unable to parse raw data as a unicode string"

end Complaint

/-- A complaint about an option. -/
structure Problem where
  field : String
  complaint : Complaint
  deriving Repr, DecidableEq

namespace Problem

/-- A problem in words. -/
def message (p : Problem) : String := p.complaint.message p.field

/-- A problem after the name of its option; one about the option without a name is about all. -/
def line (p : Problem) : String :=
  let name := if p.field = "" then "config" else p.field
  s!"{name}: {p.message}"

/-- All problems in one line. -/
def summary (problems : List Problem) : String :=
  "Invalid configuration: " ++ "; ".intercalate (problems.map line)

end Problem

end Stencil.Config
