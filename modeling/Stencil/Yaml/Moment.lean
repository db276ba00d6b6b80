import Stencil.Calendar
import Stencil.Yaml.Fault
import Stencil.Text.Digit

/-!
# Dates and times in YAML

Year, month and day with dashes between, then perhaps a clock time with a fraction of a second and a
zone. A date alone is taken for one only when its month and day have two digits.
-/

namespace Stencil.Yaml

/-- The clock time of a moment as it is written; the zone is its offset in seconds. -/
structure ClockText where
  hour : Nat
  minute : Nat
  second : Nat
  micro : Nat
  zone : Option Int

/-- A moment as it is written. -/
structure MomentText where
  day : Day
  clock : Option ClockText

/-- Between `least` and `most` digits, as many as there are. -/
def someDigits (least most : Nat) (cs : List Char) : Option (Nat × List Char) :=
  let run := (cs.take most).takeWhile Char.isDigit
  if run.length < least then none
  else some (Text.digitsValue 10 (run.map fun c => c.toNat - 48), cs.drop run.length)

/-- What follows a character that must stand here. -/
def past (sign : Char) : List Char → Option (List Char)
  | c :: rest => if c = sign then some rest else none
  | [] => none

/-- Whether a character is a space or a tab. -/
def isBlankOrTab (c : Char) : Bool := c == ' ' || c == '\t'

/-- The fraction of a second in millionths, further digits left out. -/
def microOf (digits : List Char) : Nat :=
  let six := digits.take 6
  Text.digitsValue 10 (six.map fun c => c.toNat - 48) * Nat.pow 10 (6 - six.length)

/-- The zone at the end of a moment, if one is written. -/
def readZone? (cs : List Char) : Option (Option Int) :=
  match cs with
  | [] => some none
  | _ =>
    match cs.dropWhile isBlankOrTab with
    | ['Z'] => some (some 0)
    | sign :: rest => do
      if sign = '+' || sign = '-' then
        let (hours, rest) ← someDigits 1 2 rest
        let (minutes, rest) ←
          match rest with
          | ':' :: rest => someDigits 2 2 rest
          | rest => some (0, rest)
        let offset : Int := hours * 3600 + minutes * 60
        if rest.isEmpty then some (some (if sign = '-' then -offset else offset)) else none
      else none
    | [] => none

/-- The clock time of a moment. -/
def readClock? (cs : List Char) : Option ClockText := do
  let rest ←
    match cs with
    | 'T' :: rest | 't' :: rest => some rest
    | c :: rest => if isBlankOrTab c then some (rest.dropWhile isBlankOrTab) else none
    | [] => none
  let (hour, rest) ← someDigits 1 2 rest
  let (minute, rest) ← someDigits 2 2 (← past ':' rest)
  let (second, rest) ← someDigits 2 2 (← past ':' rest)
  let (micro, rest) :=
    match rest with
    | '.' :: rest => (microOf (rest.takeWhile Char.isDigit), rest.dropWhile Char.isDigit)
    | rest => (0, rest)
  return { hour, minute, second, micro, zone := ← readZone? rest }

/-- A moment. -/
def readMoment? (cs : List Char) : Option MomentText := do
  let (year, rest) ← someDigits 4 4 cs
  let (month, rest) ← someDigits 1 2 (← past '-' rest)
  let (day, rest) ← someDigits 1 2 (← past '-' rest)
  let day : Day := { year, month, day }
  if rest.isEmpty then return { day, clock := none }
  else return { day, clock := some (← readClock? rest) }

/-- Whether a text without quotes is a moment. -/
def isMoment (cs : List Char) : Bool :=
  (readMoment? cs).any fun m => m.clock.isSome || cs.length == 10

/-- What is wrong with a time of day that there is not. -/
def ClockText.complaint? (c : ClockText) : Option String :=
  if c.hour ≥ 24 then some "hour must be in 0..23"
  else if c.minute ≥ 60 then some "minute must be in 0..59"
  else if c.second ≥ 60 then some "second must be in 0..59"
  else none

/-- What is wrong with the distance of a zone, in seconds: it has to be less than a day. -/
def zoneComplaint? (offset : Int) : Option String :=
  if offset.natAbs < 86400 then none
  else
    some ("offset must be a timedelta strictly between -timedelta(hours=24) and " ++
      "timedelta(hours=24), not " ++ Scalar.spellSpan offset ++ ".")

/-- The value of a moment, if there is such a moment. Its zone is looked at first, then its day, then
its time of day. -/
def MomentText.value (m : MomentText) : Except Fault Scalar :=
  let zone := m.clock.bind (·.zone)
  let complaints :=
    [zone.bind zoneComplaint?, m.day.complaint?, m.clock.bind (·.complaint?)].filterMap id
  match complaints, m.clock with
  | complaint :: _, _ => .error (.impossible complaint)
  | [], none => .ok (.date m.day)
  | [], some c =>
    .ok (.moment { day := m.day, hour := c.hour, minute := c.minute, second := c.second
                   micro := c.micro, offset := c.zone })

end Stencil.Yaml
