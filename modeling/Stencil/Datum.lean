import Stencil.Decimal.Limit
import Stencil.Decimal.Shortest
import Stencil.Text.Quoted

/-!
# Data

What configuration files, options and log records hold: plain values, lists, mappings and sets. A
mapping keeps its entries in the order in which their keys were first put; putting a key again keeps
its place and changes its value. Keys are plain values. Numbers that are equal are one key, whatever
their form, so `1`, `1.0` and `true` cannot be told apart as keys.
-/

namespace Stencil

/-- A day of the calendar. -/
structure Day where
  year : Nat
  month : Nat
  day : Nat
  deriving Repr, DecidableEq

/-- A time on a day; `offset` is the distance to universal time in seconds, where it is known. -/
structure Moment where
  day : Day
  hour : Nat
  minute : Nat
  second : Nat
  micro : Nat
  offset : Option Int
  deriving Repr, DecidableEq

/-- A value without parts. -/
inductive Scalar where
  | null
  | bool (b : Bool)
  | int (i : Int)
  | float (x : Float)
  | text (s : String)
  | bytes (b : List UInt8)
  | date (d : Day)
  | moment (m : Moment)
  deriving Repr

/-- A value. -/
inductive Datum where
  | scalar (s : Scalar)
  | list (items : List Datum)
  | map (entries : List (Scalar × Datum))
  | set (members : List Scalar)
  deriving Repr

instance : Inhabited Datum := ⟨.scalar .null⟩

namespace Day

/-- Year, month and day with dashes between. -/
def text (d : Day) : String :=
  Decimal.padZeros 4 (toString d.year) ++ "-" ++ Decimal.padZeros 2 (toString d.month) ++ "-" ++
    Decimal.padZeros 2 (toString d.day)

end Day

namespace Moment

/-- The offset as hours and minutes with a sign, and seconds where there are any. -/
def offsetText (offset : Int) : String :=
  let n := offset.natAbs
  let two (k : Nat) := Decimal.padZeros 2 (toString k)
  (if offset < 0 then "-" else "+") ++ two (n / 3600) ++ ":" ++ two (n / 60 % 60) ++
    (if n % 60 = 0 then "" else ":" ++ two (n % 60))

/-- The clock time, with six places after the second where they are not all zero. -/
def clockText (m : Moment) : String :=
  let two (k : Nat) := Decimal.padZeros 2 (toString k)
  two m.hour ++ ":" ++ two m.minute ++ ":" ++ two m.second ++
    (if m.micro = 0 then "" else "." ++ Decimal.padZeros 6 (toString m.micro))

/-- Day and time with `between` set between them. -/
def textWith (between : String) (m : Moment) : String :=
  m.day.text ++ between ++ m.clockText ++ (m.offset.map offsetText).getD ""

/-- Day and time with a blank between. -/
def text (m : Moment) : String := m.textWith " "

end Moment

namespace Scalar

/-- The value of a number as a whole number or a double. -/
inductive Number where
  | whole (i : Int)
  | double (x : Float)

/-- The number that a value stands for; truth values count as one and zero. -/
def number? : Scalar → Option Number
  | bool b => some (.whole (if b then 1 else 0))
  | int i => some (.whole i)
  | float x => some (.double x)
  | _ => none

/-- Whether two numbers are equal in value. -/
def Number.same : Number → Number → Bool
  | .whole i, .whole j => i == j
  | .whole i, .double x => Decimal.intEq i x
  | .double x, .whole i => Decimal.intEq i x
  | .double x, .double y => x == y

/-- Whether two values are one as keys and as members. -/
def same (a b : Scalar) : Bool :=
  match a, b with
  | null, null => true
  | text s, text t => s == t
  | bytes s, bytes t => s == t
  | date s, date t => s == t
  | moment s, moment t => s == t
  | a, b =>
    match a.number?, b.number? with
    | some m, some n => m.same n
    | _, _ => false

/-- A span of seconds as it is written out: whole days, and what is left. -/
def spellSpan (seconds : Int) : String :=
  let days := seconds / 86400
  let rest := seconds % 86400
  let parts := (if days = 0 then [] else [s!"days={days}"]) ++ (if rest = 0 then [] else [s!"seconds={rest}"])
  "datetime.timedelta(" ++ (if parts.isEmpty then "0" else ", ".intercalate parts) ++ ")"

/-- The value as it is written out among other values. -/
def spelled : Scalar → String
  | null => "None"
  | bool b => if b then "True" else "False"
  | int i => toString i
  | float x => Decimal.text x
  | text s => Text.quoted s
  | bytes b => Text.quotedBytes b
  | date d => s!"datetime.date({d.year}, {d.month}, {d.day})"
  | moment m =>
    let tail :=
      if m.micro ≠ 0 then s!", {m.second}, {m.micro}"
      else if m.second ≠ 0 then s!", {m.second}" else ""
    let zone :=
      match m.offset with
      | none => ""
      | some 0 => ", tzinfo=datetime.timezone.utc"
      | some o => ", tzinfo=datetime.timezone(" ++ spellSpan o ++ ")"
    s!"datetime.datetime({m.day.year}, {m.day.month}, {m.day.day}, {m.hour}, {m.minute}" ++
      tail ++ zone ++ ")"

/-- The value as a text of its own: a text stands for itself. -/
def plain : Scalar → String
  | text s => s
  | date d => d.text
  | moment m => m.text
  | s => s.spelled

/-- Whether the value can be written out; a whole number may be too long for that. -/
def isWritable : Scalar → Bool
  | int i => Decimal.isWritable i
  | _ => true

end Scalar

namespace Datum

/-- The entries after a key is given a value: in its place if it is there, else at the end. -/
def put (key : Scalar) (value : Datum) : List (Scalar × Datum) → List (Scalar × Datum)
  | [] => [(key, value)]
  | (k, v) :: rest => if k.same key then (k, value) :: rest else (k, v) :: put key value rest

/-- The value of a key. -/
def find? (key : Scalar) : List (Scalar × Datum) → Option Datum
  | [] => none
  | (k, v) :: rest => if k.same key then some v else find? key rest

/-- The value of a key that is a text. -/
def field? (name : String) (entries : List (Scalar × Datum)) : Option Datum :=
  find? (.text name) entries

/-- Entries with each key once: the last value in the first place. -/
def ofEntries (entries : List (Scalar × Datum)) : List (Scalar × Datum) :=
  entries.foldl (fun done (k, v) => put k v done) []

@[match_pattern] def null : Datum := .scalar .null
@[match_pattern] def bool (b : Bool) : Datum := .scalar (.bool b)
@[match_pattern] def int (i : Int) : Datum := .scalar (.int i)
@[match_pattern] def float (x : Float) : Datum := .scalar (.float x)
@[match_pattern] def text (s : String) : Datum := .scalar (.text s)
@[match_pattern] def bytes (b : List UInt8) : Datum := .scalar (.bytes b)

/-- A mapping with texts for keys. -/
def ofFields (fields : List (String × Datum)) : Datum :=
  .map (fields.map fun (k, v) => (.text k, v))

/-- Whether a value counts as true: it is neither nothing, nor zero, nor empty. -/
def truthy : Datum → Bool
  | .scalar .null => false
  | .scalar (.bool b) => b
  | .scalar (.int i) => i != 0
  | .scalar (.float x) => x != 0
  | .scalar (.text s) => s != ""
  | .scalar (.bytes b) => !b.isEmpty
  | .scalar _ => true
  | .list items => !items.isEmpty
  | .map entries => !entries.isEmpty
  | .set members => !members.isEmpty

mutual

/-- The value as it is written out among other values. -/
def spelled : Datum → String
  | .scalar s => s.spelled
  | .list items => "[" ++ ", ".intercalate (spelledItems items) ++ "]"
  | .map entries => "\x7b" ++ ", ".intercalate (spelledEntries entries) ++ "\x7d"
  | .set [] => "set()"
  | .set members => "\x7b" ++ ", ".intercalate (members.map Scalar.spelled) ++ "\x7d"

/-- Each item written out. -/
def spelledItems : List Datum → List String
  | [] => []
  | d :: rest => d.spelled :: spelledItems rest

/-- Each entry written out, key before value. -/
def spelledEntries : List (Scalar × Datum) → List String
  | [] => []
  | (k, v) :: rest => (k.spelled ++ ": " ++ v.spelled) :: spelledEntries rest

end

/-- The value as a text of its own. -/
def plain : Datum → String
  | .scalar s => s.plain
  | d => d.spelled

mutual

/-- Whether the value can be written out, with everything in it. -/
def isWritable : Datum → Bool
  | .scalar s => s.isWritable
  | .list items => areItemsWritable items
  | .map entries => areEntriesWritable entries
  | .set members => members.all Scalar.isWritable

/-- Whether each item can be written out. -/
def areItemsWritable : List Datum → Bool
  | [] => true
  | d :: rest => d.isWritable && areItemsWritable rest

/-- Whether each key and each value can be written out. -/
def areEntriesWritable : List (Scalar × Datum) → Bool
  | [] => true
  | (k, v) :: rest => k.isWritable && v.isWritable && areEntriesWritable rest

end

/-- The name of the kind of value. -/
def kind : Datum → String
  | .scalar .null => "NoneType"
  | .scalar (.bool _) => "bool"
  | .scalar (.int _) => "int"
  | .scalar (.float _) => "float"
  | .scalar (.text _) => "str"
  | .scalar (.bytes _) => "bytes"
  | .scalar (.date _) => "date"
  | .scalar (.moment _) => "datetime"
  | .list _ => "list"
  | .map _ => "dict"
  | .set _ => "set"

end Datum

end Stencil
