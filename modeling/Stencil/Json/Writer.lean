import Stencil.Datum

/-!
# Writing JSON

Values are written on one line in visible ASCII characters. Any other character stands as an escape
with four hexadecimal digits, in two halves where it lies beyond the first 65536. A comma and a colon
are each followed by one blank. Sets, bytes and dates have no written form,
and neither have whole numbers of too many digits.
-/

namespace Stencil.Json

/-- Why a value cannot be written. -/
inductive Unwritable where
  /-- A value of a kind that has no written form. -/
  | value (kind : String)
  /-- A key of such a kind. -/
  | key (kind : String)
  /-- A whole number that has too many digits. -/
  | tooLong
  deriving Repr, DecidableEq

namespace Unwritable

/-- The cause in words. -/
def message : Unwritable → String
  | value kind => s!"Object of type {kind} is not JSON serializable"
  | key kind => s!"keys must be str, int, float, bool or None, not {kind}"
  | tooLong => Decimal.tooLongToWrite

end Unwritable

/-- An escape with four digits. -/
def escapeFour (n : Nat) : List Char := '\\' :: 'u' :: Text.hexDigits 4 n

/-- One character of a string. -/
def writeChar (c : Char) : List Char :=
  if c = '"' then ['\\', '"']
  else if c = '\\' then ['\\', '\\']
  else if c = '\n' then ['\\', 'n']
  else if c = '\r' then ['\\', 'r']
  else if c = '\t' then ['\\', 't']
  else if c = '\x08' then ['\\', 'b']
  else if c = '\x0c' then ['\\', 'f']
  else if 0x20 ≤ c.toNat ∧ c.toNat < 0x7F then [c]
  else if c.toNat < 0x10000 then escapeFour c.toNat
  else
    let n := c.toNat - 0x10000
    escapeFour (0xD800 + n / 0x400) ++ escapeFour (0xDC00 + n % 0x400)

/-- A string between double quotes. -/
def writeString (s : String) : List Char := '"' :: (s.toList.flatMap writeChar ++ ['"'])

/-- A double: the values that are no numbers have words. -/
def writeFloat (x : Float) : List Char :=
  match Decimal.Binary.of x with
  | .nan => "NaN".toList
  | .infinite negative => (if negative then "-Infinity" else "Infinity").toList
  | .finite .. => (Decimal.text x).toList

/-- A whole number, if it is short enough. -/
def writeInt (i : Int) : Except Unwritable String :=
  if Decimal.isWritable i then .ok (toString i) else .error .tooLong

/-- A value without parts. -/
def writeScalar : Scalar → Except Unwritable (List Char)
  | .null => .ok "null".toList
  | .bool b => .ok (if b then "true" else "false").toList
  | .int i => (writeInt i).map String.toList
  | .float x => .ok (writeFloat x)
  | .text s => .ok (writeString s)
  | s => .error (.value (Datum.scalar s).kind)

/-- A key: a plain value that is no text is written as one. -/
def writeKey : Scalar → Except Unwritable (List Char)
  | .text s => .ok (writeString s)
  | .null => .ok (writeString "null")
  | .bool b => .ok (writeString (if b then "true" else "false"))
  | .int i => (writeInt i).map writeString
  | .float x => .ok (writeString (String.ofList (writeFloat x)))
  | s => .error (.key (Datum.scalar s).kind)

mutual

/-- The written form of a value. -/
def writeChars : Datum → Except Unwritable (List Char)
  | .scalar s => writeScalar s
  | .list items => do
    let parts ← writeItems items
    return '[' :: (parts ++ [']'])
  | .map entries => do
    let parts ← writeEntries entries
    return '\x7b' :: (parts ++ ['\x7d'])
  | .set _ => .error (.value "set")

/-- Items with commas between. -/
def writeItems : List Datum → Except Unwritable (List Char)
  | [] => .ok []
  | [d] => writeChars d
  | d :: rest => do
    let here ← writeChars d
    let more ← writeItems rest
    return here ++ ',' :: ' ' :: more

/-- Entries with commas between. -/
def writeEntries : List (Scalar × Datum) → Except Unwritable (List Char)
  | [] => .ok []
  | [(k, d)] => do
    let key ← writeKey k
    let here ← writeChars d
    return key ++ ':' :: ' ' :: here
  | (k, d) :: rest => do
    let key ← writeKey k
    let here ← writeChars d
    let more ← writeEntries rest
    return key ++ ':' :: ' ' :: (here ++ ',' :: ' ' :: more)

end

/-- The written form of a value. -/
def write (d : Datum) : Except Unwritable String := (writeChars d).map String.ofList

end Stencil.Json
