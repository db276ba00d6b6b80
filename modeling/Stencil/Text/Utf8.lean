import Stencil.Text.Digit
import Stencil.Text.Quoted

/-!
# UTF-8

Reading a text from its bytes. The first byte of a character says how many bytes follow and which
range the second one lies in; every later one lies between `80` and `BF`. Bytes that fit no
character are a fault, which spans the longest start of a character that they hold.
-/

namespace Stencil.Text

/-- Why bytes are no text. -/
inductive Utf8Cause where
  /-- No character starts with this byte. -/
  | invalidStart
  /-- A byte that must go on with a character does not. -/
  | invalidContinuation
  /-- The bytes end inside a character. -/
  | truncated
  deriving Repr, DecidableEq

/-- Bytes that are no text: the cause, the first byte at fault and how many belong to the fault. -/
structure Utf8Fault where
  cause : Utf8Cause
  position : Nat
  first : UInt8
  length : Nat
  deriving Repr, DecidableEq

namespace Utf8Cause

/-- The cause in words. -/
def message : Utf8Cause → String
  | invalidStart => "invalid start byte"
  | invalidContinuation => "invalid continuation byte"
  | truncated => "unexpected end of data"

end Utf8Cause

namespace Utf8Fault

/-- The fault in words: a single byte is shown, several are named by their places. -/
def message (f : Utf8Fault) : String :=
  let place :=
    if f.length = 1 then
      "byte 0x" ++ String.ofList (hexDigits 2 f.first.toNat) ++ " in position " ++ toString f.position
    else
      "bytes in position " ++ toString f.position ++ "-" ++ toString (f.position + f.length - 1)
  "'utf-8' codec can't decode " ++ place ++ ": " ++ f.cause.message

end Utf8Fault

/-- What a first byte announces: how many bytes follow, the payload that it carries itself, and the
range of the byte after it. -/
def leadOf (b : UInt8) : Option (Nat × Nat × Nat × Nat) :=
  let n := b.toNat
  if n < 0x80 then some (0, n, 0, 0)
  else if n < 0xC2 then none
  else if n < 0xE0 then some (1, n - 0xC0, 0x80, 0xBF)
  else if n < 0xF0 then
    some (2, n - 0xE0, if n = 0xE0 then 0xA0 else 0x80, if n = 0xED then 0x9F else 0xBF)
  else if n < 0xF5 then
    some (3, n - 0xF0, if n = 0xF0 then 0x90 else 0x80, if n = 0xF4 then 0x8F else 0xBF)
  else none

/-- Takes the bytes that go on with a character: `count` are due, the next between `low` and `high`.
Answers the code point and the rest, or the cause and how many bytes were taken before it. -/
def continuation : (count : Nat) → (low high code taken : Nat) → List UInt8 →
    Except (Utf8Cause × Nat) (Nat × List UInt8)
  | 0, _, _, code, _, rest => .ok (code, rest)
  | _ + 1, _, _, _, taken, [] => .error (.truncated, taken)
  | count + 1, low, high, code, taken, b :: rest =>
    if low ≤ b.toNat ∧ b.toNat ≤ high then
      continuation count 0x80 0xBF (code * 64 + (b.toNat - 0x80)) (taken + 1) rest
    else .error (.invalidContinuation, taken)

/-- Reads characters from bytes; `fuel` is at least the number of bytes. -/
def decodeFrom : (fuel position : Nat) → List UInt8 → Except Utf8Fault (List Char)
  | 0, _, _ => .ok []
  | _, _, [] => .ok []
  | fuel + 1, position, b :: rest =>
    match leadOf b with
    | none => .error ⟨.invalidStart, position, b, 1⟩
    | some (count, code, low, high) =>
      match continuation count low high code 1 rest with
      | .error (cause, taken) => .error ⟨cause, position, b, taken⟩
      | .ok (code, rest) => do
        let cs ← decodeFrom fuel (position + 1 + count) rest
        return Char.ofNat code :: cs

/-- The text that bytes write. -/
def decode (bytes : List UInt8) : Except Utf8Fault String :=
  (decodeFrom bytes.length 0 bytes).map String.ofList

/-- The bytes of a text. -/
def encode (s : String) : List UInt8 := s.toUTF8.toList

/-- Every line end, be it a carriage return, a line feed or the one after the other, as a line feed. -/
def unifyLineEnds : List Char → List Char
  | [] => []
  | '\r' :: '\n' :: rest => '\n' :: unifyLineEnds rest
  | '\r' :: rest => '\n' :: unifyLineEnds rest
  | c :: rest => c :: unifyLineEnds rest

end Stencil.Text
