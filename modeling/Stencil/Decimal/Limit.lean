/-!
# How long a number may be

A whole number has to have no more than so many decimal digits to be read or written. Zeros in front count
where it is read. In the bases 2, 8 and 16 a number may be of any length.
-/

namespace Stencil.Decimal

/-- The most decimal digits that a whole number is read or written with. -/
def digitLimit : Nat := 4300

/-- Whether a whole number is short enough to be written. -/
def isWritable (i : Int) : Bool := (Nat.toDigits 10 i.natAbs).length ≤ digitLimit

/-- What is said of a whole number that is too long to be written. -/
def tooLongToWrite : String :=
  s!"Exceeds the limit ({digitLimit} digits) for integer string conversion; " ++
    "use sys.set_int_max_str_digits() to increase the limit"

/-- What is said of a whole number of so many digits that is too long to be read. -/
def tooLongToRead (digits : Nat) : String :=
  s!"Exceeds the limit ({digitLimit} digits) for integer string conversion: value has {digits} digits; " ++
    "use sys.set_int_max_str_digits() to increase the limit"

end Stencil.Decimal
