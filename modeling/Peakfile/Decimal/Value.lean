/-
# The value of a decimal

A decimal numeral denotes the number of a binary format nearest to it.  A numeral
whose leading digit stands far outside the range of the format is zero or infinite
without its power of ten being formed.
-/
import Peakfile.Decimal.Shortest

namespace Peakfile

namespace Decimal

/-- Beyond this power of ten, in either direction, no number of the format lies. -/
def reach (f : BinaryFormat) : Nat := Nat.pow 2 (f.exponentBits - 1) + f.fractionBits + 2

/-- The number nearest to a decimal, with the given sign. -/
def toBinary (f : BinaryFormat) (negative : Bool) (d : Decimal) : Binary f :=
  if d.digits = 0 then Binary.zero negative
  else
    let leading := d.exponent + Nat.log2 d.digits / 3
    if (reach f : Int) < d.exponent then Binary.infinity negative
    else if leading + 1 < -(reach f : Int) then Binary.zero negative
    else
      let (num, den) := d.inUnits f
      Binary.ofUnits negative num den

/-- The natural number that a list of decimal digits denotes. -/
def ofDigits (digits : List Char) : Nat :=
  digits.foldl (fun n c => 10 * n + (c.toNat - '0'.toNat)) 0

/-- The decimal written as whole digits, fraction digits and a power of ten. -/
def ofParts (whole fraction : List Char) (exponent : Int) : Decimal :=
  ⟨ofDigits (whole ++ fraction), exponent - fraction.length⟩

end Decimal

end Peakfile
