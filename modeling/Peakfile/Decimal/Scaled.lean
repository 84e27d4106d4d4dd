/-
# Scaled reading

A numeral may be read faster than to the last bit.  Its leading digits are gathered
as long as they fit 64 bits, the number nearest to them is taken, and that is scaled
by a power of ten; each of the steps rounds.  The result is the number nearest to the
numeral wherever the gathered digits and the power of ten are exact.
-/
import Peakfile.Decimal.Value
import Peakfile.Binary.Arithmetic

namespace Peakfile

namespace Decimal

/-! ## Gathering -/

/-- Gathered digits stay below this number. -/
def gatherBound : Nat := UInt64.size

/-- Append digits to a number while it stays below the bound, and return what is
left of them. -/
def gather : (n : Nat) → (digits : List Char) → Nat × List Char
  | n, [] => (n, [])
  | n, c :: rest =>
    let next := 10 * n + (c.toNat - '0'.toNat)
    if next < gatherBound then gather next rest else (n, c :: rest)

/-- The decimal of the gathered digits of a numeral.  Whole digits that are left over
count as places; fraction digits that are left over are dropped. -/
def gathered (whole fraction : List Char) : Decimal :=
  let (n, leftWhole) := gather 0 whole
  let (n, leftFraction) := gather n fraction
  ⟨n, (leftWhole.length : Int) - (fraction.length - leftFraction.length : Nat)⟩

/-! ## Scaling -/

/-- The largest exponent of a power of ten in double precision. -/
def largestPower : Nat := 308

/-- The number nearest to a power of ten. -/
def power (exponent : Nat) : Double := (⟨1, exponent⟩ : Decimal).toBinary _ false

/-- Divide by a power of ten, in steps of the largest one; zero stays zero. -/
def scaleDown (x : Double) (exponent : Nat) : Double :=
  if x.isZero then x
  else if _h : exponent ≤ largestPower then x / power exponent
  else scaleDown (x / power largestPower) (exponent - largestPower)
termination_by exponent
decreasing_by
  simp only [largestPower] at *
  omega

/-- Multiply by a power of ten, unless the result is beyond every number. -/
def scaleUp? (x : Double) (exponent : Nat) : Option Double :=
  if x.isZero then some x
  else if largestPower < exponent then none
  else if (x * power exponent).isInfinite then none
  else some (x * power exponent)

/-- The number that a decimal is read as, unless it is beyond every number. -/
def scaled? (d : Decimal) : Option Double :=
  if 0 ≤ d.exponent then scaleUp? (Binary.ofNat _ d.digits) d.exponent.toNat
  else some (scaleDown (Binary.ofNat _ d.digits) (-d.exponent).toNat)

end Decimal

end Peakfile
