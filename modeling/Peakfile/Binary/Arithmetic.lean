/-
# Arithmetic

Sums, products and quotients are computed exactly and rounded once, to the
nearest number with ties to even.  The infinities and the signed zeros follow the
usual table, and whatever has no value is not a number.
-/
import Peakfile.Binary.Rounding

namespace Peakfile

namespace Binary

variable {f : BinaryFormat}

/-- The result of an operation without a value. -/
def undefined (f : BinaryFormat) : Binary f := ofBits f (f.infinity + Nat.pow 2 (f.fractionBits - 1))

/-- Sum, rounded once.  An exact zero is positive unless both operands are
negative zeros. -/
def add (x y : Binary f) : Binary f :=
  if x.isNaN || y.isNaN then undefined f
  else if x.isInfinite then
    if y.isInfinite && x.negative != y.negative then undefined f else x
  else if y.isInfinite then y
  else
    let sum := x.units + y.units
    if sum = 0 then zero (x.negative && y.negative)
    else ofUnits (sum < 0) sum.natAbs 1

/-- Product, rounded once. -/
def mul (x y : Binary f) : Binary f :=
  let negative := x.negative != y.negative
  if x.isNaN || y.isNaN then undefined f
  else if x.isInfinite || y.isInfinite then
    if x.isZero || y.isZero then undefined f else infinity negative
  else ofUnits negative (f.units x.magnitude * f.units y.magnitude) f.one

/-- Quotient, rounded once. -/
def div (x y : Binary f) : Binary f :=
  let negative := x.negative != y.negative
  if x.isNaN || y.isNaN then undefined f
  else if x.isInfinite then
    if y.isInfinite then undefined f else infinity negative
  else if y.isInfinite then zero negative
  else if y.isZero then
    if x.isZero then undefined f else infinity negative
  else ofUnits negative (f.units x.magnitude * f.one) (f.units y.magnitude)

instance : Add (Binary f) := ⟨add⟩
instance : Mul (Binary f) := ⟨mul⟩
instance : Div (Binary f) := ⟨div⟩

/-- The whole number nearest to the absolute value of a finite number; a tie goes
up, so that with the sign it goes away from zero. -/
def roundedMagnitude (x : Binary f) : Nat := roundTiesUp (f.units x.magnitude) f.one

/-- The nearest whole number within `lo` and `hi`, ties away from zero.  What is
not a number counts as zero. -/
def toIntWithin (lo hi : Int) (x : Binary f) : Int :=
  if x.isNaN then 0
  else if x.isInfinite then (if x.negative then lo else hi)
  else max lo (min hi (if x.negative then -(x.roundedMagnitude : Int) else x.roundedMagnitude))

end Binary

end Peakfile
