/-
# Binary floating point numbers

A binary interchange format is given by two widths.  A number of the format is a
sign and a magnitude, the magnitude being the exponent and fraction bits read as
one natural number.  Two facts carry the whole theory:

* magnitudes are ordered as the numbers they stand for, so a comparison never
  decodes anything (`Binary.order`);
* every finite number is a whole multiple of the smallest positive one, so exact
  values are natural numbers (`BinaryFormat.units`).
-/

namespace Peakfile

/-! ## Formats -/

/-- The widths of a binary interchange format. -/
structure BinaryFormat where
  /-- Bits of the fraction. -/
  fractionBits : Nat
  /-- Bits of the exponent. -/
  exponentBits : Nat
  deriving DecidableEq

namespace BinaryFormat

/-- Single precision: 32 bits with the sign. -/
def single : BinaryFormat := ⟨23, 8⟩

/-- Double precision: 64 bits with the sign. -/
def double : BinaryFormat := ⟨52, 11⟩

/-- Bits of a number without its sign. -/
def magnitudeBits (f : BinaryFormat) : Nat := f.fractionBits + f.exponentBits

/-- The magnitude of the infinities: every exponent bit set and no fraction bit. -/
def infinity (f : BinaryFormat) : Nat := (Nat.pow 2 f.exponentBits - 1) * Nat.pow 2 f.fractionBits

/-- The smallest positive number of the format is `2 ^ (-unitScale)`. -/
def unitScale (f : BinaryFormat) : Nat := Nat.pow 2 (f.exponentBits - 1) - 2 + f.fractionBits

/-- One, counted in smallest positive numbers. -/
def one (f : BinaryFormat) : Nat := Nat.pow 2 f.unitScale

/-- The value of a magnitude, counted in smallest positive numbers.  At the
magnitude of infinity this is the power of two that the format no longer holds. -/
def units (f : BinaryFormat) (magnitude : Nat) : Nat :=
  let exponent := magnitude / Nat.pow 2 f.fractionBits
  if exponent = 0 then magnitude
  else (Nat.pow 2 f.fractionBits + magnitude % Nat.pow 2 f.fractionBits) * Nat.pow 2 (exponent - 1)

theorem infinity_lt (f : BinaryFormat) : f.infinity < Nat.pow 2 f.magnitudeBits := by
  have hp : 0 < Nat.pow 2 f.fractionBits := Nat.two_pow_pos _
  have he : 0 < Nat.pow 2 f.exponentBits := Nat.two_pow_pos _
  have hsplit : Nat.pow 2 f.magnitudeBits = Nat.pow 2 f.exponentBits * Nat.pow 2 f.fractionBits :=
    (Nat.pow_add 2 f.fractionBits f.exponentBits).trans (Nat.mul_comm _ _)
  rw [infinity, hsplit]
  exact Nat.mul_lt_mul_of_pos_right (by omega) hp

end BinaryFormat

/-! ## Numbers -/

/-- A number of the format, an infinity, or not a number at all. -/
structure Binary (f : BinaryFormat) where
  /-- The sign bit. -/
  negative : Bool
  /-- The remaining bits as a natural number. -/
  magnitude : Nat
  magnitude_lt : magnitude < Nat.pow 2 f.magnitudeBits
  deriving DecidableEq

/-- A single precision number. -/
abbrev Single := Binary BinaryFormat.single

/-- A double precision number. -/
abbrev Double := Binary BinaryFormat.double

namespace Binary

variable {f : BinaryFormat}

/-- The number with the given bits, sign first. -/
def ofBits (f : BinaryFormat) (bits : Nat) : Binary f where
  negative := bits / Nat.pow 2 f.magnitudeBits % 2 = 1
  magnitude := bits % Nat.pow 2 f.magnitudeBits
  magnitude_lt := Nat.mod_lt _ (Nat.two_pow_pos _)

/-- The bits of a number, sign first. -/
def bits (x : Binary f) : Nat :=
  if x.negative then Nat.pow 2 f.magnitudeBits + x.magnitude else x.magnitude

/-- Zero of either sign. -/
def zero (negative : Bool) : Binary f := ⟨negative, 0, Nat.two_pow_pos _⟩

/-- Infinity of either sign. -/
def infinity (negative : Bool) : Binary f := ⟨negative, f.infinity, f.infinity_lt⟩

/-- Whether the bits stand for no number. -/
def isNaN (x : Binary f) : Bool := f.infinity < x.magnitude

/-- Whether the bits stand for an infinity. -/
def isInfinite (x : Binary f) : Bool := x.magnitude = f.infinity

/-- Whether the number is a zero of either sign. -/
def isZero (x : Binary f) : Bool := x.magnitude = 0

/-- The place of a number among all numbers: the zeros share place `0`. -/
def order (x : Binary f) : Int := if x.negative then -(x.magnitude : Int) else x.magnitude

/-- A number is less than another when both are numbers and their places say so. -/
instance : LT (Binary f) where
  lt x y := x.isNaN = false ∧ y.isNaN = false ∧ x.order < y.order

instance : LE (Binary f) where
  le x y := x.isNaN = false ∧ y.isNaN = false ∧ x.order ≤ y.order

instance (x y : Binary f) : Decidable (x < y) :=
  inferInstanceAs (Decidable (_ ∧ _ ∧ _))

instance (x y : Binary f) : Decidable (x ≤ y) :=
  inferInstanceAs (Decidable (_ ∧ _ ∧ _))

/-- The exact value of a finite number, counted in smallest positive numbers. -/
def units (x : Binary f) : Int :=
  if x.negative then -(f.units x.magnitude : Int) else f.units x.magnitude

/-- The same number with the sign turned. -/
def neg (x : Binary f) : Binary f := { x with negative := !x.negative }

instance : Neg (Binary f) := ⟨neg⟩

end Binary

end Peakfile
