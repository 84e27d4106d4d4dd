/-
# Shortest decimals

The decimal of a floating point number is the one with the fewest digits among
those that round back to it, and of those the one nearest to it; a value half way
between two of them takes one by a stated rule.  The numbers that round back form
an interval around the value; decimal grids are tried from coarse to fine, and on
each grid only the two neighbours of the value can lie in the interval first.  The
search ends by itself on the grid that holds the value.
-/
import Peakfile.Binary.Rounding

namespace Peakfile

/-- A decimal `digits * 10 ^ exponent`. -/
structure Decimal where
  digits : Nat
  exponent : Int
  deriving DecidableEq

namespace Decimal

/-! ## The interval of decimals that round to a magnitude -/

/-- A decimal as a quotient of naturals, counted in smallest positive numbers of
the format. -/
def inUnits (f : BinaryFormat) (d : Decimal) : Nat × Nat :=
  (d.digits * Nat.pow 10 d.exponent.toNat * f.one, Nat.pow 10 (-d.exponent).toNat)

/-- Whether a decimal lies where everything rounds to the given magnitude: not
farther than half way to either neighbour, and half way only if the magnitude is
even. -/
def roundsTo (f : BinaryFormat) (magnitude : Nat) (d : Decimal) : Bool :=
  let (num, den) := d.inUnits f
  let low := (f.units (magnitude - 1) + f.units magnitude) * den
  let high := (f.units magnitude + f.units (magnitude + 1)) * den
  if magnitude % 2 = 0 then low ≤ 2 * num && 2 * num ≤ high
  else low < 2 * num && 2 * num < high

/-! ## The search -/

/-- Where a value half way between two decimals of one grid goes. -/
inductive Tie where
  /-- To the decimal whose last digit is even. -/
  | even
  /-- To the larger decimal. -/
  | up
  deriving DecidableEq

/-- The neighbour below a magnitude's value on the grid `10 ^ exponent`. -/
def below (f : BinaryFormat) (magnitude : Nat) (exponent : Int) : Decimal :=
  ⟨f.units magnitude * Nat.pow 10 (-exponent).toNat / (Nat.pow 10 exponent.toNat * f.one), exponent⟩

/-- The decimal on the grid `10 ^ exponent` that stands for a magnitude, if the
grid has one; of two, the nearer, and of two equally near ones the one that the
tie rule names. -/
def onGrid? (f : BinaryFormat) (tie : Tie) (magnitude : Nat) (exponent : Int) : Option Decimal :=
  let low := below f magnitude exponent
  let high := { low with digits := low.digits + 1 }
  match low.roundsTo f magnitude, high.roundsTo f magnitude with
  | true, false => some low
  | false, true => some high
  | true, true =>
    let (num, den) := low.inUnits f
    let step := Nat.pow 10 exponent.toNat * f.one
    let twice := 2 * (f.units magnitude * den - num)
    if twice < step ∨ (twice = step ∧ tie = .even ∧ low.digits % 2 = 0) then some low
    else some high
  | false, false => none

/-- A decimal found on a grid reads back. -/
theorem roundsTo_of_onGrid? {f : BinaryFormat} {tie : Tie} {magnitude : Nat} {exponent : Int}
    {d : Decimal} (h : onGrid? f tie magnitude exponent = some d) :
    d.roundsTo f magnitude = true := by
  unfold onGrid? at h
  dsimp only at h
  split at h
  · simp only [Option.some.injEq] at h
    subst h
    assumption
  · simp only [Option.some.injEq] at h
    subst h
    assumption
  · split at h <;> simp only [Option.some.injEq] at h <;> subst h <;> assumption
  · simp at h

/-- A magnitude's exact value: on the grid of the smallest positive number every
value of the format is a grid point. -/
def exact (f : BinaryFormat) (magnitude : Nat) : Decimal :=
  ⟨f.units magnitude * Nat.pow 5 f.unitScale, -(f.unitScale : Int)⟩

/-- The first hit on the `grids` grids from `10 ^ exponent` downwards. -/
def search (f : BinaryFormat) (tie : Tie) (magnitude : Nat) :
    (grids : Nat) → (exponent : Int) → Decimal
  | 0, _ => exact f magnitude
  | grids + 1, exponent =>
    (onGrid? f tie magnitude exponent).getD (search f tie magnitude grids (exponent - 1))

/-- An exponent whose power of ten exceeds the value of a magnitude: the binary
places of the value, times a little more than the logarithm of two. -/
def coarsest (f : BinaryFormat) (magnitude : Nat) : Int :=
  ((Nat.log2 (f.units magnitude) : Int) - f.unitScale) * 30103 / 100000 + 2

/-- The shortest decimal that rounds to a magnitude. -/
def shortest (f : BinaryFormat) (tie : Tie) (magnitude : Nat) : Decimal :=
  if magnitude = 0 then ⟨0, 0⟩
  else
    let exponent := coarsest f magnitude
    search f tie magnitude (exponent + f.unitScale).toNat exponent

end Decimal

end Peakfile
