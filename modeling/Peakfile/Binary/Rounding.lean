/-
# Rounding

A quotient of naturals is rounded to the nearest whole number in two ways that
differ only in where a tie goes, and to the nearest number of a binary format by
rounding it on the grid of its binade.  Because the grid point and the magnitude
share their parity, "tie to the even whole number" on the grid is "tie to the
even magnitude"; a carry into the next binade and an overflow to infinity need no
case of their own.
-/
import Peakfile.Binary.Basic

namespace Peakfile

/-! ## Rounding to whole numbers -/

/-- The whole number nearest to `num / den`; a tie goes to the even one. -/
def roundTiesToEven (num den : Nat) : Nat :=
  let floor := num / den
  let rest := num % den
  if 2 * rest < den then floor
  else if den < 2 * rest then floor + 1
  else if floor % 2 = 0 then floor
  else floor + 1

/-- Rounding with ties to even never goes up by more than half. -/
theorem two_mul_roundTiesToEven_le (num : Nat) {den : Nat} (h : 0 < den) :
    2 * (roundTiesToEven num den * den) ≤ 2 * num + den := by
  have hd := Nat.div_add_mod num den
  have hm := Nat.mod_lt num h
  rw [Nat.mul_comm] at hd
  unfold roundTiesToEven
  dsimp only
  split
  · omega
  · split
    · rw [Nat.add_one_mul (num / den)]; omega
    · split
      · omega
      · rw [Nat.add_one_mul (num / den)]; omega

/-- Rounding with ties to even never goes down by more than half. -/
theorem le_two_mul_roundTiesToEven (num : Nat) {den : Nat} (h : 0 < den) :
    2 * num ≤ 2 * (roundTiesToEven num den * den) + den := by
  have hd := Nat.div_add_mod num den
  have hm := Nat.mod_lt num h
  rw [Nat.mul_comm] at hd
  unfold roundTiesToEven
  dsimp only
  split
  · omega
  · split
    · rw [Nat.add_one_mul (num / den)]; omega
    · split
      · omega
      · rw [Nat.add_one_mul (num / den)]; omega

/-- The whole number nearest to `num / den`; a tie goes up. -/
def roundTiesUp (num den : Nat) : Nat := (2 * num + den) / (2 * den)

/-- Rounding with ties up never goes up by more than half. -/
theorem two_mul_roundTiesUp_le (num den : Nat) :
    2 * (roundTiesUp num den * den) ≤ 2 * num + den := by
  have h := Nat.div_mul_le_self (2 * num + den) (2 * den)
  rw [Nat.mul_left_comm] at h
  exact h

/-- Rounding with ties up goes down by less than half. -/
theorem lt_two_mul_roundTiesUp (num : Nat) {den : Nat} (h : 0 < den) :
    2 * num < 2 * (roundTiesUp num den * den) + den := by
  have hlt := Nat.lt_div_mul_add (a := 2 * num + den) (b := 2 * den) (by omega)
  have heq : (2 * num + den) / (2 * den) * (2 * den) = 2 * (roundTiesUp num den * den) := by
    rw [roundTiesUp, Nat.mul_left_comm]
  omega

/-! ## Rounding to a binary format -/

namespace BinaryFormat

/-- How many binary places the grid around `num / den` units lies above the
finest grid of the format. -/
def gridShift (f : BinaryFormat) (num den : Nat) : Nat := Nat.log2 (num / den) - f.fractionBits

/-- The magnitude nearest to `num / den` units; a tie goes to the even magnitude,
and what lies beyond the largest finite number by half a step or more is infinite. -/
def nearest (f : BinaryFormat) (num den : Nat) : Nat :=
  let shift := f.gridShift num den
  min (roundTiesToEven num (den * Nat.pow 2 shift) + shift * Nat.pow 2 f.fractionBits) f.infinity

theorem nearest_lt (f : BinaryFormat) (num den : Nat) :
    f.nearest num den < Nat.pow 2 f.magnitudeBits :=
  Nat.lt_of_le_of_lt (Nat.min_le_right _ _) f.infinity_lt

end BinaryFormat

namespace Binary

variable {f : BinaryFormat}

/-- The number nearest to `num / den` units, with the given sign. -/
def ofUnits (negative : Bool) (num den : Nat) : Binary f :=
  ⟨negative, f.nearest num den, f.nearest_lt num den⟩

/-- The number nearest to `num / den`, with the given sign. -/
def ofRatio (negative : Bool) (num den : Nat) : Binary f :=
  ofUnits negative (num * f.one) den

/-- The number nearest to a whole number. -/
def ofNat (f : BinaryFormat) (n : Nat) : Binary f := ofRatio false n 1

end Binary

end Peakfile
