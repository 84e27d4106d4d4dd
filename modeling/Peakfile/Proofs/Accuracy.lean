/-
# How far rounding goes

A value is rounded to a point of the grid around it, so the number that it is rounded to is
off by half a step of that grid at most (`BinaryFormat.abs_units_nearest_sub_le`).  How fine
the grid is follows from how large the value is (`BinaryFormat.gridShift_le`).  Rounding to a
whole number adds a half to that (`Binary.abs_rounded_sub_value_le`).
-/
import Peakfile.Proofs.Rounding

namespace Peakfile

variable {num den : Nat}

/-! ## Distances in units -/

namespace BinaryFormat

variable {f : BinaryFormat}

/-- A value below a power of two has a grid that is fine in proportion. -/
theorem gridShift_le {shift : Nat} (h : num < 2 ^ (shift + f.fractionBits + 1) * den) :
    f.gridShift num den ≤ shift := by
  have hlog : Nat.log 2 (num / den) < shift + f.fractionBits + 1 :=
    Nat.log_lt_of_lt_pow' (Nat.succ_ne_zero _) (Nat.div_lt_of_lt_mul (by rwa [Nat.mul_comm]))
  rw [gridShift, Nat.log2_eq_log_two]
  omega

theorem one_pos (f : BinaryFormat) : 0 < f.one := Nat.two_pow_pos f.unitScale

/-- A whole number that the fraction has room for is a number of the format, unless it is too
large. -/
theorem units_nearest_whole {n : Nat} (hn : n < 2 ^ (f.fractionBits + 1))
    (hfinite : f.nearest (n * f.one) 1 < f.infinity) :
    f.units (f.nearest (n * f.one) 1) = n * f.one := by
  refine units_nearest ?_ hfinite
  -- The grid around the number is no coarser than the whole numbers.
  have hshift : f.gridShift (n * f.one) 1 ≤ f.unitScale := by
    refine gridShift_le ?_
    rw [Nat.mul_one, Nat.add_assoc, Nat.add_comm, Nat.pow_add]
    exact Nat.mul_lt_mul_of_pos_right hn (Nat.two_pow_pos _)
  exact (Nat.pow_dvd_pow 2 hshift).trans (Nat.dvd_mul_left _ _)

/-- What is not rounded to infinity is rounded to a point of the grid around it.  The point
may be the first one of the next coarser grid. -/
theorem units_nearest_eq (hfinite : f.nearest num den < f.infinity) :
    f.units (f.nearest num den) =
      roundTiesToEven num (den * 2 ^ f.gridShift num den) * 2 ^ f.gridShift num den := by
  have hmost := roundTiesToEven_grid_le (f := f) num den
  have hleast := le_roundTiesToEven_grid (f := f) num den
  have hnearest : f.nearest num den = roundTiesToEven num (den * 2 ^ f.gridShift num den) +
      f.gridShift num den * 2 ^ f.fractionBits := by
    rw [nearest] at hfinite ⊢
    simp only [Nat.pow_eq] at hfinite ⊢
    omega
  rw [hnearest]
  generalize f.gridShift num den = shift at hmost hleast ⊢
  generalize roundTiesToEven num (den * 2 ^ shift) = point at hmost hleast ⊢
  rcases hmost.lt_or_eq with hlt | rfl
  · exact OnGrid.units ⟨hlt, fun hshift => hleast (Nat.pos_of_ne_zero hshift)⟩
  · have hgrid : f.OnGrid (2 ^ f.fractionBits) (shift + 1) := by
      constructor
      · have hpos := Nat.two_pow_pos f.fractionBits
        omega
      · exact fun _ => le_rfl
    have hnext : 2 * 2 ^ f.fractionBits + shift * 2 ^ f.fractionBits =
        2 ^ f.fractionBits + (shift + 1) * 2 ^ f.fractionBits := by ring
    rw [hnext, hgrid.units, Nat.pow_succ]
    ring

/-- **Rounding is off by half a step of the grid at most.** -/
theorem abs_units_nearest_sub_le (hden : 0 < den) (hfinite : f.nearest num den < f.infinity) :
    2 * |((f.units (f.nearest num den) * den : Nat) : Int) - num| ≤
      den * 2 ^ f.gridShift num den := by
  have hstep : 0 < den * 2 ^ f.gridShift num den := by positivity
  have hup := two_mul_roundTiesToEven_le num hstep
  have hdown := le_two_mul_roundTiesToEven num hstep
  have hunits : f.units (f.nearest num den) * den =
      roundTiesToEven num (den * 2 ^ f.gridShift num den) * (den * 2 ^ f.gridShift num den) := by
    rw [units_nearest_eq hfinite]
    ring
  rw [← hunits] at hup hdown
  generalize f.units (f.nearest num den) * den = point at hup hdown ⊢
  zify at hup hdown
  rcases abs_cases ((point : Int) - num) with ⟨habs, -⟩ | ⟨habs, -⟩ <;> omega

theorem cast_one_pos (f : BinaryFormat) : (0 : ℚ) < f.one := by
  exact_mod_cast Nat.two_pow_pos f.unitScale

end BinaryFormat

/-! ## Distances in values -/

namespace Binary

variable {f : BinaryFormat} {x y : Binary f}

/-- The value of a finite number. -/
def value (x : Binary f) : ℚ := x.units / f.one

theorem value_eq_of_order_eq (hx : x.isNaN = false) (hy : y.isNaN = false)
    (h : x.order = y.order) : x.value = y.value := by
  have hunits : x.units = y.units :=
    le_antisymm ((units_le_units_iff hx hy).2 h.le) ((units_le_units_iff hy hx).2 h.ge)
  rw [value, value, hunits]

theorem units_round (num : Int) (den : Nat) :
    (round f num den).units =
      if num < 0 then -(f.units (f.nearest num.natAbs den) : Int)
      else f.units (f.nearest num.natAbs den) := by
  simp only [round, ofUnits, units, decide_eq_true_eq]

/-- Rounding a value below a power of two is off by no more than the step of the grid there
allows. -/
theorem abs_value_round_sub_le {num : Int} (hden : 0 < den)
    (hfinite : f.nearest num.natAbs den < f.infinity) {shift : Nat}
    (h : num.natAbs < 2 ^ (shift + f.fractionBits + 1) * den) :
    |(round f num den).value - num / den / f.one| ≤ 2 ^ shift / 2 / f.one := by
  have hdistance := BinaryFormat.abs_units_nearest_sub_le hden hfinite
  have hstep : (den : Int) * 2 ^ f.gridShift num.natAbs den ≤ den * 2 ^ shift := by
    exact_mod_cast Nat.mul_le_mul_left den
      (Nat.pow_le_pow_right Nat.two_pos (BinaryFormat.gridShift_le h))
  -- The sign goes along with the absolute value.
  have hsigned : |(round f num den).units * den - num| =
      |((f.units (f.nearest num.natAbs den) * den : Nat) : Int) - num.natAbs| := by
    rw [units_round]
    push_cast
    split_ifs with hneg
    · rw [abs_of_neg hneg, ← abs_neg]
      congr 1
      ring
    · rw [abs_of_nonneg (Int.not_lt.1 hneg)]
  rw [← hsigned] at hdistance
  have hunits : 2 * |((round f num den).units : ℚ) * den - num| ≤ den * 2 ^ shift := by
    exact_mod_cast hdistance.trans hstep
  have hpos : (0 : ℚ) < den := by exact_mod_cast hden
  have hsplit : (round f num den).value - num / den / f.one =
      ((round f num den).units * den - num) / den / f.one := by
    rw [value]
    field_simp
  rw [hsplit, abs_div, abs_div, abs_of_pos hpos, abs_of_pos f.cast_one_pos]
  refine div_le_div_of_nonneg_right ?_ f.cast_one_pos.le
  rw [div_le_iff₀ hpos]
  linarith

/-- **A finite number is at most a half away from the whole number nearest to it.** -/
theorem abs_rounded_sub_value_le (x : Binary f) :
    |((if x.negative then -(x.roundedMagnitude : Int) else x.roundedMagnitude : Int) : ℚ) -
      x.value| ≤ 1 / 2 := by
  have hone := f.cast_one_pos
  have hup : 2 * ((x.roundedMagnitude : ℚ) * f.one) ≤ 2 * f.units x.magnitude + f.one := by
    exact_mod_cast two_mul_roundTiesUp_le (f.units x.magnitude) f.one
  have hdown : 2 * (f.units x.magnitude : ℚ) ≤ 2 * (x.roundedMagnitude * f.one) + f.one := by
    exact_mod_cast
      (lt_two_mul_roundTiesUp (f.units x.magnitude) (Nat.two_pow_pos f.unitScale)).le
  have hdistance : |(x.roundedMagnitude : ℚ) - f.units x.magnitude / f.one| ≤ 1 / 2 := by
    have hsplit : (x.roundedMagnitude : ℚ) - f.units x.magnitude / f.one =
        (x.roundedMagnitude * f.one - f.units x.magnitude) / f.one := by
      field_simp
    rw [hsplit, abs_div, abs_of_pos hone, div_le_iff₀ hone, abs_le]
    constructor <;> linarith
  rw [value, units]
  split_ifs
  · rw [← abs_neg]
    convert hdistance using 2
    push_cast
    ring
  · rw [Int.cast_natCast, Int.cast_natCast]
    exact hdistance

end Binary

end Peakfile
