/-
# Shortest decimals round back

A value no farther than half way from a magnitude is rounded to that magnitude, and a value half
way between two magnitudes to the even one (`BinaryFormat.nearest_le_of_near`,
`BinaryFormat.lt_nearest_of_near`).  The search for the shortest decimal of a magnitude takes
only decimals in that interval, and in the end the exact value, so whatever it finds is rounded
back to where it came from (`Decimal.nearest_shortest`).  Which decimal of the same value is
rounded does not matter (`Decimal.nearest_eq_of_value_eq`).
-/
import Mathlib
import Peakfile.Decimal.Shortest
import Peakfile.Proofs.Rounding

namespace Peakfile

/-! ## Half way between whole numbers -/

variable {n num den : Nat}

theorem roundTiesToEven_le_of_near (h : 2 * num ≤ (2 * n + 1) * den)
    (hodd : n % 2 = 1 → 2 * num ≠ (2 * n + 1) * den) : roundTiesToEven num den ≤ n := by
  rcases Nat.eq_zero_or_pos den with rfl | hden
  · obtain rfl : num = 0 := by omega
    simp [roundTiesToEven]
  have hfloor : num / den ≤ n := by
    refine Nat.le_of_lt_succ ((Nat.div_lt_iff_lt_mul hden).2 ?_)
    rw [Nat.succ_mul]
    rw [Nat.add_mul, Nat.mul_assoc] at h
    omega
  rcases hfloor.lt_or_eq with hlt | heq
  · exact (roundTiesToEven_le_succ num den).trans hlt
  · have hsplit := Nat.div_add_mod num den
    rw [heq, Nat.mul_comm] at hsplit
    rw [Nat.add_mul, Nat.mul_assoc] at h hodd
    unfold roundTiesToEven
    dsimp only
    rw [heq]
    split_ifs <;> omega

theorem lt_roundTiesToEven_of_near (hden : 0 < den) (h : (2 * n + 1) * den ≤ 2 * num)
    (heven : n % 2 = 0 → 2 * num ≠ (2 * n + 1) * den) : n < roundTiesToEven num den := by
  rw [Nat.add_mul, Nat.mul_assoc] at h heven
  have hfloor : n ≤ num / den := by
    rw [Nat.le_div_iff_mul_le hden]
    omega
  rcases hfloor.lt_or_eq with hlt | heq
  · exact hlt.trans_le (div_le_roundTiesToEven num den)
  · have hsplit := Nat.div_add_mod num den
    rw [← heq, Nat.mul_comm] at hsplit
    unfold roundTiesToEven
    dsimp only
    rw [← heq]
    split_ifs <;> omega

/-! ## Half way between magnitudes -/

namespace BinaryFormat

variable {f : BinaryFormat} {point shift magnitude : Nat}

/-- The magnitude behind that of a point has the value of the next point. -/
theorem OnGrid.units_succ (h : f.OnGrid point shift) :
    f.units (point + shift * 2 ^ f.fractionBits + 1) = (point + 1) * 2 ^ shift := by
  have hfull := Nat.two_pow_pos f.fractionBits
  rcases (Nat.succ_le_of_lt h.lt).lt_or_eq with hlt | heq
  · have hnext : f.OnGrid (point + 1) shift :=
      ⟨hlt, fun hshift => (h.le hshift).trans (Nat.le_succ point)⟩
    rw [Nat.add_right_comm, hnext.units]
  · -- Behind the last point of a grid stands the first of the next one.
    have hnext : f.OnGrid (2 ^ f.fractionBits) (shift + 1) := ⟨by omega, fun _ => le_rfl⟩
    have hplace : point + shift * 2 ^ f.fractionBits + 1 =
        2 ^ f.fractionBits + (shift + 1) * 2 ^ f.fractionBits := by
      rw [Nat.add_mul]
      omega
    have hpoint : point + 1 = 2 * 2 ^ f.fractionBits := heq
    rw [hplace, hnext.units, hpoint]
    ring

/-- Between a point and the next one a value is rounded on the grid of the point. -/
theorem OnGrid.nearest_between (h : f.OnGrid point shift) (hden : 0 < den)
    (hlow : point * (den * 2 ^ shift) ≤ num) (hhigh : num < (point + 1) * (den * 2 ^ shift)) :
    f.nearest num den =
      min (roundTiesToEven num (den * 2 ^ shift) + shift * 2 ^ f.fractionBits) f.infinity := by
  rw [BinaryFormat.nearest, h.gridShift_between hden hlow hhigh]
  simp only [Nat.pow_eq]

/-- The parity of a magnitude is that of its point. -/
theorem magnitude_mod_two (hf : 0 < f.fractionBits) (point shift : Nat) :
    (point + shift * 2 ^ f.fractionBits) % 2 = point % 2 := by
  obtain ⟨bits, hbits⟩ := Nat.exists_eq_succ_of_ne_zero hf.ne'
  rw [hbits, Nat.pow_succ, ← Nat.mul_assoc, Nat.add_mul_mod_self_right]

theorem units_add_units_succ_mul (h : f.OnGrid point shift) (den : Nat) :
    (f.units (point + shift * 2 ^ f.fractionBits) +
      f.units (point + shift * 2 ^ f.fractionBits + 1)) * den =
        (2 * point + 1) * (den * 2 ^ shift) := by
  rw [h.units, h.units_succ]
  ring

/-- A value not above half way to the next magnitude is not rounded to that. -/
theorem nearest_le_of_near (hf : 0 < f.fractionBits) (hmagnitude : magnitude < f.infinity)
    (hden : 0 < den) (h : 2 * num ≤ (f.units magnitude + f.units (magnitude + 1)) * den)
    (hodd : magnitude % 2 = 1 → 2 * num ≠ (f.units magnitude + f.units (magnitude + 1)) * den) :
    f.nearest num den ≤ magnitude := by
  rcases Nat.le_total num (f.units magnitude * den) with hle | hge
  · -- A value below that of the magnitude is not rounded above it.
    have hmono := nearest_mono (f := f) hden hden (Nat.mul_le_mul_right den hle)
    rw [nearest_units hmagnitude.le hden] at hmono
    exact hmono
  · obtain ⟨point, shift, hgrid, rfl⟩ := f.exists_onGrid magnitude
    rw [units_add_units_succ_mul hgrid, magnitude_mod_two hf] at hodd
    rw [units_add_units_succ_mul hgrid] at h
    have hstep : 0 < den * 2 ^ shift := Nat.mul_pos hden (Nat.two_pow_pos shift)
    have hlow : point * (den * 2 ^ shift) ≤ num := by
      rw [hgrid.units, Nat.mul_assoc, Nat.mul_comm (2 ^ shift)] at hge
      exact hge
    have hhigh : num < (point + 1) * (den * 2 ^ shift) := by
      rw [Nat.add_mul, Nat.mul_assoc] at h
      rw [Nat.add_mul]
      omega
    rw [hgrid.nearest_between hden hlow hhigh]
    exact (min_le_left _ _).trans
      (Nat.add_le_add_right (roundTiesToEven_le_of_near h hodd) _)

/-- A value not below half way to the next magnitude is rounded above the magnitude. -/
theorem lt_nearest_of_near (hf : 0 < f.fractionBits) (hmagnitude : magnitude < f.infinity)
    (hden : 0 < den) (h : (f.units magnitude + f.units (magnitude + 1)) * den ≤ 2 * num)
    (heven : magnitude % 2 = 0 → 2 * num ≠ (f.units magnitude + f.units (magnitude + 1)) * den) :
    magnitude < f.nearest num den := by
  rcases Nat.le_total (f.units (magnitude + 1) * den) num with hle | hge
  · -- A value above that of the next magnitude is not rounded below it.
    have hmono := nearest_mono (f := f) hden hden (Nat.mul_le_mul_right den hle)
    rw [nearest_units hmagnitude hden] at hmono
    exact hmono
  · obtain ⟨point, shift, hgrid, rfl⟩ := f.exists_onGrid magnitude
    have hstep : 0 < den * 2 ^ shift := Nat.mul_pos hden (Nat.two_pow_pos shift)
    rw [hgrid.units_succ, Nat.mul_assoc, Nat.mul_comm (2 ^ shift)] at hge
    rcases hge.eq_or_lt with heq | hhigh
    · have hnext : num = f.units (point + shift * 2 ^ f.fractionBits + 1) * den := by
        rw [heq, hgrid.units_succ, Nat.mul_assoc, Nat.mul_comm (2 ^ shift)]
      rw [hnext, nearest_units hmagnitude hden]
      exact Nat.lt_succ_self _
    · rw [units_add_units_succ_mul hgrid, magnitude_mod_two hf] at heven
      rw [units_add_units_succ_mul hgrid] at h
      have hlow : point * (den * 2 ^ shift) ≤ num := by
        rw [Nat.add_mul, Nat.mul_assoc] at h
        omega
      rw [hgrid.nearest_between hden hlow hhigh, Nat.lt_min]
      exact ⟨Nat.add_lt_add_right (lt_roundTiesToEven_of_near hstep h heven) _, hmagnitude⟩

end BinaryFormat

/-! ## The magnitude nearest to a decimal -/

namespace Decimal

variable {f : BinaryFormat} {d d' : Decimal} {magnitude : Nat}

/-- The number that a decimal stands for. -/
def value (d : Decimal) : ℚ := d.digits * 10 ^ d.exponent

/-- The magnitude nearest to a decimal. -/
def nearest (f : BinaryFormat) (d : Decimal) : Nat := f.nearest (d.inUnits f).1 (d.inUnits f).2

theorem inUnits_pos (f : BinaryFormat) (d : Decimal) : 0 < (d.inUnits f).2 :=
  Nat.pow_pos (by decide)

/-- A decimal in units is its value in units. -/
theorem inUnits_eq (f : BinaryFormat) (d : Decimal) :
    ((d.inUnits f).1 : ℚ) = d.value * f.one * (d.inUnits f).2 := by
  obtain ⟨digits, exponent⟩ := d
  rw [inUnits, value]
  simp only [Nat.pow_eq]
  obtain ⟨places, rfl | rfl⟩ := exponent.eq_nat_or_neg
  · rw [Int.toNat_natCast, Int.toNat_neg_natCast, pow_zero, zpow_natCast]
    push_cast
    ring
  · rw [neg_neg, Int.toNat_natCast, Int.toNat_neg_natCast, pow_zero, zpow_neg, zpow_natCast]
    push_cast
    field_simp

/-- Decimals of one value are rounded alike. -/
theorem nearest_eq_of_value_eq (h : d.value = d'.value) : d.nearest f = d'.nearest f := by
  have hcross : (d.inUnits f).1 * (d'.inUnits f).2 = (d'.inUnits f).1 * (d.inUnits f).2 := by
    have hd := inUnits_eq f d
    have hd' := inUnits_eq f d'
    rw [h] at hd
    have hrat : ((d.inUnits f).1 : ℚ) * (d'.inUnits f).2 = (d'.inUnits f).1 * (d.inUnits f).2 := by
      rw [hd, hd']
      ring
    exact_mod_cast hrat
  exact Nat.le_antisymm
    (BinaryFormat.nearest_mono (inUnits_pos f d) (inUnits_pos f d') hcross.le)
    (BinaryFormat.nearest_mono (inUnits_pos f d') (inUnits_pos f d) hcross.ge)

/-- A decimal that lies where everything rounds to a magnitude is rounded to it. -/
theorem nearest_of_roundsTo (hf : 0 < f.fractionBits) (hmagnitude : magnitude < f.infinity)
    (h : d.roundsTo f magnitude = true) : d.nearest f = magnitude := by
  have hden := inUnits_pos f d
  rw [nearest]
  rw [roundsTo] at h
  generalize d.inUnits f = units at hden h ⊢
  obtain ⟨num, den⟩ := units
  dsimp only at hden h ⊢
  -- Half way counts for even magnitudes only.
  obtain ⟨hlow, hhigh, hties⟩ :
      (f.units (magnitude - 1) + f.units magnitude) * den ≤ 2 * num ∧
        2 * num ≤ (f.units magnitude + f.units (magnitude + 1)) * den ∧
          (magnitude % 2 = 1 →
            2 * num ≠ (f.units (magnitude - 1) + f.units magnitude) * den ∧
              2 * num ≠ (f.units magnitude + f.units (magnitude + 1)) * den) := by
    split_ifs at h
    · rw [Bool.and_eq_true, decide_eq_true_eq, decide_eq_true_eq] at h
      exact ⟨h.1, h.2, by omega⟩
    · rw [Bool.and_eq_true, decide_eq_true_eq, decide_eq_true_eq] at h
      exact ⟨h.1.le, h.2.le, fun _ => ⟨h.1.ne', h.2.ne⟩⟩
  refine Nat.le_antisymm
    (BinaryFormat.nearest_le_of_near hf hmagnitude hden hhigh fun hodd => (hties hodd).2) ?_
  rcases magnitude with _ | below
  · exact Nat.zero_le _
  · rw [Nat.add_sub_cancel] at hlow hties
    refine BinaryFormat.lt_nearest_of_near hf (Nat.lt_of_succ_lt hmagnitude) hden hlow ?_
    exact fun heven => (hties (by omega)).1

/-- The exact value of a magnitude is rounded to it. -/
theorem nearest_exact (hmagnitude : magnitude < f.infinity) :
    (exact f magnitude).nearest f = magnitude := by
  have hunits : (exact f magnitude).inUnits f =
      (f.units magnitude * 10 ^ f.unitScale, 10 ^ f.unitScale) := by
    rw [exact, inUnits]
    simp only [Nat.pow_eq]
    rw [Int.toNat_neg_natCast, neg_neg, Int.toNat_natCast, Nat.pow_zero, Nat.mul_one,
      BinaryFormat.one, Nat.mul_assoc, Nat.pow_eq, ← Nat.mul_pow]
  rw [nearest, hunits]
  exact BinaryFormat.nearest_units hmagnitude.le (Nat.pow_pos (by decide))

/-! ## The search -/

/-- Whatever the search finds is rounded back. -/
theorem nearest_search (hf : 0 < f.fractionBits) (hmagnitude : magnitude < f.infinity) (tie : Tie)
    (grids : Nat) (exponent : Int) :
    (search f tie magnitude grids exponent).nearest f = magnitude := by
  induction grids generalizing exponent with
  | zero => exact nearest_exact hmagnitude
  | succ grids ih =>
    rw [search]
    rcases hgrid : onGrid? f tie magnitude exponent with _ | d
    · exact ih (exponent - 1)
    · exact nearest_of_roundsTo hf hmagnitude (roundsTo_of_onGrid? hgrid)

/-- **The shortest decimal of a magnitude is rounded back to it.** -/
theorem nearest_shortest (hf : 0 < f.fractionBits) (hmagnitude : magnitude < f.infinity)
    (tie : Tie) : (shortest f tie magnitude).nearest f = magnitude := by
  rw [shortest]
  split_ifs with hzero
  · rw [hzero, nearest, inUnits, Nat.zero_mul, Nat.zero_mul]
    exact f.nearest_zero _
  · exact nearest_search hf hmagnitude tie _ _

/-- Only zero has no digits. -/
theorem shortest_of_digits_eq_zero (hf : 0 < f.fractionBits) (hmagnitude : magnitude < f.infinity)
    {tie : Tie} (h : (shortest f tie magnitude).digits = 0) :
    shortest f tie magnitude = ⟨0, 0⟩ := by
  have hback := nearest_shortest hf hmagnitude tie
  rw [nearest, inUnits, h, Nat.zero_mul, Nat.zero_mul, f.nearest_zero] at hback
  rw [shortest, if_pos hback.symm]

end Decimal

end Peakfile
