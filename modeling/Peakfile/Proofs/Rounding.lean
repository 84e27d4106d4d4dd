/-
# Rounding keeps the order

Rounding is monotone: quotients in order are rounded to numbers in order, on the whole
numbers (`roundTiesToEven_mono`, `roundTiesUp_mono`) and on the numbers of a format
(`BinaryFormat.nearest_mono`), where the grids of two binades meet at the power of two
between them.  A number of the format is rounded to itself (`BinaryFormat.nearest_units`).
So magnitudes stand in the order of their values, and what is said of exact values carries
over to the places of their roundings (`Binary.order_round_le`).
-/
import Mathlib
import Peakfile.Binary.Arithmetic

namespace Peakfile

/-! ## Rounding to whole numbers -/

variable {num den num' den' : Nat}

/-- Quotients in order have floors in order. -/
theorem div_le_div_of_mul_le (hden : 0 < den) (hden' : 0 < den')
    (h : num * den' ≤ num' * den) : num / den ≤ num' / den' := by
  rw [Nat.le_div_iff_mul_le hden']
  refine Nat.le_of_mul_le_mul_right ?_ hden
  calc num / den * den' * den = num / den * den * den' := Nat.mul_right_comm _ _ _
    _ ≤ num * den' := Nat.mul_le_mul_right _ (Nat.div_mul_le_self num den)
    _ ≤ num' * den := h

theorem div_le_roundTiesToEven (num den : Nat) : num / den ≤ roundTiesToEven num den := by
  unfold roundTiesToEven
  dsimp only
  split_ifs <;> omega

theorem roundTiesToEven_le_succ (num den : Nat) :
    roundTiesToEven num den ≤ num / den + 1 := by
  unfold roundTiesToEven
  dsimp only
  split_ifs <;> omega

/-- A whole number is rounded to itself. -/
theorem roundTiesToEven_mul (n : Nat) (hden : 0 < den) : roundTiesToEven (n * den) den = n := by
  unfold roundTiesToEven
  dsimp only
  rw [Nat.mul_mod_left, if_pos (by omega), Nat.mul_div_cancel _ hden]

/-- Quotients in order are rounded to whole numbers in order, a tie to the even one. -/
theorem roundTiesToEven_mono (hden : 0 < den) (hden' : 0 < den')
    (h : num * den' ≤ num' * den) : roundTiesToEven num den ≤ roundTiesToEven num' den' := by
  rcases (div_le_div_of_mul_le hden hden' h).lt_or_eq with hlt | heq
  · calc roundTiesToEven num den ≤ num / den + 1 := roundTiesToEven_le_succ num den
      _ ≤ num' / den' := hlt
      _ ≤ roundTiesToEven num' den' := div_le_roundTiesToEven num' den'
  · -- Both quotients lie above the same whole number, so what they leave is in order.
    have hrest : num % den * den' ≤ num' % den' * den := by
      have hnum := Nat.div_add_mod num den
      have hnum' := Nat.div_add_mod num' den'
      rw [← heq] at hnum'
      nlinarith
    have hhalf : den ≤ 2 * (num % den) → den' ≤ 2 * (num' % den') := by
      intro hle
      refine Nat.le_of_mul_le_mul_right ?_ hden
      nlinarith
    have hmore : den < 2 * (num % den) → den' < 2 * (num' % den') := by
      intro hlt
      refine Nat.lt_of_mul_lt_mul_right (a := den) ?_
      nlinarith
    unfold roundTiesToEven
    dsimp only
    rw [heq]
    split_ifs <;> omega

/-- Quotients in order are rounded to whole numbers in order, a tie upwards. -/
theorem roundTiesUp_mono (h : num ≤ num') (den : Nat) :
    roundTiesUp num den ≤ roundTiesUp num' den :=
  Nat.div_le_div_right (by omega)

/-- A whole number is rounded to itself. -/
theorem roundTiesUp_mul (n : Nat) (hden : 0 < den) : roundTiesUp (n * den) den = n := by
  rw [roundTiesUp]
  have hsplit : 2 * (n * den) + den = den + n * (2 * den) := by ring
  rw [hsplit, Nat.add_mul_div_right _ _ (by omega), Nat.div_eq_of_lt (by omega), Nat.zero_add]

/-! ## Rounding to a format -/

namespace BinaryFormat

variable {f : BinaryFormat}

theorem lt_two_pow_gridShift (num den : Nat) :
    num / den < 2 ^ (f.gridShift num den + f.fractionBits + 1) := by
  refine Nat.lt_of_lt_of_le Nat.lt_log2_self (Nat.pow_le_pow_right (by decide) ?_)
  rw [gridShift]
  omega

theorem two_pow_gridShift_le (num den : Nat) (h : 0 < f.gridShift num den) :
    2 ^ (f.gridShift num den + f.fractionBits) ≤ num / den := by
  have hlog : f.gridShift num den + f.fractionBits = Nat.log2 (num / den) := by
    rw [gridShift] at h ⊢
    omega
  rw [hlog]
  refine Nat.log2_self_le ?_
  rintro hzero
  rw [gridShift, hzero, Nat.log2_zero] at h
  omega

/-- On its grid a quotient is rounded to no more than twice a full fraction. -/
theorem roundTiesToEven_grid_le (num den : Nat) :
    roundTiesToEven num (den * 2 ^ f.gridShift num den) ≤ 2 * 2 ^ f.fractionBits := by
  have hbelow := lt_two_pow_gridShift (f := f) num den
  generalize f.gridShift num den = shift at hbelow ⊢
  refine (roundTiesToEven_le_succ _ _).trans ?_
  rw [← Nat.div_div_eq_div_mul, Nat.succ_le_iff, Nat.div_lt_iff_lt_mul (by positivity)]
  calc num / den < 2 ^ (shift + f.fractionBits + 1) := hbelow
    _ = 2 * 2 ^ f.fractionBits * 2 ^ shift := by ring

/-- Above the finest grid a quotient is rounded to no less than a full fraction. -/
theorem le_roundTiesToEven_grid (num den : Nat) (h : 0 < f.gridShift num den) :
    2 ^ f.fractionBits ≤ roundTiesToEven num (den * 2 ^ f.gridShift num den) := by
  have habove := two_pow_gridShift_le (f := f) num den h
  generalize f.gridShift num den = shift at habove ⊢
  refine le_trans ?_ (div_le_roundTiesToEven _ _)
  rw [← Nat.div_div_eq_div_mul, Nat.le_div_iff_mul_le (by positivity), ← Nat.pow_add,
    Nat.add_comm]
  exact habove

/-- **Rounding keeps the order.** -/
theorem nearest_mono (hden : 0 < den) (hden' : 0 < den') (h : num * den' ≤ num' * den) :
    f.nearest num den ≤ f.nearest num' den' := by
  have hfloor := div_le_div_of_mul_le hden hden' h
  have hshift : f.gridShift num den ≤ f.gridShift num' den' := by
    rw [gridShift, gridShift, Nat.log2_eq_log_two, Nat.log2_eq_log_two]
    exact Nat.sub_le_sub_right (Nat.log_mono_right hfloor) _
  rw [nearest, nearest]
  refine min_le_min_right _ ?_
  simp only [Nat.pow_eq]
  rcases hshift.eq_or_lt with heq | hlt
  · -- The grid is the same.
    rw [← heq]
    refine Nat.add_le_add_right (roundTiesToEven_mono (by positivity) (by positivity) ?_) _
    nlinarith [Nat.two_pow_pos (f.gridShift num den)]
  · -- A power of two that lies on both grids is between the two.
    have hup := roundTiesToEven_grid_le (f := f) num den
    have hdown := le_roundTiesToEven_grid (f := f) num' den' (by omega)
    generalize f.gridShift num den = shift at hlt hup ⊢
    generalize f.gridShift num' den' = shift' at hlt hdown ⊢
    calc roundTiesToEven num (den * 2 ^ shift) + shift * 2 ^ f.fractionBits
        ≤ 2 * 2 ^ f.fractionBits + shift * 2 ^ f.fractionBits := Nat.add_le_add_right hup _
      _ = 2 ^ f.fractionBits + (shift + 1) * 2 ^ f.fractionBits := by ring
      _ ≤ roundTiesToEven num' (den' * 2 ^ shift') + shift' * 2 ^ f.fractionBits :=
        Nat.add_le_add hdown (Nat.mul_le_mul_right _ hlt)

/-- A point of the grid with a shift, and of no coarser one. -/
structure OnGrid (f : BinaryFormat) (point shift : Nat) : Prop where
  lt : point < 2 * 2 ^ f.fractionBits
  le : shift ≠ 0 → 2 ^ f.fractionBits ≤ point

variable {point shift : Nat}

/-- Every magnitude is a point of its grid, counted from the grids below. -/
theorem exists_onGrid (f : BinaryFormat) (magnitude : Nat) :
    ∃ point shift, f.OnGrid point shift ∧ magnitude = point + shift * 2 ^ f.fractionBits := by
  have hsplit := Nat.div_add_mod magnitude (2 ^ f.fractionBits)
  have hlt := Nat.mod_lt magnitude (Nat.two_pow_pos f.fractionBits)
  rcases hexponent : magnitude / 2 ^ f.fractionBits with _ | shift
  · rw [hexponent, Nat.mul_zero, Nat.zero_add] at hsplit
    refine ⟨magnitude, 0, ⟨by omega, fun h => absurd rfl h⟩, by omega⟩
  · rw [hexponent, Nat.mul_succ] at hsplit
    refine ⟨2 ^ f.fractionBits + magnitude % 2 ^ f.fractionBits, shift,
      ⟨by omega, fun _ => Nat.le_add_right _ _⟩, ?_⟩
    linarith

/-- The value of a magnitude is that of its point. -/
theorem OnGrid.units (h : f.OnGrid point shift) :
    f.units (point + shift * 2 ^ f.fractionBits) = point * 2 ^ shift := by
  have hlt := h.lt
  rw [BinaryFormat.units]
  simp only [Nat.pow_eq]
  by_cases hbinade : point < 2 ^ f.fractionBits
  · -- Only the finest grid has points below the first binade.
    obtain rfl : shift = 0 := by
      by_contra hshift
      exact absurd (h.le hshift) (Nat.not_le.2 hbinade)
    rw [Nat.zero_mul, Nat.add_zero, Nat.div_eq_of_lt hbinade, if_pos rfl, Nat.pow_zero,
      Nat.mul_one]
  · have hone : point / 2 ^ f.fractionBits = 1 := Nat.div_eq_of_lt_le (by omega) (by omega)
    have hfraction : point % 2 ^ f.fractionBits = point - 2 ^ f.fractionBits := by
      rw [Nat.mod_eq_sub_mod (by omega), Nat.mod_eq_of_lt (by omega)]
    rw [Nat.add_mul_div_right _ _ (Nat.two_pow_pos _), hone, Nat.add_mul_mod_self_right,
      hfraction, if_neg (by omega), Nat.add_sub_cancel' (by omega), Nat.add_sub_cancel_left]

/-- Between a point and the next one the grid is that of the point. -/
theorem OnGrid.gridShift_between (h : f.OnGrid point shift) (hden : 0 < den)
    (hlow : point * (den * 2 ^ shift) ≤ num) (hhigh : num < (point + 1) * (den * 2 ^ shift)) :
    f.gridShift num den = shift := by
  have hle : point * 2 ^ shift ≤ num / den := by
    rw [Nat.le_div_iff_mul_le hden, Nat.mul_assoc, Nat.mul_comm (2 ^ shift)]
    exact hlow
  have hlt : num / den < (point + 1) * 2 ^ shift := by
    rw [Nat.div_lt_iff_lt_mul hden, Nat.mul_assoc, Nat.mul_comm (2 ^ shift)]
    exact hhigh
  have hfull : num / den < 2 ^ (f.fractionBits + shift + 1) := by
    refine hlt.trans_le ?_
    calc (point + 1) * 2 ^ shift ≤ 2 * 2 ^ f.fractionBits * 2 ^ shift :=
          Nat.mul_le_mul_right _ h.lt
      _ = 2 ^ (f.fractionBits + shift + 1) := by ring
  rw [BinaryFormat.gridShift, Nat.log2_eq_log_two]
  generalize num / den = quotient at hle hfull
  have hlog : Nat.log 2 quotient ≤ f.fractionBits + shift :=
    Nat.le_of_lt_succ (Nat.log_lt_of_lt_pow' (Nat.succ_ne_zero _) hfull)
  by_cases hshift : shift = 0
  · omega
  · have hpow : 2 ^ (f.fractionBits + shift) ≤ quotient := by
      rw [Nat.pow_add]
      exact (Nat.mul_le_mul_right _ (h.le hshift)).trans hle
    have hge : f.fractionBits + shift ≤ Nat.log 2 quotient :=
      Nat.le_log_of_pow_le (by decide) hpow
    omega

/-- The grid around the value of a point is its own. -/
theorem OnGrid.gridShift (h : f.OnGrid point shift) (hden : 0 < den) :
    f.gridShift (point * 2 ^ shift * den) den = shift := by
  have hvalue : point * 2 ^ shift * den = point * (den * 2 ^ shift) := by ring
  have hstep : 0 < den * 2 ^ shift := Nat.mul_pos hden (Nat.two_pow_pos shift)
  refine h.gridShift_between hden hvalue.ge ?_
  rw [hvalue]
  exact Nat.mul_lt_mul_of_pos_right (Nat.lt_succ_self point) hstep

/-- The value of a point is rounded to its magnitude. -/
theorem OnGrid.nearest (h : f.OnGrid point shift) (hden : 0 < den) :
    f.nearest (point * 2 ^ shift * den) den =
      min (point + shift * 2 ^ f.fractionBits) f.infinity := by
  rw [BinaryFormat.nearest, h.gridShift hden]
  simp only [Nat.pow_eq]
  rw [Nat.mul_assoc, Nat.mul_comm (2 ^ shift), roundTiesToEven_mul _ (by positivity)]

/-- A number of the format is rounded to itself. -/
theorem nearest_units {magnitude : Nat} (h : magnitude ≤ f.infinity) (hden : 0 < den) :
    f.nearest (f.units magnitude * den) den = magnitude := by
  obtain ⟨point, shift, hgrid, rfl⟩ := f.exists_onGrid magnitude
  rw [hgrid.units, hgrid.nearest hden]
  exact Nat.min_eq_left h

theorem nearest_zero (f : BinaryFormat) (den : Nat) : f.nearest 0 den = 0 := by
  rw [nearest, gridShift, roundTiesToEven]
  simp

/-- A whole number of units on the grid around it is a number of the format, unless it is
too large. -/
theorem units_nearest {n : Nat} (hdvd : 2 ^ f.gridShift n 1 ∣ n)
    (hfinite : f.nearest n 1 < f.infinity) : f.units (f.nearest n 1) = n := by
  obtain ⟨point, hpoint⟩ := hdvd
  have hbelow := lt_two_pow_gridShift (f := f) n 1
  have habove := two_pow_gridShift_le (f := f) n 1
  rw [Nat.div_one] at hbelow habove
  generalize f.gridShift n 1 = shift at hpoint hbelow habove
  rw [Nat.mul_comm] at hpoint
  subst hpoint
  have hgrid : f.OnGrid point shift := by
    constructor
    · refine Nat.lt_of_mul_lt_mul_right (a := 2 ^ shift) ?_
      calc point * 2 ^ shift < 2 ^ (shift + f.fractionBits + 1) := hbelow
        _ = 2 * 2 ^ f.fractionBits * 2 ^ shift := by ring
    · intro hshift
      refine Nat.le_of_mul_le_mul_right ?_ (Nat.two_pow_pos shift)
      rw [← Nat.pow_add, Nat.add_comm]
      exact habove (Nat.pos_of_ne_zero hshift)
  have hnearest := hgrid.nearest Nat.one_pos
  rw [Nat.mul_one] at hnearest
  rw [hnearest] at hfinite ⊢
  rw [Nat.min_eq_left (by omega), hgrid.units]

variable {first second : Nat}

/-- Magnitudes stand in the order of their values. -/
theorem units_le_iff (hfirst : first ≤ f.infinity) (hsecond : second ≤ f.infinity) :
    f.units first ≤ f.units second ↔ first ≤ second := by
  have hback : ∀ {a b : Nat}, a ≤ f.infinity → b ≤ f.infinity → f.units a ≤ f.units b → a ≤ b := by
    intro a b ha hb hle
    rw [← nearest_units ha Nat.one_pos, ← nearest_units hb Nat.one_pos]
    refine nearest_mono Nat.one_pos Nat.one_pos ?_
    rw [Nat.mul_one, Nat.mul_one, Nat.mul_one, Nat.mul_one]
    exact hle
  constructor
  · exact hback hfirst hsecond
  · intro hle
    rcases Nat.le_total (f.units first) (f.units second) with h | h
    · exact h
    · rw [Nat.le_antisymm hle (hback hsecond hfirst h)]

theorem units_zero (f : BinaryFormat) : f.units 0 = 0 := by
  rw [units, Nat.zero_div, if_pos rfl]

theorem units_eq_zero_iff (hfirst : first ≤ f.infinity) : f.units first = 0 ↔ first = 0 := by
  have hle := units_le_iff hfirst (Nat.zero_le f.infinity)
  rw [units_zero] at hle
  omega

end BinaryFormat

/-! ## Signed values -/

namespace Binary

variable {f : BinaryFormat} {x y : Binary f}

theorem magnitude_le (hx : x.isNaN = false) : x.magnitude ≤ f.infinity := by
  rw [isNaN, decide_eq_false_iff_not] at hx
  exact Nat.not_lt.1 hx

/-- Numbers and infinities stand in the order of their values. -/
theorem units_le_units_iff (hx : x.isNaN = false) (hy : y.isNaN = false) :
    x.units ≤ y.units ↔ x.order ≤ y.order := by
  have hle := BinaryFormat.units_le_iff (magnitude_le hx) (magnitude_le hy)
  have hge := BinaryFormat.units_le_iff (magnitude_le hy) (magnitude_le hx)
  have hx0 := BinaryFormat.units_eq_zero_iff (magnitude_le hx)
  have hy0 := BinaryFormat.units_eq_zero_iff (magnitude_le hy)
  rw [units, units, order, order]
  rcases x.negative with _ | _ <;> rcases y.negative with _ | _ <;>
    simp only [Bool.false_eq_true, if_false, if_true] <;> omega

/-- The number nearest to `num / den` units of either sign. -/
def round (f : BinaryFormat) (num : Int) (den : Nat) : Binary f :=
  ofUnits (num < 0) num.natAbs den

theorem order_round (num : Int) (den : Nat) :
    (round f num den).order =
      if num < 0 then -(f.nearest num.natAbs den : Int) else f.nearest num.natAbs den := by
  simp only [round, ofUnits, order, decide_eq_true_eq]

/-- **Values in order are rounded to numbers in order.** -/
theorem order_round_le {num num' : Int} {den den' : Nat} (hden : 0 < den) (hden' : 0 < den')
    (h : num * den' ≤ num' * den) : (round f num den).order ≤ (round f num' den').order := by
  rw [order_round, order_round]
  split_ifs with hnum hnum' hnum'
  · -- Below zero the absolute values stand the other way round.
    have hle : num'.natAbs * den ≤ num.natAbs * den' := by
      zify
      rw [abs_of_neg hnum, abs_of_neg hnum']
      linarith
    have hmono := BinaryFormat.nearest_mono (f := f) hden' hden hle
    omega
  · omega
  · have hpos : 0 ≤ num * den' := Int.mul_nonneg (by omega) (by omega)
    have hneg : num' * den < 0 := Int.mul_neg_of_neg_of_pos hnum' (by omega)
    omega
  · have hle : num.natAbs * den' ≤ num'.natAbs * den := by
      zify
      rw [abs_of_nonneg (by omega), abs_of_nonneg (by omega)]
      exact h
    have hmono := BinaryFormat.nearest_mono (f := f) hden hden' hle
    omega

/-- A value may be given as a sign and an absolute value, of which the sign of a zero has
no place. -/
theorem order_ofUnits (x : Binary f) (num den : Nat) :
    (ofUnits x.negative (f.units x.magnitude * num) den : Binary f).order =
      (round f (x.units * num) den).order := by
  have habs : (x.units * num).natAbs = f.units x.magnitude * num := by
    rw [units, Int.natAbs_mul, Int.natAbs_natCast]
    split_ifs <;> simp
  rw [order_round, habs, units]
  show (if x.negative then -(f.nearest (f.units x.magnitude * num) den : Int)
    else f.nearest (f.units x.magnitude * num) den) = _
  rcases x.negative with _ | _
  · have hnonneg : (0 : Int) ≤ f.units x.magnitude * num := by positivity
    simp only [Bool.false_eq_true, if_false]
    rw [if_neg (Int.not_lt.2 hnonneg)]
  · simp only [if_true]
    split_ifs with hneg
    · rfl
    · have hzero : f.units x.magnitude * num = 0 := by
        rw [Int.neg_mul] at hneg
        omega
      rw [hzero, BinaryFormat.nearest_zero]
      rfl

end Binary

end Peakfile
