/-
# Scaled reading of short numerals

The scaled reading of a numeral rounds three times: its digits to a number, a power of ten to
another, and the quotient of the two.  Where the digits fit 53 bits and the power of ten is one of
the first (`Json.Numeral.Short`), both numbers are exact, so it rounds once, and the numeral is
read as the number nearest to it (`Json.Numeral.scaled?_eq_nearest?`).
-/
import Peakfile.Proofs.NumberText
import Peakfile.Proofs.WindowLengths

namespace Peakfile

open BinaryFormat (double)

namespace Decimal

/-! ## Gathering -/

theorem le_ofDigitChars (run : List Char) (n : Nat) : n ≤ Nat.ofDigitChars 10 run n := by
  induction run generalizing n with
  | nil => exact le_rfl
  | cons c run ih =>
    rw [Nat.ofDigitChars_cons]
    exact le_trans (by omega) (ih _)

/-- Digits whose number stays below the bound are all gathered. -/
theorem gather_eq {run : List Char} {n : Nat} (h : Nat.ofDigitChars 10 run n < gatherBound) :
    gather n run = (Nat.ofDigitChars 10 run n, []) := by
  induction run generalizing n with
  | nil => rfl
  | cons c run ih =>
    rw [Nat.ofDigitChars_cons] at h ⊢
    rw [gather, if_pos ((le_ofDigitChars run _).trans_lt h), ih h]

/-- A numeral whose digits are all gathered is gathered to its own decimal. -/
theorem gathered_eq {whole fraction : List Char} (h : ofDigits (whole ++ fraction) < gatherBound) :
    gathered whole fraction = ofParts whole fraction 0 := by
  rw [ofDigits_eq, Nat.ofDigitChars_append] at h
  rw [gathered, gather_eq ((le_ofDigitChars fraction _).trans_lt h)]
  dsimp only
  rw [gather_eq h, ofParts, ofDigits_eq, Nat.ofDigitChars_append]
  rfl

/-! ## Scaling -/

/-- The first powers of ten are numbers of the format. -/
theorem units_power {exponent : Nat} (h : exponent ≤ 22) :
    (power exponent).magnitude < double.infinity ∧ (power exponent).negative = false ∧
      double.units (power exponent).magnitude = 10 ^ exponent * double.one := by
  have hall : ∀ exponent ≤ 22, (power exponent).magnitude < double.infinity ∧
      (power exponent).negative = false ∧
        double.units (power exponent).magnitude = 10 ^ exponent * double.one := by
    decide +kernel
  exact hall exponent h

/-- A quotient may be expanded before it is rounded. -/
theorem nearest_mul_mul {f : BinaryFormat} {num den factor : Nat} (hden : 0 < den)
    (hfactor : 0 < factor) : f.nearest (num * factor) (den * factor) = f.nearest num den := by
  have hcross : num * factor * den = num * (den * factor) := by ring
  have hexpanded := Nat.mul_pos hden hfactor
  exact Nat.le_antisymm (BinaryFormat.nearest_mono hexpanded hden hcross.le)
    (BinaryFormat.nearest_mono hden hexpanded hcross.ge)

theorem ofUnits_congr {f : BinaryFormat} {num den num' den' : Nat} (negative : Bool)
    (h : f.nearest num den = f.nearest num' den') :
    (Binary.ofUnits negative num den : Binary f) = .ofUnits negative num' den' := by
  simp only [Binary.ofUnits, h]

/-- A number is scaled down by one division. -/
theorem div_power {x : Double} {exponent : Nat} (hx : x.magnitude < double.infinity)
    (hexponent : exponent ≤ 22) :
    x / power exponent = .ofUnits x.negative (double.units x.magnitude) (10 ^ exponent) := by
  obtain ⟨hpower, hpositive, hten⟩ := units_power hexponent
  have hzero : (power exponent).isZero = false := by
    rw [Binary.isZero, decide_eq_false_iff_not]
    intro hzero
    rw [hzero, BinaryFormat.units_zero] at hten
    exact absurd hten.symm (Nat.mul_pos (Nat.pow_pos (by decide)) double.one_pos).ne'
  have hxNaN : x.isNaN = false := decide_eq_false hx.not_gt
  have hxInfinite : x.isInfinite = false := decide_eq_false hx.ne
  have hpNaN : (power exponent).isNaN = false := decide_eq_false hpower.not_gt
  have hpInfinite : (power exponent).isInfinite = false := decide_eq_false hpower.ne
  show Binary.div x (power exponent) = _
  rw [Binary.div, hxNaN, hxInfinite, hpNaN, hpInfinite, hzero, hpositive, hten]
  simp only [Bool.or_false, Bool.bne_false, Bool.false_eq_true, if_false]
  exact ofUnits_congr _ (nearest_mul_mul (Nat.pow_pos (by decide)) double.one_pos)

/-- **Scaling down** a number that is exact by a power of ten that is exact rounds once. -/
theorem scaleDown_eq {digits exponent : Nat} (hdigits : digits < 2 ^ 53)
    (hexponent : exponent ≤ 22) :
    scaleDown (Binary.ofNat double digits) exponent =
      .ofUnits false (digits * double.one) (10 ^ exponent) := by
  have hmagnitude := Binary.magnitude_ofNat_double hdigits
  have hunits := Binary.units_ofNat_double hdigits
  have hsign : (Binary.ofNat double digits).negative = false := rfl
  have hdiv := div_power hmagnitude hexponent
  rw [hunits, hsign] at hdiv
  rw [scaleDown]
  split_ifs with hzero hpower
  · -- Zero is left as it is.
    have hdigits : digits * double.one = 0 := by
      rw [← hunits, of_decide_eq_true hzero, BinaryFormat.units_zero]
    rw [Binary.ofNat, Binary.ofRatio, hdigits]
    exact ofUnits_congr _ ((double.nearest_zero _).trans (double.nearest_zero _).symm)
  · exact hdiv
  · exact absurd hexponent (by simp only [largestPower] at hpower; omega)

end Decimal

/-! ## Short numerals -/

namespace Json.Numeral

/-- A numeral with places whose digits fit 53 bits and whose power of ten is one of the first. -/
structure Short (n : Numeral) : Prop where
  digits_lt : n.decimal.digits < 2 ^ 53
  exponent_neg : n.decimal.exponent < 0
  le_exponent : -22 ≤ n.decimal.exponent

/-- **Short numerals** are read as the numbers nearest to them. -/
theorem scaled?_eq_nearest? {n : Numeral} (h : n.Short) : n.scaled? = n.nearest? := by
  obtain ⟨hdigits, hneg, hlow⟩ := h
  have hgathered : Decimal.gathered n.whole (n.fraction.getD []) =
      .ofParts n.whole (n.fraction.getD []) 0 :=
    Decimal.gathered_eq (lt_trans hdigits (by decide))
  have hdecimal : (⟨(Decimal.ofParts n.whole (n.fraction.getD []) 0).digits,
      (Decimal.ofParts n.whole (n.fraction.getD []) 0).exponent + n.exponent.getD 0⟩ : Decimal) =
        n.decimal := by
    rw [decimal_eq, Decimal.ofParts]
    dsimp only
    congr 1
    omega
  have hfinite : (Binary.ofUnits n.negative (n.decimal.digits * double.one)
      (10 ^ (-n.decimal.exponent).toNat) : Double).isInfinite = false := by
    have hmono : double.nearest (n.decimal.digits * double.one) (10 ^ (-n.decimal.exponent).toNat) ≤
        double.nearest (n.decimal.digits * double.one) 1 :=
      BinaryFormat.nearest_mono (Nat.pow_pos (by decide)) Nat.one_pos
        (Nat.mul_le_mul_left _ (Nat.one_le_pow _ _ (by decide)))
    exact decide_eq_false (hmono.trans_lt (Binary.magnitude_ofNat_double hdigits)).ne
  have hunits : n.decimal.inUnits double =
      (n.decimal.digits * double.one, 10 ^ (-n.decimal.exponent).toNat) := by
    rw [Decimal.inUnits, Int.toNat_of_nonpos hneg.le]
    simp only [Nat.pow_eq, Nat.pow_zero, Nat.mul_one]
  rw [scaled?, nearest?, hgathered]
  dsimp only
  rw [hdecimal, hunits]
  dsimp only
  rw [hfinite, Decimal.scaled?, if_neg (by omega), Decimal.scaleDown_eq hdigits (by omega)]
  rcases n.negative with _ | _ <;> rfl

end Json.Numeral

end Peakfile
