/-
# Stored values follow samples

A sample is scaled to the largest stored value, rounded to single precision, rounded to a
whole number and clamped.  Each of these steps keeps the order of samples, and all but the
clamping the symmetry between the signs: the smallest stored value has no counterpart of the
other sign.  Between -1 and 1 nothing is clamped.  There the first rounding is off by
`2 ^ (-10)` at most, half a step of the grid below `2 ^ 15`, and the second by a half
(`Sample.Within.abs_quantize_sub_le`).
-/
import Peakfile.Proofs.Accuracy
import Peakfile.Proofs.Points

namespace Peakfile

open BinaryFormat (single)

namespace Depth

/-- The smallest stored value. -/
def bottom (d : Depth) : Int := -(d.top : Int) - 1

end Depth

/-! ## Signs -/

namespace Binary

variable {f : BinaryFormat}

theorem neg_infinity (negative : Bool) :
    -(infinity negative : Binary f) = infinity (!negative) := rfl

theorem neg_ofUnits (negative : Bool) (num den : Nat) :
    -(ofUnits negative num den : Binary f) = ofUnits (!negative) num den := rfl

/-- Where the smallest whole number is one further from zero than the largest, turning the
sign turns the nearest whole number, unless one of the two is clamped from below: then the
other is clamped from above. -/
theorem toIntWithin_neg (x : Binary f) (most : Nat) :
    let clamped (x : Binary f) := x.toIntWithin (-(most : Int) - 1) most
    (clamped x = -(most : Int) - 1 → clamped (-x) = most) ∧
      (clamped x ≠ -(most : Int) - 1 → clamped (-x) ≠ -(most : Int) - 1 →
        clamped (-x) = -clamped x) := by
  intro clamped
  have hturned : clamped (-x) =
      if x.isNaN then 0
      else if x.isInfinite then (if x.negative then (most : Int) else -(most : Int) - 1)
      else max (-(most : Int) - 1)
        (min most (if x.negative then x.roundedMagnitude else -(x.roundedMagnitude : Int))) := by
    show (if x.isNaN then 0
      else if x.isInfinite then (if !x.negative then _ else _)
      else max _ (min _ (if !x.negative then -(x.roundedMagnitude : Int) else _))) = _
    cases x.negative <;> rfl
  have hclamped : clamped x =
      if x.isNaN then 0
      else if x.isInfinite then (if x.negative then -(most : Int) - 1 else (most : Int))
      else max (-(most : Int) - 1)
        (min most (if x.negative then -(x.roundedMagnitude : Int) else x.roundedMagnitude)) := rfl
  rw [hturned, hclamped]
  constructor
  · intro hbottom
    split_ifs at hbottom ⊢ <;> omega
  · intro hbottom hbottom'
    split_ifs at hbottom hbottom' ⊢ <;> omega

end Binary

namespace Sample

variable {x c : Sample}

/-- A positive number leaves the sign to the other factor. -/
theorem neg_mul (hx : x.isNaN = false) (hc : c.IsFinite) (hpos : 0 < c.order) :
    -x * c = -(x * c) := by
  obtain ⟨hcn, hci, hcz, hcs⟩ := hc.of_pos hpos
  have hmul := Binary.mul_of_positive hcn hci hcz hcs
  have hxneg : (-x).isNaN = false := hx
  rw [hmul x, hmul (-x), hx, hxneg, if_neg Bool.false_ne_true, if_neg Bool.false_ne_true]
  rcases infinity_or_isFinite hx with ⟨negative, rfl⟩ | hfinite
  · have hinfinite : ∀ negative, (Binary.infinity negative : Sample).isInfinite = true := by
      decide
    have hzero : ∀ negative, (Binary.infinity negative : Sample).isZero = false := by decide
    rw [Binary.neg_infinity, hinfinite, hinfinite, hzero, hzero, if_pos rfl, if_pos rfl,
      if_neg Bool.false_ne_true, if_neg Bool.false_ne_true, Binary.neg_infinity]
    rfl
  · have hfinite' : (-x).isInfinite = false := hfinite.isInfinite
    rw [hfinite.isInfinite, hfinite', if_neg Bool.false_ne_true, if_neg Bool.false_ne_true,
      Binary.neg_ofUnits]
    rfl

/-- What is not a number is stored as zero. -/
theorem quantize_of_isNaN (hx : x.isNaN = true) (d : Depth) : d.quantize x = 0 :=
  if_pos ((scaling_fullScale d).isNaN hx)

/-- Samples of opposite signs are stored as opposite values, unless one of them is stored as
the smallest value: then the other is stored as the largest. -/
theorem quantize_neg (d : Depth) (x : Sample) :
    (d.quantize x = d.bottom → d.quantize (-x) = d.top) ∧
      (d.quantize x ≠ d.bottom → d.quantize (-x) ≠ d.bottom →
        d.quantize (-x) = -d.quantize x) := by
  have hbottom : d.bottom ≠ 0 := by cases d <;> decide
  rcases hx : x.isNaN with _ | _
  · obtain ⟨hfinite, hpositive⟩ := fullScale_positive d
    rw [Depth.quantize, Depth.quantize, neg_mul hx hfinite hpositive]
    exact (x * d.fullScale).toIntWithin_neg d.top
  · have hxneg : (-x).isNaN = true := hx
    rw [quantize_of_isNaN hx, quantize_of_isNaN hxneg]
    exact ⟨fun h => absurd h.symm hbottom, fun _ _ => rfl⟩

/-! ## Distances -/

/-- **What is of at most full volume is stored closely.** -/
theorem Within.abs_quantize_sub_le (h : x.Within 1) (d : Depth) :
    |(d.quantize x : ℚ) - x.value * d.top| ≤ 1 / 2 + 1 / 2 ^ 10 := by
  have hscaling := scaling_fullScale d
  have hscaled := h.scaled d
  have hfinite := hscaled.isFinite (top_le_countLimit d)
  have horder := hscaling.order (h.isFinite (by decide))
  have hone : single.one = 2 ^ 149 := rfl
  -- The exact product is below the power of two that bounds the step of its grid.
  have hsize : (x.units * (d.top * single.one : Nat)).natAbs <
      2 ^ (140 + single.fractionBits + 1) * single.one := by
    have htop : d.top * single.one < 2 ^ (140 + single.fractionBits + 1) := by
      cases d <;> decide +kernel
    rw [Int.natAbs_mul, Int.natAbs_natCast, Nat.mul_comm]
    have hunits := h.natAbs_units_le
    rw [Nat.one_mul] at hunits
    exact Nat.mul_lt_mul_of_lt_of_le htop hunits (by decide)
  have hnearest : single.nearest (x.units * (d.top * single.one : Nat)).natAbs single.one <
      single.infinity := by
    have habs := natAbs_order (x * d.fullScale)
    rw [← magnitude_of_order_eq_round horder]
    have habove := hfinite.above
    have hbelow := hfinite.below
    omega
  have hproduct : |(x * d.fullScale).value - x.value * d.top| ≤ 1 / 2 ^ 10 := by
    have hround := Binary.abs_value_round_sub_le hscaling.den_pos hnearest hsize
    have hexact : (((x.units * (d.top * single.one : Nat) : Int) : ℚ)) / single.one / single.one =
        x.value * d.top := by
      have hpos := BinaryFormat.cast_one_pos single
      rw [Binary.value]
      push_cast
      field_simp
    have hstep : (2 : ℚ) ^ 140 / 2 / single.one = 1 / 2 ^ 10 := by
      rw [hone]
      norm_num
    rw [hexact, hstep] at hround
    rwa [Binary.value_eq_of_order_eq hscaled.isNaN (isNaN_of_order_eq_round rfl) horder]
  calc |(d.quantize x : ℚ) - x.value * d.top|
      ≤ |(d.quantize x : ℚ) - (x * d.fullScale).value| +
          |(x * d.fullScale).value - x.value * d.top| := abs_sub_le _ _ _
    _ ≤ 1 / 2 + 1 / 2 ^ 10 := by
      rw [h.quantize_eq]
      exact add_le_add (x * d.fullScale).abs_rounded_sub_value_le hproduct

end Sample

/-! ## All about stored values -/

namespace Depth

/-- **Stored values follow samples.**  At either depth:

* samples in order are stored in order, and what is not a number as zero;
* every stored value is within the range of its depth, and read back from its bytes;
* samples of opposite signs are stored as opposite values, unless one of them is stored as the
  smallest value: then the other is stored as the largest;
* samples between -1 and 1 are stored within the values of full volume, and closely. -/
theorem quantize_follows (d : Depth) (a b : Sample) :
    (a ≤ b → d.quantize a ≤ d.quantize b) ∧
      (a.isNaN = true → d.quantize a = 0) ∧
      (d.bottom ≤ d.quantize a ∧ d.quantize a ≤ d.top) ∧
      d.decodeValue (d.encodeValue a) = d.quantize a ∧
      (d.quantize a ≠ d.bottom → d.quantize (-a) ≠ d.bottom →
        d.quantize (-a) = -d.quantize a) ∧
      (d.quantize a = d.bottom → d.quantize (-a) = d.top) ∧
      (-Binary.ofNat single 1 ≤ a → a ≤ Binary.ofNat single 1 →
        |d.quantize a| ≤ d.top ∧
          |(d.quantize a : ℚ) - a.value * d.top| ≤ 1 / 2 + 1 / 2 ^ 10) := by
  obtain ⟨hclamped, hopposite⟩ := Sample.quantize_neg d a
  refine ⟨fun hle => (Sample.Under.of_le hle).quantize_le d,
    fun hnan => Sample.quantize_of_isNaN hnan d, ?_, d.decodeValue_encodeValue a, hopposite,
    hclamped, fun hlo hhi => ?_⟩
  · rw [bottom]
    exact Sample.toIntWithin_bounds (by omega) (by omega) _
  · have hwithin := Sample.within_one hlo hhi
    exact ⟨abs_le.2 (hwithin.quantize d), hwithin.abs_quantize_sub_le d⟩

/-- With eight bits, one half is a tie and goes away from zero on either side; a sample below
-1 is stored as the smallest value, and its opposite as the largest. -/
theorem quantize_follows_tie :
    let half : Sample := .ofBits _ 0x3f000000
    let loud : Sample := .ofBits _ 0xbfc00000
    let missing : Sample := .ofBits _ 0x7fc00000
    quantize .eight half ≤ quantize .eight (Binary.ofNat single 1) ∧
      quantize .eight missing = 0 ∧
      quantize .eight (-half) = -64 ∧
      quantize .eight (-loud) = 127 ∧
      |(quantize .eight half : ℚ) - half.value * 127| ≤ 1 / 2 + 1 / 2 ^ 10 := by
  intro half loud missing
  have hhalf : quantize .eight half = 64 := by decide +kernel
  obtain ⟨hle, -, -, -, hopposite, -, hclose⟩ :=
    quantize_follows .eight half (Binary.ofNat single 1)
  obtain ⟨-, hmissing, -⟩ := quantize_follows .eight missing missing
  obtain ⟨-, -, -, -, -, hclamped, -⟩ := quantize_follows .eight loud loud
  refine ⟨hle (by decide +kernel), hmissing (by decide +kernel), ?_,
    hclamped (by decide +kernel), (hclose (by decide +kernel) (by decide +kernel)).2⟩
  rw [hopposite (by decide +kernel) (by decide +kernel), hhalf]

end Depth

end Peakfile
