/-
# Samples of at most full volume

Samples between -1 and 1 add up to no more than their number.  Single precision counts up to
`Sample.countLimit`; from there on one more sample no longer makes a sum larger, as the exact
sum is a tie, which goes to the even magnitude below (`Sample.Within.add`).  The number that
a sum is divided by is rounded too, but never to less than that limit, so that the mean of
the samples is between -1 and 1 again (`Sample.within_mean`), and is stored without clipping
(`Sample.Within.quantize_eq`).
-/
import Peakfile.Proofs.Accuracy
import Peakfile.Proofs.Samples

namespace Peakfile

open BinaryFormat (single)

namespace Sample

/-! ## Whole numbers that are samples -/

/-- Up to here all whole numbers are samples. -/
def countLimit : Nat := 2 ^ 24

/-- A sample that counts has the value that it counts. -/
theorem units_ofNat {n : Nat} (hn : n ≤ countLimit) :
    single.units (Binary.ofNat single n).magnitude = n * single.one := by
  have hfinite : single.nearest (n * single.one) 1 < single.infinity := by
    refine Nat.lt_of_le_of_lt (BinaryFormat.nearest_mono Nat.one_pos Nat.one_pos
      (Nat.mul_le_mul_right _ (Nat.mul_le_mul_right _ hn))) ?_
    decide +kernel
  rcases hn.eq_or_lt with rfl | hlt
  · exact BinaryFormat.units_nearest (by decide +kernel) hfinite
  · exact BinaryFormat.units_nearest_whole hlt hfinite

/-- Whole numbers that a header word holds are rounded to positive finite samples. -/
theorem ofNat_positive {n : Nat} (hpos : 0 < n) (hlt : n < UInt32.size) :
    IsFinite (Binary.ofNat single n) ∧ 0 < (Binary.ofNat single n).order := by
  have horder : (Binary.ofNat single n).order = single.nearest (n * single.one) 1 := rfl
  have hone : single.nearest (1 * single.one) 1 ≤ single.nearest (n * single.one) 1 :=
    BinaryFormat.nearest_mono Nat.one_pos Nat.one_pos
      (Nat.mul_le_mul_right _ (Nat.mul_le_mul_right _ hpos))
  have hmost : single.nearest (n * single.one) 1 ≤ single.nearest (UInt32.size * single.one) 1 :=
    BinaryFormat.nearest_mono Nat.one_pos Nat.one_pos
      (Nat.mul_le_mul_right _ (Nat.mul_le_mul_right _ hlt.le))
  have hone' : 0 < single.nearest (1 * single.one) 1 := by decide +kernel
  have hmost' : single.nearest (UInt32.size * single.one) 1 < single.infinity := by
    decide +kernel
  refine ⟨⟨?_, ?_⟩, ?_⟩ <;> omega

/-! ## Bounded samples -/

/-- A number of at most `n` in absolute value. -/
structure Within (n : Nat) (x : Sample) : Prop where
  isNaN : x.isNaN = false
  units_le : single.units x.magnitude ≤ n * single.one

variable {x sum : Sample} {n k : Nat}

theorem within_of_magnitude_le (hn : n ≤ countLimit) (hx : x.isNaN = false)
    (hle : x.magnitude ≤ (Binary.ofNat single n).magnitude) : x.Within n := by
  refine ⟨hx, ?_⟩
  rw [← units_ofNat hn]
  exact (BinaryFormat.units_le_iff (Binary.magnitude_le hx) (Nat.min_le_right _ _)).2 hle

/-- What lies between whole numbers is rounded to what lies between them. -/
theorem within_of_order {num : Int} {den : Nat} (hn : n ≤ countLimit) (hden : 0 < den)
    (horder : x.order = (Binary.round single num den).order)
    (hnum : num.natAbs ≤ n * single.one * den) : x.Within n := by
  refine within_of_magnitude_le hn (isNaN_of_order_eq_round horder) ?_
  rw [magnitude_of_order_eq_round horder]
  refine BinaryFormat.nearest_mono hden Nat.one_pos ?_
  rw [Nat.mul_one]
  exact hnum

theorem Within.isFinite (h : x.Within n) (hn : n ≤ countLimit) : x.IsFinite := by
  have hlt : x.magnitude < single.infinity := by
    by_contra hge
    have hunits := (BinaryFormat.units_le_iff le_rfl (Binary.magnitude_le h.isNaN)).2
      (Nat.not_lt.1 hge)
    have hlimit : countLimit * single.one < single.units single.infinity := by decide +kernel
    have hmost := Nat.mul_le_mul_right single.one hn
    have hle := h.units_le
    omega
  have habs := natAbs_order x
  constructor <;> omega

theorem Within.mono (h : x.Within n) (hk : n ≤ k) : x.Within k :=
  ⟨h.isNaN, h.units_le.trans (Nat.mul_le_mul_right _ hk)⟩

theorem Within.natAbs_units_le (h : x.Within n) : x.units.natAbs ≤ n * single.one := by
  have habs : x.units.natAbs = single.units x.magnitude := by
    rw [Binary.units]
    split_ifs <;> omega
  rw [habs]
  exact h.units_le

/-- What lies between -1 and 1 is of at most full volume. -/
theorem within_one (hlo : -Binary.ofNat single 1 ≤ x) (hhi : x ≤ Binary.ofNat single 1) :
    x.Within 1 := by
  obtain ⟨-, hx, hlo⟩ := hlo
  obtain ⟨-, -, hhi⟩ := hhi
  have habs := natAbs_order x
  have hminus : (-Binary.ofNat single 1).order = -((Binary.ofNat single 1).magnitude : Int) := rfl
  have hone : (Binary.ofNat single 1).order = ((Binary.ofNat single 1).magnitude : Int) := rfl
  refine within_of_magnitude_le (by decide) hx ?_
  omega

theorem within_zero (negative : Bool) : Within 0 (Binary.zero negative) := by
  refine ⟨rfl, ?_⟩
  rw [Nat.zero_mul]
  exact (BinaryFormat.units_zero single).le

/-! ## Sums and means -/

/-- One more sample makes a sum larger by one at most, and not beyond the limit. -/
theorem Within.add (h : sum.Within k) (hk : k ≤ countLimit) (hx : x.Within 1) :
    (sum + x).Within (min (k + 1) countLimit) := by
  have horder := order_add (h.isFinite hk) (hx.isFinite (by decide : 1 ≤ countLimit))
  have hexact : (sum.units + x.units).natAbs ≤ (k + 1) * single.one := by
    have hsum := h.natAbs_units_le
    have hx := hx.natAbs_units_le
    rw [Nat.add_mul]
    omega
  rcases hk.lt_or_eq with hlt | rfl
  · rw [Nat.min_eq_left hlt]
    refine within_of_order hlt Nat.one_pos horder ?_
    rw [Nat.mul_one]
    exact hexact
  · -- Halfway to the next sample the tie goes down.
    rw [Nat.min_eq_right (Nat.le_succ _)]
    have htie : single.nearest ((countLimit + 1) * single.one) 1 =
        (Binary.ofNat single countLimit).magnitude := by
      decide +kernel
    refine within_of_magnitude_le le_rfl (isNaN_of_order_eq_round horder) ?_
    rw [magnitude_of_order_eq_round horder, ← htie]
    exact BinaryFormat.nearest_mono Nat.one_pos Nat.one_pos (Nat.mul_le_mul_right _ hexact)

/-- Samples add up to no more than their number, and not beyond the limit. -/
theorem Within.foldl_add (h : sum.Within k) (hk : k ≤ countLimit) {samples : List Sample}
    (hsamples : ∀ x ∈ samples, x.Within 1) :
    (samples.foldl (· + ·) sum).Within (min (k + samples.length) countLimit) := by
  induction samples generalizing sum k with
  | nil =>
    rw [List.length_nil, Nat.add_zero, Nat.min_eq_left hk]
    exact h
  | cons x samples ih =>
    have hone := h.add hk (hsamples x List.mem_cons_self)
    have hrest := ih hone (Nat.min_le_right _ _) fun y hy => hsamples y (List.mem_cons_of_mem _ hy)
    have hcount : min (min (k + 1) countLimit + samples.length) countLimit =
        min (k + (x :: samples).length) countLimit := by
      rw [List.length_cons]
      omega
    rw [hcount] at hrest
    exact hrest

/-- **The mean of samples of at most full volume is of at most full volume.** -/
theorem within_mean {samples : List Sample} (hpos : 0 < samples.length)
    (hlt : samples.length < UInt32.size) (hsamples : ∀ x ∈ samples, x.Within 1) :
    Within 1 (samples.foldl (· + ·) (Binary.zero false) /
      Binary.ofNat single samples.length) := by
  have hsum := (within_zero false).foldl_add (Nat.zero_le _) hsamples
  rw [Nat.zero_add] at hsum
  obtain ⟨hfinite, hpositive⟩ := ofNat_positive hpos hlt
  have hscaling := scaling_div hfinite hpositive
  refine within_of_order (by decide) hscaling.den_pos
    (hscaling.order (hsum.isFinite (Nat.min_le_right _ _))) ?_
  -- The divisor is rounded, but not to less than the limit.
  have hdivisor : min samples.length countLimit * single.one ≤
      single.units (Binary.ofNat single samples.length).magnitude := by
    rw [← units_ofNat (Nat.min_le_right samples.length countLimit)]
    refine (BinaryFormat.units_le_iff (Nat.min_le_right _ _) (Nat.min_le_right _ _)).2 ?_
    exact BinaryFormat.nearest_mono Nat.one_pos Nat.one_pos
      (Nat.mul_le_mul_right _ (Nat.mul_le_mul_right _ (Nat.min_le_left _ _)))
  rw [Int.natAbs_mul, Int.natAbs_natCast, Nat.one_mul, Nat.mul_comm]
  exact Nat.mul_le_mul_left _ (hsum.natAbs_units_le.trans hdivisor)

/-! ## Stored values -/

theorem top_le_countLimit (d : Depth) : d.top ≤ countLimit := by
  cases d <;> decide

theorem fullScale_positive (d : Depth) : IsFinite d.fullScale ∧ 0 < d.fullScale.order := by
  have hpos : 0 < d.top := by cases d <;> decide
  have hsize : d.top < UInt32.size := by cases d <;> decide
  exact ofNat_positive hpos hsize

/-- Samples are scaled to the largest stored value. -/
theorem scaling_fullScale (d : Depth) :
    Scaling (· * d.fullScale) (d.top * single.one) single.one := by
  obtain ⟨hfinite, hpositive⟩ := fullScale_positive d
  rw [← units_ofNat (top_le_countLimit d)]
  exact scaling_mul hfinite hpositive

/-- **Bounds are stored in order.** -/
theorem Under.quantize_le {lo hi : Sample} (h : lo.Under hi) (d : Depth) :
    d.quantize lo ≤ d.quantize hi :=
  (h.scale (scaling_fullScale d)).toIntWithin_le (by omega) (by omega)

/-- What is of at most full volume is scaled to at most the largest stored value. -/
theorem Within.scaled (h : x.Within 1) (d : Depth) : Within d.top (x * d.fullScale) := by
  have hscaling := scaling_fullScale d
  refine within_of_order (top_le_countLimit d) hscaling.den_pos
    (hscaling.order (h.isFinite (by decide))) ?_
  rw [Int.natAbs_mul, Int.natAbs_natCast, Nat.mul_comm]
  refine Nat.mul_le_mul_left _ ?_
  rw [← Nat.one_mul single.one]
  exact h.natAbs_units_le

/-- Between whole numbers the nearest whole number is between them. -/
theorem Within.natAbs_rounded_le (h : x.Within n) : x.rounded.natAbs ≤ n := by
  have hrounded : roundTiesUp (single.units x.magnitude) single.one ≤ n := by
    rw [← roundTiesUp_mul n (by decide : 0 < single.one)]
    exact roundTiesUp_mono h.units_le _
  rw [rounded, Binary.roundedMagnitude]
  split_ifs <;> omega

/-- **What is of at most full volume is stored without clipping.** -/
theorem Within.quantize_eq (h : x.Within 1) (d : Depth) :
    d.quantize x = (x * d.fullScale).rounded := by
  have hscaled := h.scaled d
  have hmost := hscaled.natAbs_rounded_le
  rw [Depth.quantize, toIntWithin_of_isFinite (hscaled.isFinite (top_le_countLimit d))]
  omega

/-- What is of at most full volume is stored within the values of full volume. -/
theorem Within.quantize (h : x.Within 1) (d : Depth) :
    -(d.top : Int) ≤ d.quantize x ∧ d.quantize x ≤ d.top := by
  have hmost := (h.scaled d).natAbs_rounded_le
  rw [h.quantize_eq]
  omega

end Sample

end Peakfile
