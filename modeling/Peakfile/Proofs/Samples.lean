/-
# Bounds under arithmetic

A lower bound and an upper bound may both be infinite, and their sums over channels may
have no value at all.  What addition and scaling keep of a pair of bounds is `Sample.Under`:
they stand in order if both are numbers or infinities, and where one of them is not a
number, the other is not a number either or lies at its own end of the scale.  That is
enough for what is stored, as what is not a number is stored as zero
(`Sample.Under.toIntWithin_le`).
-/
import Peakfile.Proofs.Rounding
import Peakfile.Depth

namespace Peakfile

open BinaryFormat (single)

/-- A product with a positive number has the sign of the other factor. -/
theorem Binary.mul_of_positive {f : BinaryFormat} {y : Binary f} (hnumber : y.isNaN = false)
    (hfinite : y.isInfinite = false) (hzero : y.isZero = false) (hsign : y.negative = false)
    (x : Binary f) :
    x * y =
      if x.isNaN then undefined f
      else if x.isInfinite then if x.isZero then undefined f else infinity x.negative
      else ofUnits x.negative (f.units x.magnitude * f.units y.magnitude) f.one := by
  show mul x y = _
  simp only [mul, hnumber, hfinite, hzero, hsign, Bool.or_false, Bool.bne_false]

namespace Sample

variable {x y c : Sample} {num den : Nat}

/-! ## Numbers and infinities -/

/-- A number that is no infinity. -/
structure IsFinite (x : Sample) : Prop where
  above : -(single.infinity : Int) < x.order
  below : x.order < single.infinity

theorem natAbs_order (x : Sample) : x.order.natAbs = x.magnitude := by
  rw [Binary.order]
  split_ifs <;> omega

theorem order_zero (negative : Bool) : (Binary.zero negative : Sample).order = 0 := by
  cases negative <;> rfl

theorem isNaN_infinity (negative : Bool) : (Binary.infinity negative : Sample).isNaN = false := by
  cases negative <;> decide

/-- What is a number or an infinity stands between the infinities. -/
theorem order_bounds (hx : x.isNaN = false) :
    (Binary.infinity true : Sample).order ≤ x.order ∧
      x.order ≤ (Binary.infinity false : Sample).order := by
  have hle := Binary.magnitude_le hx
  have habs := natAbs_order x
  show -(single.infinity : Int) ≤ x.order ∧ x.order ≤ single.infinity
  omega

theorem isNaN_eq_false (h : x.order.natAbs ≤ single.infinity) : x.isNaN = false := by
  rw [natAbs_order] at h
  exact decide_eq_false (Nat.not_lt.2 h)

theorem IsFinite.isNaN (h : x.IsFinite) : x.isNaN = false := by
  have habove := h.above
  have hbelow := h.below
  exact isNaN_eq_false (by omega)

theorem IsFinite.isInfinite (h : x.IsFinite) : x.isInfinite = false := by
  have habove := h.above
  have hbelow := h.below
  have habs := natAbs_order x
  exact decide_eq_false (by omega)

theorem IsFinite.ne_infinity (h : x.IsFinite) (negative : Bool) : x ≠ Binary.infinity negative := by
  rintro rfl
  have hinfinite := h.isInfinite
  cases negative <;> revert hinfinite <;> decide

theorem eq_infinity_of_isInfinite (h : x.isInfinite = true) : x = Binary.infinity x.negative := by
  obtain ⟨negative, magnitude, hlt⟩ := x
  obtain rfl : magnitude = single.infinity := of_decide_eq_true h
  rfl

/-- What is a number or an infinity is one of the infinities or finite. -/
theorem infinity_or_isFinite (hx : x.isNaN = false) :
    (∃ negative, x = Binary.infinity negative) ∨ x.IsFinite := by
  rcases h : x.isInfinite with _ | _
  · have hne : x.magnitude ≠ single.infinity := of_decide_eq_false h
    have hle := Binary.magnitude_le hx
    have habs := natAbs_order x
    refine .inr ⟨?_, ?_⟩ <;> omega
  · exact .inl ⟨_, eq_infinity_of_isInfinite h⟩

/-- Nothing else stands above positive infinity. -/
theorem eq_infinity_of_le (hx : x.isNaN = false)
    (h : (Binary.infinity false : Sample).order ≤ x.order) : x = Binary.infinity false := by
  rcases infinity_or_isFinite hx with ⟨_ | _, rfl⟩ | hfinite
  · rfl
  · exact absurd h (by decide)
  · exact absurd h (Int.not_le.2 hfinite.below)

/-- Nothing else stands below negative infinity. -/
theorem eq_infinity_of_ge (hx : x.isNaN = false)
    (h : x.order ≤ (Binary.infinity true : Sample).order) : x = Binary.infinity true := by
  rcases infinity_or_isFinite hx with ⟨_ | _, rfl⟩ | hfinite
  · exact absurd h (by decide)
  · rfl
  · exact absurd h (Int.not_le.2 hfinite.above)

theorem magnitude_of_order_eq_round {num : Int}
    (h : x.order = (Binary.round single num den).order) :
    x.magnitude = single.nearest num.natAbs den := by
  rw [← natAbs_order, h, natAbs_order]
  rfl

theorem isNaN_of_order_eq_round {num : Int}
    (h : x.order = (Binary.round single num den).order) : x.isNaN = false := by
  refine isNaN_eq_false ?_
  rw [natAbs_order, magnitude_of_order_eq_round h]
  exact Nat.min_le_right _ _

/-! ## Sums -/

theorem isNaN_undefined : (Binary.undefined single).isNaN = true := by decide

theorem isNaN_add (h : x.isNaN = true ∨ y.isNaN = true) : (x + y).isNaN = true := by
  have heq : x + y = Binary.undefined single := if_pos (by simpa using h)
  rw [heq]
  exact isNaN_undefined

theorem isNaN_of_add (h : (x + y).isNaN = false) : x.isNaN = false ∧ y.isNaN = false := by
  rcases hx : x.isNaN with _ | _
  · rcases hy : y.isNaN with _ | _
    · exact ⟨rfl, rfl⟩
    · rw [isNaN_add (.inr hy)] at h
      cases h
  · rw [isNaN_add (.inl hx)] at h
    cases h

theorem add_eq (hx : x.isNaN = false) (hy : y.isNaN = false) :
    x + y =
      if x.isInfinite then
        if y.isInfinite && x.negative != y.negative then Binary.undefined single else x
      else if y.isInfinite then y
      else if x.units + y.units = 0 then Binary.zero (x.negative && y.negative)
      else Binary.ofUnits (x.units + y.units < 0) (x.units + y.units).natAbs 1 :=
  if_neg (by simp [hx, hy])

/-- Finite numbers are added exactly and rounded. -/
theorem order_add (hx : x.IsFinite) (hy : y.IsFinite) :
    (x + y).order = (Binary.round single (x.units + y.units) 1).order := by
  rw [add_eq hx.isNaN hy.isNaN, hx.isInfinite, hy.isInfinite, if_neg (by simp), if_neg (by simp)]
  split_ifs with hzero
  · rw [hzero, order_zero]
    decide
  · rfl

/-- An infinity takes the other summand with it, unless that is the opposite one. -/
theorem infinity_add (negative : Bool) (hy : y.isNaN = false) :
    Binary.infinity negative + y =
      if y = Binary.infinity (!negative) then Binary.undefined single
      else Binary.infinity negative := by
  rw [add_eq (isNaN_infinity negative) hy]
  rcases infinity_or_isFinite hy with ⟨other, rfl⟩ | hfinite
  · cases negative <;> cases other <;> decide
  · rw [if_neg (hfinite.ne_infinity _), hfinite.isInfinite]
    cases negative <;> rfl

theorem add_infinity (hx : x.isNaN = false) (negative : Bool) :
    x + Binary.infinity negative =
      if x = Binary.infinity (!negative) then Binary.undefined single
      else Binary.infinity negative := by
  rcases infinity_or_isFinite hx with ⟨other, rfl⟩ | hfinite
  · cases negative <;> cases other <;> decide
  · rw [add_eq hx (isNaN_infinity negative), if_neg (hfinite.ne_infinity _), hfinite.isInfinite]
    cases negative <;> rfl

/-- A sum with an infinity is that infinity if it has a value. -/
theorem add_eq_infinity {negative : Bool} (hsum : (x + y).isNaN = false)
    (h : x = Binary.infinity negative ∨ y = Binary.infinity negative) :
    x + y = Binary.infinity negative := by
  obtain ⟨hx, hy⟩ := isNaN_of_add hsum
  rcases h with rfl | rfl
  · rw [infinity_add negative hy] at hsum ⊢
    split_ifs at hsum ⊢
    · rw [isNaN_undefined] at hsum
      cases hsum
    · rfl
  · rw [add_infinity hx negative] at hsum ⊢
    split_ifs at hsum ⊢
    · rw [isNaN_undefined] at hsum
      cases hsum
    · rfl

/-- Only opposite infinities have a sum without a value. -/
theorem opposite_of_isNaN_add (hx : x.isNaN = false) (hy : y.isNaN = false)
    (hsum : (x + y).isNaN = true) :
    ∃ negative, x = Binary.infinity negative ∧ y = Binary.infinity (!negative) := by
  rcases infinity_or_isFinite hx with ⟨negative, rfl⟩ | hxfinite
  · rw [infinity_add negative hy] at hsum
    split_ifs at hsum with h
    · exact ⟨negative, rfl, h⟩
    · rw [isNaN_infinity] at hsum
      cases hsum
  · rcases infinity_or_isFinite hy with ⟨negative, rfl⟩ | hyfinite
    · rw [add_infinity hx negative, if_neg (hxfinite.ne_infinity _), isNaN_infinity] at hsum
      cases hsum
    · rw [isNaN_of_order_eq_round (order_add hxfinite hyfinite)] at hsum
      cases hsum

/-! ## Scaling -/

/-- Scaling by a positive number: infinities stay, and finite numbers are multiplied exactly
and rounded. -/
structure Scaling (g : Sample → Sample) (num den : Nat) : Prop where
  den_pos : 0 < den
  isNaN : ∀ {x : Sample}, x.isNaN = true → (g x).isNaN = true
  infinity : ∀ negative, g (Binary.infinity negative) = Binary.infinity negative
  order : ∀ {x : Sample}, x.IsFinite →
    (g x).order = (Binary.round single (x.units * num) den).order

/-- A positive finite number shows as such in its bits. -/
theorem IsFinite.of_pos (hc : c.IsFinite) (hpos : 0 < c.order) :
    c.isNaN = false ∧ c.isInfinite = false ∧ c.isZero = false ∧ c.negative = false := by
  have horder : c.order = if c.negative then -(c.magnitude : Int) else c.magnitude := rfl
  rcases hn : c.negative with _ | _
  · rw [hn, if_neg (by simp)] at horder
    exact ⟨hc.isNaN, hc.isInfinite, decide_eq_false (by omega), rfl⟩
  · rw [hn, if_pos rfl] at horder
    omega

/-- Multiplying by a positive number. -/
theorem scaling_mul (hc : c.IsFinite) (hpos : 0 < c.order) :
    Scaling (· * c) (single.units c.magnitude) single.one := by
  obtain ⟨hcn, hci, hcz, hcs⟩ := hc.of_pos hpos
  have hmul := Binary.mul_of_positive hcn hci hcz hcs
  refine ⟨by decide, fun hx => ?_, fun negative => ?_, fun hx => ?_⟩
  · rw [hmul, if_pos hx]
    exact isNaN_undefined
  · rw [hmul]
    cases negative <;> rfl
  · rw [hmul, hx.isNaN, hx.isInfinite]
    exact Binary.order_ofUnits _ _ _

/-- Dividing by a positive number. -/
theorem scaling_div (hc : c.IsFinite) (hpos : 0 < c.order) :
    Scaling (· / c) single.one (single.units c.magnitude) := by
  obtain ⟨hcn, hci, hcz, hcs⟩ := hc.of_pos hpos
  have hdiv : ∀ x : Sample, x / c =
      if x.isNaN then Binary.undefined single
      else if x.isInfinite then Binary.infinity x.negative
      else
        Binary.ofUnits x.negative (single.units x.magnitude * single.one)
          (single.units c.magnitude) := by
    intro x
    show Binary.div x c = _
    simp only [Binary.div, hcn, hci, hcz, hcs, Bool.or_false, Bool.bne_false, Bool.false_eq_true,
      if_false]
  have hunits : 0 < single.units c.magnitude := by
    have hne : c.magnitude ≠ 0 := of_decide_eq_false hcz
    have hzero := BinaryFormat.units_eq_zero_iff (Binary.magnitude_le hcn)
    omega
  refine ⟨hunits, fun hx => ?_, fun negative => ?_, fun hx => ?_⟩
  · rw [hdiv, if_pos hx]
    exact isNaN_undefined
  · rw [hdiv]
    cases negative <;> rfl
  · rw [hdiv, hx.isNaN, hx.isInfinite]
    exact Binary.order_ofUnits _ _ _

variable {g : Sample → Sample}

/-- Scaling makes and takes no values. -/
theorem Scaling.isNaN_eq (hg : Scaling g num den) (x : Sample) : (g x).isNaN = x.isNaN := by
  rcases hx : x.isNaN with _ | _
  · rcases infinity_or_isFinite hx with ⟨negative, rfl⟩ | hfinite
    · rw [hg.infinity]
      exact hx
    · exact isNaN_of_order_eq_round (hg.order hfinite)
  · exact hg.isNaN hx

/-! ## A bound under another -/

/-- A lower bound and an upper one, of which either may have no value: if both have one they
stand in order, and next to one without a value the other has none or is infinite. -/
structure Under (lo hi : Sample) : Prop where
  order_le : lo.isNaN = false → hi.isNaN = false → lo.order ≤ hi.order
  above : lo.isNaN = true → hi.isNaN = true ∨ hi = Binary.infinity false
  below : hi.isNaN = true → lo.isNaN = true ∨ lo = Binary.infinity true

variable {lo hi : Sample}

theorem Under.of_le (h : lo ≤ hi) : lo.Under hi := by
  obtain ⟨hlo, hhi, hle⟩ := h
  refine ⟨fun _ _ => hle, fun h => ?_, fun h => ?_⟩
  · rw [hlo] at h
    cases h
  · rw [hhi] at h
    cases h

/-- Bounds with values keep their order in a sum with a value. -/
theorem Under.order_add_le (h : lo.Under hi) (hxy : x ≤ y) (hlosum : (lo + x).isNaN = false)
    (hhisum : (hi + y).isNaN = false) : (lo + x).order ≤ (hi + y).order := by
  obtain ⟨hx, hy, hle⟩ := hxy
  have hlo := (isNaN_of_add hlosum).1
  have hhi := (isNaN_of_add hhisum).1
  have hbounds := h.order_le hlo hhi
  -- The sums are at the ends of the scale, or all summands are finite.
  by_cases hbottom : lo = Binary.infinity true ∨ x = Binary.infinity true
  · rw [add_eq_infinity hlosum hbottom]
    exact (order_bounds hhisum).1
  by_cases htop : hi = Binary.infinity false ∨ y = Binary.infinity false
  · rw [add_eq_infinity hhisum htop]
    exact (order_bounds hlosum).2
  rw [not_or] at hbottom htop
  have hfinite : ∀ {a b : Sample}, a.isNaN = false → b.isNaN = false → a.order ≤ b.order →
      a ≠ Binary.infinity true → b ≠ Binary.infinity false → a.IsFinite ∧ b.IsFinite := by
    intro a b ha hb hab habottom hbtop
    constructor
    · rcases infinity_or_isFinite ha with ⟨_ | _, rfl⟩ | hfinite
      · exact absurd (eq_infinity_of_le hb hab) hbtop
      · exact absurd rfl habottom
      · exact hfinite
    · rcases infinity_or_isFinite hb with ⟨_ | _, rfl⟩ | hfinite
      · exact absurd rfl hbtop
      · exact absurd (eq_infinity_of_ge ha hab) habottom
      · exact hfinite
  obtain ⟨hlofinite, hhifinite⟩ := hfinite hlo hhi hbounds hbottom.1 htop.1
  obtain ⟨hxfinite, hyfinite⟩ := hfinite hx hy hle hbottom.2 htop.2
  have hlohi := (Binary.units_le_units_iff hlo hhi).2 hbounds
  have hxy := (Binary.units_le_units_iff hx hy).2 hle
  rw [order_add hlofinite hxfinite, order_add hhifinite hyfinite]
  refine Binary.order_round_le Nat.one_pos Nat.one_pos ?_
  omega

/-- **Bounds may be added.** -/
theorem Under.add (h : lo.Under hi) (hxy : x ≤ y) : (lo + x).Under (hi + y) := by
  obtain ⟨hx, hy, hle⟩ := id hxy
  refine ⟨h.order_add_le hxy, fun hnan => ?_, fun hnan => ?_⟩
  · rcases hhisum : (hi + y).isNaN with _ | _
    · obtain ⟨hhi, -⟩ := isNaN_of_add hhisum
      refine .inr (add_eq_infinity hhisum ?_)
      rcases hlo : lo.isNaN with _ | _
      · obtain ⟨_ | _, rfl, rfl⟩ := opposite_of_isNaN_add hlo hx hnan
        · exact .inl (eq_infinity_of_le hhi (h.order_le hlo hhi))
        · exact .inr (eq_infinity_of_le hy hle)
      · rcases h.above hlo with hnan | htop
        · rw [hhi] at hnan
          cases hnan
        · exact .inl htop
    · exact .inl rfl
  · rcases hlosum : (lo + x).isNaN with _ | _
    · obtain ⟨hlo, -⟩ := isNaN_of_add hlosum
      refine .inr (add_eq_infinity hlosum ?_)
      rcases hhi : hi.isNaN with _ | _
      · obtain ⟨_ | _, rfl, rfl⟩ := opposite_of_isNaN_add hhi hy hnan
        · exact .inr (eq_infinity_of_ge hx hle)
        · exact .inl (eq_infinity_of_ge hlo (h.order_le hlo hhi))
      · rcases h.below hhi with hnan | hbottom
        · rw [hlo] at hnan
          cases hnan
        · exact .inl hbottom
    · exact .inl rfl

/-- **Bounds may be scaled.** -/
theorem Under.scale (h : lo.Under hi) (hg : Scaling g num den) : (g lo).Under (g hi) := by
  constructor
  · intro hglo hghi
    have hlo := hglo
    have hhi := hghi
    rw [hg.isNaN_eq] at hlo hhi
    have hle := h.order_le hlo hhi
    rcases infinity_or_isFinite hlo with ⟨_ | _, rfl⟩ | hlofinite
    · rw [eq_infinity_of_le hhi hle]
    · rw [hg.infinity]
      exact (order_bounds hghi).1
    · rcases infinity_or_isFinite hhi with ⟨_ | _, rfl⟩ | hhifinite
      · rw [hg.infinity]
        exact (order_bounds hglo).2
      · exact absurd (eq_infinity_of_ge hlo hle) (hlofinite.ne_infinity true)
      · have hunits := (Binary.units_le_units_iff hlo hhi).2 hle
        rw [hg.order hlofinite, hg.order hhifinite]
        refine Binary.order_round_le hg.den_pos hg.den_pos ?_
        exact Int.mul_le_mul_of_nonneg_right
          (Int.mul_le_mul_of_nonneg_right hunits (Int.natCast_nonneg _)) (Int.natCast_nonneg _)
  · intro hnan
    rw [hg.isNaN_eq] at hnan ⊢
    refine (h.above hnan).imp_right fun htop => ?_
    rw [htop, hg.infinity]
  · intro hnan
    rw [hg.isNaN_eq] at hnan ⊢
    refine (h.below hnan).imp_right fun hbottom => ?_
    rw [hbottom, hg.infinity]

/-- The sums of bounds over channels, one after the other. -/
theorem Under.foldl_add (h : lo.Under hi) {peaks : List (Sample × Sample)}
    (hpeaks : ∀ peak ∈ peaks, peak.1 ≤ peak.2) :
    ((peaks.map Prod.fst).foldl (· + ·) lo).Under ((peaks.map Prod.snd).foldl (· + ·) hi) := by
  induction peaks generalizing lo hi with
  | nil => exact h
  | cons peak peaks ih =>
    refine ih (h.add (hpeaks peak List.mem_cons_self)) fun p hp => ?_
    exact hpeaks p (List.mem_cons_of_mem _ hp)

/-! ## Whole numbers -/

/-- The whole number nearest to a finite number, ties away from zero. -/
def rounded (x : Sample) : Int :=
  if x.negative then -(x.roundedMagnitude : Int) else x.roundedMagnitude

theorem rounded_le_rounded (hx : x.isNaN = false) (hy : y.isNaN = false)
    (h : x.order ≤ y.order) : x.rounded ≤ y.rounded := by
  have hunits := (Binary.units_le_units_iff hx hy).2 h
  rw [Binary.units, Binary.units] at hunits
  rw [rounded, rounded, Binary.roundedMagnitude, Binary.roundedMagnitude]
  revert hunits
  rcases x.negative with _ | _ <;> rcases y.negative with _ | _ <;>
    simp only [Bool.false_eq_true, if_false, if_true] <;> intro hunits
  · have hmono := roundTiesUp_mono (Int.ofNat_le.1 hunits) single.one
    omega
  · -- Only a zero lies under a number with a sign.
    have hzero : roundTiesUp 0 single.one = 0 := by decide
    rw [show single.units x.magnitude = 0 by omega, show single.units y.magnitude = 0 by omega,
      hzero]
    rfl
  · omega
  · have hmono := roundTiesUp_mono (Int.ofNat_le.1 (Int.le_of_neg_le_neg hunits)) single.one
    omega

variable {least most : Int}

theorem toIntWithin_infinity (negative : Bool) :
    (Binary.infinity negative : Sample).toIntWithin least most =
      if negative then least else most := by
  cases negative <;> rfl

theorem toIntWithin_of_isFinite (hx : x.IsFinite) :
    x.toIntWithin least most = max least (min most x.rounded) := by
  rw [Binary.toIntWithin, hx.isNaN, hx.isInfinite]
  rfl

theorem toIntWithin_bounds (hleast : least ≤ 0) (hmost : 0 ≤ most) (x : Sample) :
    least ≤ x.toIntWithin least most ∧ x.toIntWithin least most ≤ most := by
  rw [Binary.toIntWithin]
  split_ifs <;> omega

/-- **Bounds are stored in order.**  What has no value is stored as zero, which lies below
what positive infinity is stored as, and above what negative infinity is. -/
theorem Under.toIntWithin_le (h : lo.Under hi) (hleast : least ≤ 0) (hmost : 0 ≤ most) :
    lo.toIntWithin least most ≤ hi.toIntWithin least most := by
  have hlobounds := toIntWithin_bounds hleast hmost lo
  have hhibounds := toIntWithin_bounds hleast hmost hi
  have hzero : ∀ {x : Sample}, x.isNaN = true → x.toIntWithin least most = 0 := fun hnan =>
    if_pos hnan
  rcases hlo : lo.isNaN with _ | _
  · rcases hhi : hi.isNaN with _ | _
    · have hle := h.order_le hlo hhi
      rcases infinity_or_isFinite hlo with ⟨_ | _, rfl⟩ | hlofinite
      · rw [eq_infinity_of_le hhi hle]
      · rw [toIntWithin_infinity]
        exact hhibounds.1
      · rcases infinity_or_isFinite hhi with ⟨_ | _, rfl⟩ | hhifinite
        · rw [toIntWithin_infinity]
          exact hlobounds.2
        · exact absurd (eq_infinity_of_ge hlo hle) (hlofinite.ne_infinity true)
        · have hrounded := rounded_le_rounded hlo hhi hle
          rw [toIntWithin_of_isFinite hlofinite, toIntWithin_of_isFinite hhifinite]
          omega
    · rw [hzero hhi]
      rcases h.below hhi with hnan | rfl
      · rw [hlo] at hnan
        cases hnan
      · rw [toIntWithin_infinity]
        exact hleast
  · rw [hzero hlo]
    rcases h.above hlo with hnan | rfl
    · rw [hzero hnan]
    · rw [toIntWithin_infinity]
      exact hmost

end Sample

end Peakfile
