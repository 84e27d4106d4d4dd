/-
# Windows in frames

The length of a window in frames is a product of seconds and a rate, rounded twice: to double
precision and to a whole number (`Settings.roundedFrames`).  Both roundings keep the order of
rates.  Below `2 ^ 32` the first is off by `2 ^ (-22)` at most, half a step of the grid there,
and the second by a half (`Settings.abs_roundedFrames_sub_le`).  So the outcomes for rates in
order stand in order, an empty window first and a window that is too long last
(`Settings.windowFrames_of_rates`).
-/
import Peakfile.Proofs.Accuracy
import Peakfile.Proofs.Content

namespace Peakfile

open BinaryFormat (double)

/-! ## Whole numbers in double precision -/

/-- A whole number of 53 bits is a finite number in double precision. -/
theorem Binary.magnitude_ofNat_double {n : Nat} (hn : n < 2 ^ 53) :
    (Binary.ofNat double n).magnitude < double.infinity := by
  have hmul : n * double.one * 1 ≤ 2 ^ 53 * double.one * 1 :=
    Nat.mul_le_mul_right _ (Nat.mul_le_mul_right _ hn.le)
  refine (BinaryFormat.nearest_mono (f := double) Nat.one_pos Nat.one_pos hmul).trans_lt ?_
  decide +kernel

/-- Its value is read off that number. -/
theorem Binary.units_ofNat_double {n : Nat} (hn : n < 2 ^ 53) :
    double.units (Binary.ofNat double n).magnitude = n * double.one :=
  BinaryFormat.units_nearest_whole hn (magnitude_ofNat_double hn)

/-- A quotient that is rounded to a finite number without a sign is rounded once more, and
clamped. -/
theorem Binary.toIntWithin_ofUnits {f : BinaryFormat} {num den : Nat}
    (h : f.nearest num den < f.infinity) (least most : Int) :
    (ofUnits false num den : Binary f).toIntWithin least most =
      max least (min most (roundTiesUp (f.units (f.nearest num den)) f.one : Nat)) := by
  have hnan : (ofUnits false num den : Binary f).isNaN = false :=
    decide_eq_false (Nat.not_lt.2 h.le)
  have hinfinite : (ofUnits false num den : Binary f).isInfinite = false := decide_eq_false h.ne
  rw [toIntWithin, hnan, hinfinite, if_neg Bool.false_ne_true, if_neg Bool.false_ne_true]
  rfl

namespace Settings

variable {s : Settings} {rate rate' : UInt32}

/-! ## The product -/

/-- The settings have a window length that passes the check. -/
def InRange (s : Settings) : Prop := shortestWindow ≤ s.seconds ∧ s.seconds ≤ longestWindow

theorem check_eq_ok_iff : s.check = .ok () ↔ s.InRange := by
  unfold check
  split_ifs with h
  · exact iff_of_true rfl h
  · exact iff_of_false (by simp) h

theorem windowFrames_of_not_inRange (h : ¬ s.InRange) (rate : UInt32) :
    s.windowFrames rate = .error (.windowLength s.seconds) := by
  have hcheck : s.check = .error (.windowLength s.seconds) := if_neg h
  unfold windowFrames
  rw [hcheck]

/-- A window length in range is a positive number, and shows as such in its bits. -/
theorem InRange.positive (h : s.InRange) :
    s.seconds.isNaN = false ∧ s.seconds.isInfinite = false ∧ s.seconds.negative = false ∧
      s.seconds.magnitude ≤ longestWindow.magnitude := by
  obtain ⟨⟨-, hnan, hlo⟩, ⟨-, -, hhi⟩⟩ := h
  have hshortest : 0 < shortestWindow.order := by decide +kernel
  have hlongest : longestWindow.order = longestWindow.magnitude := rfl
  have hfinite : longestWindow.magnitude < double.infinity := by decide +kernel
  have horder : s.seconds.order =
      if s.seconds.negative then -(s.seconds.magnitude : Int) else s.seconds.magnitude := rfl
  rcases hsign : s.seconds.negative with _ | _
  · rw [hsign, if_neg Bool.false_ne_true] at horder
    have hmost : s.seconds.magnitude ≤ longestWindow.magnitude := by omega
    exact ⟨hnan, decide_eq_false (by omega), rfl, hmost⟩
  · rw [hsign, if_pos rfl] at horder
    omega

/-- The product of seconds and rate, in units. -/
def exactUnits (s : Settings) (rate : UInt32) : Nat :=
  double.units s.seconds.magnitude * (rate.toNat * double.one)

/-- The product is no larger than that of the longest window and the highest rate. -/
theorem InRange.nearest_lt (h : s.InRange) (rate : UInt32) :
    double.nearest (s.exactUnits rate) double.one < double.infinity := by
  obtain ⟨hnan, -, -, hmost⟩ := h.positive
  have hlongest : longestWindow.magnitude ≤ double.infinity := by decide +kernel
  have hunits := (BinaryFormat.units_le_iff (Binary.magnitude_le hnan) hlongest).2 hmost
  have hrate : rate.toNat ≤ 2 ^ 32 := rate.toNat_lt.le
  have hmul : s.exactUnits rate * double.one ≤
      double.units longestWindow.magnitude * (2 ^ 32 * double.one) * double.one := by
    rw [exactUnits]
    generalize double.units longestWindow.magnitude = longest at hunits ⊢
    generalize double.one = one
    exact Nat.mul_le_mul_right _ (Nat.mul_le_mul hunits (Nat.mul_le_mul_right _ hrate))
  refine (BinaryFormat.nearest_mono double.one_pos double.one_pos hmul).trans_lt ?_
  decide +kernel

/-- The product is formed exactly and rounded once. -/
theorem InRange.mul_eq (h : s.InRange) (rate : UInt32) :
    s.seconds * Binary.ofNat double rate.toNat =
      Binary.ofUnits false (s.exactUnits rate) double.one := by
  obtain ⟨hnan, hinfinite, hsign, -⟩ := h.positive
  have hunits := Binary.units_ofNat_double (rate.toNat_lt.trans (by decide : 2 ^ 32 < 2 ^ 53))
  have hfinite := Binary.magnitude_ofNat_double (rate.toNat_lt.trans (by decide : 2 ^ 32 < 2 ^ 53))
  have hrate : (Binary.ofNat double rate.toNat).isNaN = false := decide_eq_false (by omega)
  have hrate' : (Binary.ofNat double rate.toNat).isInfinite = false := decide_eq_false (by omega)
  have hsign' : (Binary.ofNat double rate.toNat).negative = false := rfl
  show Binary.mul _ _ = _
  simp only [Binary.mul, hnan, hinfinite, hsign, hrate, hrate', hsign', hunits, exactUnits,
    Bool.or_false, bne_self_eq_false, Bool.false_eq_true, if_false]

/-! ## Both roundings -/

/-- The product, rounded to double precision and to a whole number. -/
def roundedFrames (s : Settings) (rate : UInt32) : Nat :=
  ((s.seconds * Binary.ofNat _ rate.toNat).toIntWithin 0 (UInt64.size - 1)).toNat

theorem InRange.windowFrames_eq (h : s.InRange) (rate : UInt32) :
    s.windowFrames rate =
      if s.roundedFrames rate = 0 then .error (.emptyWindow s.seconds rate.toNat)
      else if UInt32.size ≤ s.roundedFrames rate then
        .error (.layout (.windowTooLong (s.roundedFrames rate)))
      else .ok (s.roundedFrames rate) := by
  have hcheck := check_eq_ok_iff.2 h
  unfold windowFrames
  split
  · next cause hcause =>
    rw [hcheck] at hcause
    cases hcause
  · rfl

/-- The product is positive, so no more is left of the signs. -/
theorem InRange.roundedFrames_eq (h : s.InRange) (rate : UInt32) :
    s.roundedFrames rate =
      min (UInt64.size - 1)
        (roundTiesUp (double.units (double.nearest (s.exactUnits rate) double.one)) double.one) := by
  have hlt := h.nearest_lt rate
  rw [roundedFrames, h.mul_eq, Binary.toIntWithin_ofUnits hlt]
  generalize roundTiesUp _ _ = frames
  simp only [UInt64.size]
  omega

/-- Higher rates have no fewer frames. -/
theorem InRange.roundedFrames_mono (h : s.InRange) (hrate : rate ≤ rate') :
    s.roundedFrames rate ≤ s.roundedFrames rate' := by
  have hmul : s.exactUnits rate * double.one ≤ s.exactUnits rate' * double.one := by
    rw [exactUnits, exactUnits]
    have hle : rate.toNat ≤ rate'.toNat := UInt32.le_iff_toNat_le.1 hrate
    generalize double.one = one
    exact Nat.mul_le_mul_right _ (Nat.mul_le_mul_left _ (Nat.mul_le_mul_right _ hle))
  have hnearest := BinaryFormat.nearest_mono (f := double) double.one_pos double.one_pos hmul
  have hunits := (BinaryFormat.units_le_iff (h.nearest_lt rate).le (h.nearest_lt rate').le).2
    hnearest
  rw [h.roundedFrames_eq, h.roundedFrames_eq]
  exact min_le_min_left _ (roundTiesUp_mono hunits _)

variable {frames : Nat}

/-- A whole number of frames is rounded to itself, both times. -/
theorem rounded_whole (hframes : frames < 2 ^ 53) :
    roundTiesUp (double.units (double.nearest (frames * double.one * double.one) double.one))
      double.one = frames := by
  have hfinite := Binary.magnitude_ofNat_double hframes
  rw [← Binary.units_ofNat_double hframes, BinaryFormat.nearest_units hfinite.le double.one_pos,
    Binary.units_ofNat_double hframes, roundTiesUp_mul _ double.one_pos]

/-- A product of at least a whole number of frames has at least these. -/
theorem InRange.le_roundedFrames (h : s.InRange) (hframes : frames < 2 ^ 53)
    (hle : frames * double.one * double.one ≤ s.exactUnits rate) :
    frames ≤ s.roundedFrames rate := by
  have hnearest := BinaryFormat.nearest_mono (f := double) double.one_pos double.one_pos
    (Nat.mul_le_mul_right double.one hle)
  have hfinite := h.nearest_lt rate
  have hunits := (BinaryFormat.units_le_iff (hnearest.trans hfinite.le) hfinite.le).2 hnearest
  have hrounded := roundTiesUp_mono hunits double.one
  rw [rounded_whole hframes] at hrounded
  rw [h.roundedFrames_eq]
  exact le_min (by simp only [UInt64.size]; omega) hrounded

/-- A product of at most a whole number of frames has at most these. -/
theorem InRange.roundedFrames_le (h : s.InRange) (hframes : frames < 2 ^ 53)
    (hle : s.exactUnits rate ≤ frames * double.one * double.one) :
    s.roundedFrames rate ≤ frames := by
  have hnearest := BinaryFormat.nearest_mono (f := double) double.one_pos double.one_pos
    (Nat.mul_le_mul_right double.one hle)
  have hfinite := h.nearest_lt rate
  have hwhole : double.nearest (frames * double.one * double.one) double.one ≤ double.infinity :=
    Nat.min_le_right _ _
  have hunits := (BinaryFormat.units_le_iff hfinite.le hwhole).2 hnearest
  have hrounded := roundTiesUp_mono hunits double.one
  rw [rounded_whole hframes] at hrounded
  rw [h.roundedFrames_eq]
  exact (min_le_right _ _).trans hrounded

/-! ## Distances -/

/-- The exact product of seconds and rate. -/
def exactFrames (s : Settings) (rate : UInt32) : ℚ := s.seconds.value * rate.toNat

theorem InRange.exactFrames_eq (h : s.InRange) (rate : UInt32) :
    s.exactFrames rate = s.exactUnits rate / double.one / double.one := by
  obtain ⟨-, -, hsign, -⟩ := h.positive
  have hone := BinaryFormat.cast_one_pos double
  rw [exactFrames, exactUnits, Binary.value, Binary.units, hsign, if_neg Bool.false_ne_true]
  generalize double.one = one at hone ⊢
  push_cast
  field_simp

/-- **Frames are close to the product**, as long as a header word holds them. -/
theorem InRange.abs_roundedFrames_sub_le (h : s.InRange)
    (hfew : s.roundedFrames rate < UInt32.size) :
    |(s.roundedFrames rate : ℚ) - s.exactFrames rate| ≤ 1 / 2 + 1 / 2 ^ 22 := by
  have hbelow : s.exactUnits rate < UInt32.size * double.one * double.one := by
    by_contra hge
    exact hfew.not_ge (h.le_roundedFrames (by decide) (Nat.not_lt.1 hge))
  -- The product as a number in double precision, its sign included.
  obtain ⟨exact, hexact⟩ : ∃ exact : Int, exact = s.exactUnits rate := ⟨_, rfl⟩
  have habs : exact.natAbs = s.exactUnits rate := by rw [hexact, Int.natAbs_natCast]
  have hpositive : decide (exact < 0) = false := decide_eq_false (by omega)
  have hround : Binary.round double exact double.one =
      Binary.ofUnits false (s.exactUnits rate) double.one := by
    rw [Binary.round, hpositive, habs]
  have hproduct : |(Binary.round double exact double.one).value - s.exactFrames rate| ≤
      1 / 2 ^ 22 := by
    have hfinite := h.nearest_lt rate
    have hone : UInt32.size * double.one = 2 ^ (1053 + double.fractionBits + 1) := by
      decide +kernel
    rw [hone, ← habs] at hbelow
    rw [← habs] at hfinite
    have hvalue := Binary.abs_value_round_sub_le double.one_pos hfinite hbelow
    have hstep : (2 : ℚ) ^ 1053 / 2 / double.one = 1 / 2 ^ 22 := by
      have hone : double.one = 2 ^ 1053 * 2 ^ 21 := by decide +kernel
      have hpos : (0 : ℚ) < 2 ^ 1053 := by positivity
      rw [hone, Nat.cast_mul, Nat.cast_pow, Nat.cast_ofNat]
      generalize (2 : ℚ) ^ 1053 = large at hpos ⊢
      field_simp
      norm_num
    rwa [hstep, hexact, Int.cast_natCast, ← h.exactFrames_eq, ← hexact] at hvalue
  have hwhole : |(s.roundedFrames rate : ℚ) - (Binary.round double exact double.one).value| ≤
      1 / 2 := by
    have hrounded := (Binary.round double exact double.one).abs_rounded_sub_value_le
    have hframes : s.roundedFrames rate =
        (Binary.round double exact double.one).roundedMagnitude := by
      have heq := h.roundedFrames_eq rate
      rw [hround]
      show _ = roundTiesUp (double.units (double.nearest (s.exactUnits rate) double.one)) double.one
      generalize roundTiesUp _ _ = frames at heq ⊢
      simp only [UInt32.size, UInt64.size] at heq hfew
      omega
    have hsign : (Binary.round double exact double.one).negative = false := hpositive
    rw [hsign, if_neg Bool.false_ne_true, Int.cast_natCast, ← hframes] at hrounded
    exact hrounded
  calc |(s.roundedFrames rate : ℚ) - s.exactFrames rate|
      ≤ |(s.roundedFrames rate : ℚ) - (Binary.round double exact double.one).value| +
          |(Binary.round double exact double.one).value - s.exactFrames rate| := abs_sub_le _ _ _
    _ ≤ 1 / 2 + 1 / 2 ^ 22 := add_le_add hwhole hproduct

/-- Frames that no header word holds are those of a product beyond such a word. -/
theorem InRange.lt_exactFrames (h : s.InRange) (hmany : UInt32.size ≤ s.roundedFrames rate) :
    2 ^ 32 - 1 < s.exactFrames rate := by
  have hmore : (UInt32.size - 1) * double.one * double.one < s.exactUnits rate := by
    by_contra hle
    have hfew := h.roundedFrames_le (by decide) (Nat.not_lt.1 hle)
    simp only [UInt32.size] at hfew hmany
    omega
  have hone := BinaryFormat.cast_one_pos double
  rw [h.exactFrames_eq, lt_div_iff₀ hone, lt_div_iff₀ hone]
  generalize s.exactUnits rate = exact at hmore ⊢
  generalize double.one = one at hmore ⊢
  have hcast : ((UInt32.size - 1 : Nat) : ℚ) = 2 ^ 32 - 1 := by norm_num [UInt32.size]
  rw [← hcast]
  exact_mod_cast hmore

/-! ## Outcomes -/

/-- Where the outcome of a window length stands: an empty window comes first, then come the
lengths in their order, and what is too long comes last. -/
def outcomeRank : Except Error Nat → WithTop Nat
  | .error (.emptyWindow _ _) => 0
  | .ok frames => frames
  | .error _ => ⊤

theorem InRange.outcomeRank_eq (h : s.InRange) (rate : UInt32) :
    outcomeRank (s.windowFrames rate) =
      if UInt32.size ≤ s.roundedFrames rate then ⊤ else (s.roundedFrames rate : WithTop Nat) := by
  rw [h.windowFrames_eq]
  generalize s.roundedFrames rate = frames
  by_cases hempty : frames = 0
  · subst hempty
    rw [if_pos rfl, if_neg (by decide)]
    rfl
  · rw [if_neg hempty]
    split_ifs
    · rfl
    · rfl

theorem InRange.outcomeRank_mono (h : s.InRange) (hrate : rate ≤ rate') :
    outcomeRank (s.windowFrames rate) ≤ outcomeRank (s.windowFrames rate') := by
  have hmono := h.roundedFrames_mono hrate
  rw [h.outcomeRank_eq, h.outcomeRank_eq]
  generalize s.roundedFrames rate = frames at hmono ⊢
  generalize s.roundedFrames rate' = frames' at hmono ⊢
  by_cases hlong : UInt32.size ≤ frames'
  · rw [if_pos hlong]
    exact le_top
  · rw [if_neg hlong, if_neg (fun hle => hlong (hle.trans hmono))]
    exact WithTop.coe_le_coe.2 hmono

/-- An extraction opens with a window of as many frames as its settings say, and with a header
that tells this number. -/
theorem window_of_opening {x : Extraction} {l : Layout} {granted : Bool} {w : Windower}
    {header : Header} (hframes : x.settings.windowFrames l.rate = .ok frames)
    (h : x.opening l granted = .ok (w, header)) :
    w.window = frames ∧ header.windowFrames.toNat = frames := by
  obtain ⟨hl, rfl, -⟩ := Extraction.check_of_opening h
  obtain ⟨-, hlt⟩ := windowFrames_bounds hframes
  rw [Extraction.opening_eq hl hframes] at h
  obtain ⟨rfl, rfl⟩ := Prod.mk.inj (Except.ok.inj h)
  exact ⟨rfl, UInt32.toNat_ofNat_of_lt' hlt⟩

/-- **Windows in frames.**  A window length out of range, one that is no number included, is
refused at every rate.  One in range has one of three outcomes at a rate:

* a length, which is at least one frame and fits a header word, is off the exact product by
  `1 / 2 + 2 ^ (-22)` at most, and is what an extraction opens with and tells in its header;
* an empty window, only where the product comes to half a frame at most, but for as little;
* a window that is too long, only where the product is beyond what a header word holds.

The outcomes for rates in order stand in this order: empty windows first, then the lengths in
their order, and windows that are too long last. -/
theorem windowFrames_of_rates (s : Settings) (rate rate' : UInt32) :
    (¬ s.InRange → s.windowFrames rate = .error (.windowLength s.seconds)) ∧
      (s.InRange →
        ((∃ frames, s.windowFrames rate = .ok frames ∧ 1 ≤ frames ∧ frames ≤ 2 ^ 32 - 1 ∧
            |(frames : ℚ) - s.exactFrames rate| ≤ 1 / 2 + 1 / 2 ^ 22 ∧
            ∀ (x : Extraction) (l : Layout) (granted : Bool) (w : Windower) (header : Header),
              x.settings = s → l.rate = rate → x.opening l granted = .ok (w, header) →
              w.window = frames ∧ header.windowFrames.toNat = frames) ∨
          (s.windowFrames rate = .error (.emptyWindow s.seconds rate.toNat) ∧
            s.exactFrames rate ≤ 1 / 2 + 1 / 2 ^ 22) ∨
          ∃ frames, s.windowFrames rate = .error (.layout (.windowTooLong frames)) ∧
            2 ^ 32 - 1 < s.exactFrames rate) ∧
        (rate ≤ rate' → outcomeRank (s.windowFrames rate) ≤ outcomeRank (s.windowFrames rate'))) := by
  refine ⟨fun hout => ?_, fun h => ⟨?_, h.outcomeRank_mono⟩⟩
  · exact windowFrames_of_not_inRange hout rate
  have heq := h.windowFrames_eq rate
  have hclose := @InRange.abs_roundedFrames_sub_le s rate h
  have hlarge := @InRange.lt_exactFrames s rate h
  generalize s.roundedFrames rate = frames at heq hclose hlarge
  split_ifs at heq with hempty hlong
  · subst hempty
    have hnear := abs_le.1 (hclose (by decide))
    refine .inr (.inl ⟨heq, ?_⟩)
    push_cast at hnear
    linarith
  · exact .inr (.inr ⟨_, heq, hlarge hlong⟩)
  · obtain ⟨hpos, hlt⟩ := windowFrames_bounds heq
    refine .inl ⟨_, heq, hpos, Nat.le_sub_one_of_lt hlt, hclose hlt, ?_⟩
    rintro x l granted w header rfl rfl hopening
    exact window_of_opening heq hopening

/-- The shortest window makes two frames of a product of one and a half at 150 frames per second,
none at 40, and no window at all is as long as no number. -/
theorem windowFrames_of_rates_shortest :
    let shortest : Settings := { Settings.standard with seconds := shortestWindow }
    let none : Settings := { Settings.standard with seconds := .ofBits _ 0x7ff8000000000000 }
    none.windowFrames 40 = .error (.windowLength none.seconds) ∧
      shortest.windowFrames 40 = .error (.emptyWindow shortestWindow 40) ∧
      shortest.exactFrames 40 ≤ 1 / 2 + 1 / 2 ^ 22 ∧
      shortest.windowFrames 150 = .ok 2 ∧
      |(2 : ℚ) - shortest.exactFrames 150| ≤ 1 / 2 + 1 / 2 ^ 22 ∧
      outcomeRank (shortest.windowFrames 40) ≤ outcomeRank (shortest.windowFrames 150) := by
  intro shortest none
  have hempty : shortest.windowFrames 40 = .error (.emptyWindow shortestWindow 40) := by
    decide +kernel
  have htwo : shortest.windowFrames 150 = .ok 2 := by decide +kernel
  have hin : shortest.InRange := ⟨by decide +kernel, by decide +kernel⟩
  have hout : ¬ none.InRange := fun h => absurd h.1 (by decide +kernel)
  obtain ⟨hrefused, -⟩ := windowFrames_of_rates none 40 40
  obtain ⟨-, hrange⟩ := windowFrames_of_rates shortest 40 150
  obtain ⟨-, hrange'⟩ := windowFrames_of_rates shortest 150 150
  obtain ⟨houtcome, hmono⟩ := hrange hin
  obtain ⟨houtcome', -⟩ := hrange' hin
  refine ⟨hrefused hout, hempty, ?_, htwo, ?_, hmono (by decide)⟩
  · rcases houtcome with ⟨frames, hok, -⟩ | ⟨-, hfew⟩ | ⟨frames, hlong, -⟩
    · rw [hempty] at hok
      cases hok
    · exact hfew
    · rw [hempty] at hlong
      cases hlong
  · rcases houtcome' with ⟨frames, hok, -, -, hclose, -⟩ | ⟨hnone, -⟩ | ⟨frames, hlong, -⟩
    · rw [htwo] at hok
      obtain rfl := Except.ok.inj hok
      exact hclose
    · rw [htwo] at hnone
      cases hnone
    · rw [htwo] at hlong
      cases hlong

end Settings

end Peakfile
