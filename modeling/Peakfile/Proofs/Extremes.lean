/-
# Bounds are the extremes of what was added

Bounds are widened by single samples and by runs of them.  However the samples come, the
bounds end up at the least and the greatest of those that are numbers, and where several of
these lie in one place, as the two zeros do, at the first of them (`Extrema.extremes_of_pieces`).
What is no number is never a bound, and the inverted bounds are left with the first number,
so that points are made from numbers that were added, or from zero where there were none.
-/
import Peakfile.Proofs.Samples
import Peakfile.Extraction

namespace Peakfile

/-! ## The first of the greatest -/

/-- What is found as the greatest of a list is the first that none of the others exceeds. -/
theorem find?_of_argmax {α : Type} [DecidableEq α] {key : α → Int} {l : List α} {m : α}
    (h : l.argmax key = some m) : l.find? (fun a => ∀ b ∈ l, key b ≤ key a) = some m := by
  obtain ⟨before, after, hl, hfirst⟩ := List.eq_append_cons_of_mem (List.argmax_mem h)
  refine List.find?_eq_some_iff_append.2 ⟨?_, before, after, hl, fun a ha => ?_⟩
  · exact decide_eq_true fun b hb => List.le_of_mem_argmax hb h
  · -- Any other of the greatest comes later than the one that is found.
    have hal : a ∈ l := by
      rw [hl]
      exact List.mem_append_left _ ha
    have hplace : l.idxOf a < l.idxOf m := by
      rw [hl, List.idxOf_append_of_mem ha, List.idxOf_append_of_notMem hfirst,
        List.idxOf_cons_self, Nat.add_zero]
      exact List.idxOf_lt_length_of_mem ha
    have hless : ¬ key m ≤ key a := fun hle =>
      Nat.not_le.2 hplace (List.index_of_argmax h hal hle)
    simp only [Bool.not_eq_true', decide_eq_false_iff_not]
    intro hall
    exact hless (hall m (List.argmax_mem h))

namespace Sample

/-! ## Numbers among samples -/

/-- The samples that are numbers or infinities, in order. -/
def numbers (samples : List Sample) : List Sample := samples.filter fun s => !s.isNaN

/-- The first of the numbers that is no larger than any of them. -/
def least? (samples : List Sample) : Option Sample :=
  (numbers samples).find? fun s => ∀ t ∈ numbers samples, s ≤ t

/-- The first of the numbers that is no smaller than any of them. -/
def greatest? (samples : List Sample) : Option Sample :=
  (numbers samples).find? fun s => ∀ t ∈ numbers samples, t ≤ s

/-- The least and the greatest of the numbers, or zero where there are none. -/
def span (samples : List Sample) : Sample × Sample :=
  ((least? samples).getD (Binary.zero false), (greatest? samples).getD (Binary.zero false))

variable {samples : List Sample} {s : Sample}

theorem isNaN_of_mem_numbers (h : s ∈ numbers samples) : s.isNaN = false := by
  simpa using (List.mem_filter.1 h).2

theorem numbers_append (first second : List Sample) :
    numbers (first ++ second) = numbers first ++ numbers second := List.filter_append ..

theorem numbers_singleton (hs : s.isNaN = false) : numbers [s] = [s] := by
  simp [numbers, hs]

theorem numbers_singleton_of_isNaN (hs : s.isNaN = true) : numbers [s] = [] := by
  simp [numbers, hs]

/-- Among numbers it is the places that are compared. -/
theorem le_iff_order_le {t : Sample} (hs : s ∈ numbers samples) (ht : t ∈ numbers samples) :
    s ≤ t ↔ s.order ≤ t.order :=
  ⟨fun h => h.2.2, fun h => ⟨isNaN_of_mem_numbers hs, isNaN_of_mem_numbers ht, h⟩⟩

theorem least?_of_argmax (h : (numbers samples).argmax (fun s => -s.order) = some s) :
    least? samples = some s := by
  rw [least?, ← find?_of_argmax h]
  refine List.find?_congr fun t ht => ?_
  refine decide_eq_decide.2 (forall₂_congr fun u hu => ?_)
  rw [le_iff_order_le ht hu, neg_le_neg_iff]

theorem greatest?_of_argmax (h : (numbers samples).argmax Binary.order = some s) :
    greatest? samples = some s := by
  rw [greatest?, ← find?_of_argmax h]
  refine List.find?_congr fun t ht => ?_
  exact decide_eq_decide.2 (forall₂_congr fun u hu => le_iff_order_le hu ht)

end Sample

/-! ## Bounds over samples -/

namespace Extrema

variable {e : Extrema} {s : Sample}

/-- A sample that is not a number changes nothing. -/
theorem add_of_isNaN (hs : s.isNaN = true) : e.add s = e := by
  have hlo : ¬ s < e.lo := fun h => by
    rw [h.1] at hs
    cases hs
  have hhi : ¬ e.hi < s := fun h => by
    rw [h.2.1] at hs
    cases hs
  rw [add, if_neg hlo, if_neg hhi]

/-- The first number sets both bounds, be it an infinity. -/
theorem add_inverted (hs : s.isNaN = false) : inverted.add s = ⟨s, s⟩ := by
  have hlo : (if s < inverted.lo then s else inverted.lo) = s := by
    split_ifs with h
    · rfl
    · refine (Sample.eq_infinity_of_le hs (Int.not_lt.1 fun hlt => h ?_)).symm
      exact ⟨hs, Sample.isNaN_infinity _, hlt⟩
  have hhi : (if inverted.hi < s then s else inverted.hi) = s := by
    split_ifs with h
    · rfl
    · refine (Sample.eq_infinity_of_ge hs (Int.not_lt.1 fun hlt => h ?_)).symm
      exact ⟨Sample.isNaN_infinity _, hs, hlt⟩
  rw [add, hlo, hhi]

/-- Bounds that stand at the least and the greatest of the numbers, or are inverted as long as
there are none. -/
inductive Spans (samples : List Sample) : Extrema → Prop
  | untouched (none : Sample.numbers samples = []) : Spans samples inverted
  | touched (e : Extrema)
      (lo : (Sample.numbers samples).argmax (fun s => -s.order) = some e.lo)
      (hi : (Sample.numbers samples).argmax Binary.order = some e.hi) : Spans samples e

/-- One more sample is spanned too. -/
theorem Spans.add {samples : List Sample} (h : Spans samples e) (s : Sample) :
    Spans (samples ++ [s]) (e.add s) := by
  rcases hs : s.isNaN with _ | _
  · have hnumbers : Sample.numbers (samples ++ [s]) = Sample.numbers samples ++ [s] := by
      rw [Sample.numbers_append, Sample.numbers_singleton hs]
    cases h with
    | untouched hnone =>
      rw [hnone, List.nil_append] at hnumbers
      rw [add_inverted hs]
      exact .touched _ (by rw [hnumbers]; rfl) (by rw [hnumbers]; rfl)
    | touched _ hlo hhi =>
      -- Bounds are numbers, so the new one is compared with them by its place.
      have hlonan := Sample.isNaN_of_mem_numbers (List.argmax_mem hlo)
      have hhinan := Sample.isNaN_of_mem_numbers (List.argmax_mem hhi)
      refine .touched _ ?_ ?_
      · have hless : s < e.lo ↔ -e.lo.order < -s.order :=
          ⟨fun h => Int.neg_lt_neg h.2.2, fun h => ⟨hs, hlonan, Int.lt_of_neg_lt_neg h⟩⟩
        rw [hnumbers, List.argmax_concat, hlo, Extrema.add]
        simp only [hless]
        split_ifs <;> rfl
      · have hless : e.hi < s ↔ e.hi.order < s.order :=
          ⟨fun h => h.2.2, fun h => ⟨hhinan, hs, h⟩⟩
        rw [hnumbers, List.argmax_concat, hhi, Extrema.add]
        simp only [hless]
        split_ifs <;> rfl
  · have hnumbers : Sample.numbers (samples ++ [s]) = Sample.numbers samples := by
      rw [Sample.numbers_append, Sample.numbers_singleton_of_isNaN hs, List.append_nil]
    rw [add_of_isNaN hs]
    cases h with
    | untouched hnone => exact .untouched (hnumbers.trans hnone)
    | touched _ hlo hhi => exact .touched _ (by rw [hnumbers, hlo]) (by rw [hnumbers, hhi])

/-- Bounds that started inverted span all samples. -/
theorem spans_addAll (samples : List Sample) : Spans samples (inverted.addAll samples) := by
  induction samples using List.reverseRecOn with
  | nil => exact .untouched rfl
  | append_singleton samples s ih =>
    rw [addAll_append]
    exact ih.add s

namespace Spans

variable {samples : List Sample}

/-- Where there are no numbers, nothing is drawn but zero. -/
theorem of_numbers_eq_nil (h : Spans samples e) (hnone : Sample.numbers samples = []) :
    e = inverted ∧ e.isEmpty = true ∧
      e.peaks = (Binary.zero false, Binary.zero false) := by
  cases h with
  | untouched => exact ⟨rfl, by decide, by decide⟩
  | touched _ hlo =>
    rw [hnone] at hlo
    cases hlo

/-- Where there are numbers, both bounds are among them, and are drawn as they are. -/
theorem of_numbers_ne_nil (h : Spans samples e) (hsome : Sample.numbers samples ≠ []) :
    e.lo ∈ Sample.numbers samples ∧ e.hi ∈ Sample.numbers samples ∧
      (∀ s ∈ Sample.numbers samples, e.lo ≤ s ∧ s ≤ e.hi) ∧
      Sample.least? samples = some e.lo ∧ Sample.greatest? samples = some e.hi ∧
      e.isEmpty = false ∧ e.peaks = (e.lo, e.hi) := by
  cases h with
  | untouched hnone => exact absurd hnone hsome
  | touched _ hlo hhi =>
    have hlomem := List.argmax_mem hlo
    have hhimem := List.argmax_mem hhi
    have hbetween : ∀ s ∈ Sample.numbers samples, e.lo ≤ s ∧ s ≤ e.hi := by
      intro s hs
      constructor
      · have hle := List.le_of_mem_argmax hs hlo
        exact (Sample.le_iff_order_le hlomem hs).2 (Int.le_of_neg_le_neg hle)
      · exact (Sample.le_iff_order_le hs hhimem).2 (List.le_of_mem_argmax hs hhi)
    have hempty : e.isEmpty = false := by
      refine decide_eq_false fun hlt => ?_
      exact Int.not_lt.2 (hbetween e.lo hlomem).2.2.2 hlt.2.2
    refine ⟨hlomem, hhimem, hbetween, Sample.least?_of_argmax hlo, Sample.greatest?_of_argmax hhi,
      hempty, ?_⟩
    rw [peaks, hempty, if_neg Bool.false_ne_true]

/-- What is drawn are the extremes of the samples. -/
theorem peaks_eq (h : Spans samples e) : e.peaks = Sample.span samples := by
  by_cases hnone : Sample.numbers samples = []
  · rw [(h.of_numbers_eq_nil hnone).2.2, Sample.span, Sample.least?, Sample.greatest?, hnone]
    rfl
  · obtain ⟨-, -, -, hlo, hhi, -, hpeaks⟩ := h.of_numbers_ne_nil hnone
    rw [hpeaks, Sample.span, hlo, hhi]
    rfl

end Spans

/-! ## Bounds over pieces -/

/-- What bounds are widened by at once. -/
inductive Piece where
  | sample (s : Sample)
  | run (samples : List Sample)
  deriving DecidableEq

/-- The samples of a piece. -/
def Piece.samples : Piece → List Sample
  | sample s => [s]
  | run samples => samples

/-- Widen the bounds to hold a piece. -/
def addPiece (e : Extrema) : Piece → Extrema
  | .sample s => e.add s
  | .run samples => e.addAll samples

/-- Samples may come in any pieces. -/
theorem foldl_addPiece (e : Extrema) (pieces : List Piece) :
    pieces.foldl addPiece e = e.addAll (pieces.flatMap Piece.samples) := by
  induction pieces generalizing e with
  | nil => rfl
  | cons piece pieces ih =>
    have hpiece : e.addPiece piece = e.addAll piece.samples := by cases piece <;> rfl
    rw [List.foldl_cons, ih, List.flatMap_cons, addAll_append, hpiece]

end Extrema

/-- The sample that a window seems to begin with: a zero, if bounds are anchored there. -/
def Anchor.lead : Anchor → List Sample
  | extrema => []
  | zero => [Binary.zero false]

namespace Extrema

/-- Bounds that start at zero have seen a zero. -/
theorem initial_eq (anchor : Anchor) : anchor.initial = inverted.addAll anchor.lead := by
  cases anchor
  · rfl
  · decide

/-- Bounds span their samples, and what their anchor makes them begin with. -/
theorem spans_initial (anchor : Anchor) (pieces : List Piece) :
    Spans (anchor.lead ++ pieces.flatMap Piece.samples)
      (pieces.foldl addPiece anchor.initial) := by
  rw [foldl_addPiece, initial_eq, ← addAll_append]
  exact spans_addAll _

/-- **Bounds are the extremes of the numbers.**  Whatever the samples are, and in whatever
pieces they are added to inverted bounds:

* without a number among them the bounds stay inverted, and zero is drawn;
* otherwise both bounds are numbers, no number is beyond them, the lower one is the first of
  the least numbers and the upper one the first of the greatest, and both are drawn as they
  are;
* bounds that start at zero end as if a zero had come first;
* the points of a window are made from these extremes alone, over the samples of each
  channel and the zero if bounds start there: neither what is no number nor inverted bounds
  are ever encoded. -/
theorem extremes_of_pieces (pieces : List Piece) :
    let e := pieces.foldl addPiece inverted
    let samples := pieces.flatMap Piece.samples
    let numbers := Sample.numbers samples
    (numbers = [] → e = inverted ∧ e.isEmpty = true ∧
        e.peaks = (Binary.zero false, Binary.zero false)) ∧
      (numbers ≠ [] → e.isEmpty = false ∧ e.lo.isNaN = false ∧ e.hi.isNaN = false ∧
        (∀ s ∈ numbers, e.lo ≤ s ∧ s ≤ e.hi) ∧
        Sample.least? samples = some e.lo ∧ Sample.greatest? samples = some e.hi ∧
        e.peaks = (e.lo, e.hi)) ∧
      pieces.foldl addPiece atZero =
        (Piece.sample (Binary.zero false) :: pieces).foldl addPiece inverted ∧
      ∀ (s : Settings) (channels : List (List Piece)),
        let spans := channels.map fun pieces =>
          Sample.span (s.anchor.lead ++ pieces.flatMap Piece.samples)
        s.encodeWindow (channels.map fun pieces => pieces.foldl addPiece s.anchor.initial) =
          if s.split then spans.flatMap fun (lo, hi) => s.depth.encodePoint lo hi
          else s.depth.encodePoint (Settings.mean (spans.map Prod.fst))
            (Settings.mean (spans.map Prod.snd)) := by
  intro e samples numbers
  have hspans : Spans samples e := spans_initial .extrema pieces
  refine ⟨hspans.of_numbers_eq_nil, fun hsome => ?_, ?_, fun s channels => ?_⟩
  · obtain ⟨hlo, hhi, hbetween, hleast, hgreatest, hempty, hpeaks⟩ :=
      hspans.of_numbers_ne_nil hsome
    exact ⟨hempty, Sample.isNaN_of_mem_numbers hlo, Sample.isNaN_of_mem_numbers hhi, hbetween,
      hleast, hgreatest, hpeaks⟩
  · have hzero : atZero = inverted.addPiece (.sample (Binary.zero false)) := by decide
    rw [List.foldl_cons, ← hzero]
  · intro spans
    have hpeaks : (channels.map fun pieces => pieces.foldl addPiece s.anchor.initial).map
        Extrema.peaks = spans := by
      rw [List.map_map]
      exact List.map_congr_left fun pieces _ => (spans_initial s.anchor pieces).peaks_eq
    rw [Settings.encodeWindow, hpeaks]

/-- The first of two zeros is kept on both sides, and a sample that is not a number between
them changes nothing. -/
theorem extremes_of_pieces_zeros :
    let minusZero : Sample := .ofBits _ 0x80000000
    let noNumber : Sample := .ofBits _ 0x7fc00000
    let e := [Piece.sample minusZero, .run [noNumber, Binary.zero false]].foldl addPiece inverted
    e.isEmpty = false ∧ e.peaks = (minusZero, minusZero) := by
  intro minusZero noNumber e
  obtain ⟨-, hsome, -⟩ :=
    extremes_of_pieces [Piece.sample minusZero, .run [noNumber, Binary.zero false]]
  obtain ⟨hempty, -, -, -, hlo, hhi, hpeaks⟩ := hsome (by decide)
  refine ⟨hempty, hpeaks.trans (Prod.ext ?_ ?_)⟩
  · exact Option.some.inj (hlo.symm.trans (by decide))
  · exact Option.some.inj (hhi.symm.trans (by decide))

end Extrema

end Peakfile
