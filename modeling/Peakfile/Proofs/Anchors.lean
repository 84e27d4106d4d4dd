/-
# Two anchors

The bounds of a window start inverted or at zero.  A start at zero comes to a zero before the
first sample, so it moves the least of the samples down to zero if it is above, and the
greatest up to zero if it is below.  Quantizing keeps the order of samples, and the stored
values of the two anchors are related in the same way (`Sample.quantize_span_cons_zero`).
How far a run comes does not depend on the anchor, so this relates the two files point by
point (`Extraction.points_of_anchors`).
-/
import Peakfile.Proofs.Progress
import Peakfile.Proofs.ReadingBack

namespace Peakfile

/-! ## Cutting pieces apart again -/

namespace Cut

variable {α β : Type} {f : α → List β} {n : Nat}

/-- Pieces of equal length are what is cut from them. -/
theorem whole_flatMap (hn : 0 < n) (hf : ∀ a, (f a).length = n) (as : List α) :
    whole n (as.flatMap f) = as.map f := by
  induction as with
  | nil => exact whole_of_lt hn
  | cons a as ih =>
    rw [List.flatMap_cons, whole_group_append hn (hf a), ih]
    rfl

/-- An entry of a piece, found by its place among all. -/
theorem getElem?_flatMap (hf : ∀ a, (f a).length = n) {as : List α} {i c : Nat}
    (hi : i < as.length) (hc : c < n) : (as.flatMap f)[i * n + c]? = (f as[i])[c]? := by
  rw [← take_drop_flatMap hf hi, List.getElem?_take_of_lt hc, List.getElem?_drop]

end Cut

/-! ## Stored values -/

namespace Sample

variable {samples : List Sample} {s : Sample}

/-- What is spanned where there are numbers: two of them that have all others between them. -/
theorem span_of_numbers_ne_nil (h : numbers samples ≠ []) :
    (span samples).1 ∈ numbers samples ∧ (span samples).2 ∈ numbers samples ∧
      ∀ s ∈ numbers samples, (span samples).1 ≤ s ∧ s ≤ (span samples).2 := by
  have hspans := Extrema.spans_addAll samples
  obtain ⟨hlo, hhi, hbetween, -, -, -, hpeaks⟩ := hspans.of_numbers_ne_nil h
  rw [← hspans.peaks_eq, hpeaks]
  exact ⟨hlo, hhi, hbetween⟩

/-- Where there are no numbers, only zero is spanned. -/
theorem span_of_numbers_eq_nil (h : numbers samples = []) :
    span samples = (Binary.zero false, Binary.zero false) := by
  have hspans := Extrema.spans_addAll samples
  rw [← hspans.peaks_eq, (hspans.of_numbers_eq_nil h).2.2]

theorem quantize_le (h : s ≤ t) (d : Depth) : d.quantize s ≤ d.quantize t :=
  (Under.of_le h).quantize_le d

theorem quantize_zero (d : Depth) : d.quantize (Binary.zero false) = 0 := by
  cases d <;> decide +kernel

/-- **A zero among the samples.**  With a zero before the first sample, the stored value of the
least of them is moved down to zero, and that of the greatest up to zero. -/
theorem quantize_span_cons_zero (d : Depth) (samples : List Sample) :
    d.quantize (span (Binary.zero false :: samples)).1 = min 0 (d.quantize (span samples).1) ∧
      d.quantize (span (Binary.zero false :: samples)).2 =
        max 0 (d.quantize (span samples).2) := by
  have hcons : numbers (Binary.zero false :: samples) = Binary.zero false :: numbers samples := rfl
  obtain ⟨hlo, hhi, hbetween⟩ :=
    @span_of_numbers_ne_nil (Binary.zero false :: samples) (by rw [hcons]; nofun)
  rw [hcons] at hlo hhi hbetween
  have hzero := quantize_zero d
  by_cases hnone : numbers samples = []
  · -- The zero is the only number.
    rw [hnone, List.mem_singleton] at hlo hhi
    rw [span_of_numbers_eq_nil hnone, hlo, hhi, hzero]
    exact ⟨rfl, rfl⟩
  · obtain ⟨hlo', hhi', hbetween'⟩ := span_of_numbers_ne_nil hnone
    obtain ⟨hlozero, hzerohi⟩ := hbetween _ List.mem_cons_self
    have hlole := (hbetween _ (List.mem_cons_of_mem _ hlo')).1
    have hlehi := (hbetween _ (List.mem_cons_of_mem _ hhi')).2
    have hbelow := le_min (hzero ▸ quantize_le hlozero d) (quantize_le hlole d)
    have habove := max_le (hzero ▸ quantize_le hzerohi d) (quantize_le hlehi d)
    constructor
    · refine le_antisymm hbelow ?_
      rcases List.mem_cons.1 hlo with heq | hmem
      · rw [heq, hzero]
        exact min_le_left _ _
      · exact (min_le_right _ _).trans (quantize_le (hbetween' _ hmem).1 d)
    · refine le_antisymm ?_ habove
      rcases List.mem_cons.1 hhi with heq | hmem
      · rw [heq, hzero]
        exact le_max_left _ _
      · exact (quantize_le (hbetween' _ hmem).2 d).trans (le_max_right _ _)

/-- Samples that have zero between them. -/
def SpanZero (samples : List Sample) : Prop :=
  (∃ s ∈ numbers samples, s ≤ Binary.zero false) ∧ ∃ s ∈ numbers samples, Binary.zero false ≤ s

/-- Where there is no number, or zero lies between the samples, so it does between the stored
values. -/
theorem quantize_span_of_spanZero (d : Depth) (h : numbers samples = [] ∨ SpanZero samples) :
    d.quantize (span samples).1 ≤ 0 ∧ 0 ≤ d.quantize (span samples).2 := by
  have hzero := quantize_zero d
  rcases h with hnone | ⟨⟨s, hs, hle⟩, t, ht, hge⟩
  · rw [span_of_numbers_eq_nil hnone, hzero]
    exact ⟨le_rfl, le_rfl⟩
  · obtain ⟨-, -, hbetween⟩ := span_of_numbers_ne_nil (List.ne_nil_of_mem hs)
    rw [← hzero]
    exact ⟨(quantize_le (hbetween s hs).1 d).trans (quantize_le hle d),
      (quantize_le hge d).trans (quantize_le (hbetween t ht).2 d)⟩

end Sample

/-! ## Points of a file -/

namespace Settings

/-- The points of a file as they are stored, window by window. -/
def storedPoints (s : Settings) (bytes : List UInt8) : List (Int × Int) :=
  (Cut.whole s.depth.pointSize (bytes.drop s.headerSize)).map s.depth.decodePoint

theorem storedPoints_nil (s : Settings) : s.storedPoints [] = [] := by
  rw [storedPoints, List.drop_nil, Cut.whole_of_lt s.depth.pointSize_pos, List.map_nil]

/-- What is stored are the bounds of all windows. -/
theorem storedPoints_content (s : Settings) (l : Layout) (window count : Nat)
    (groups : List (List Frame)) :
    s.storedPoints (s.content l window count groups) =
      (groups.flatMap (s.pairs l.channels)).map fun pair =>
        (s.depth.quantize pair.1, s.depth.quantize pair.2) := by
  rw [storedPoints, drop_content,
    Cut.whole_flatMap s.depth.pointSize_pos (fun _ => Depth.length_encodePoint _ _ _),
    List.map_map]
  exact List.map_congr_left fun pair _ => s.depth.decodePoint_encodePoint pair.1 pair.2

/-- Each channel is drawn by the span of its samples, and of a zero if bounds start there. -/
theorem channelPeaks_eq_span (s : Settings) (frames : List Frame) (channel : Nat) :
    s.channelPeaks frames channel =
      Sample.span (s.anchor.lead ++ frames.filterMap (·[channel]?)) := by
  have hspans := Extrema.spans_initial s.anchor [.run (frames.filterMap (·[channel]?))]
  rw [List.flatMap_singleton] at hspans
  exact hspans.peaks_eq

/-- The settings with a point for each channel and an anchor. -/
def splitFrom (s : Settings) (anchor : Anchor) : Settings := { s with split := true, anchor }

/-- The stored point of a channel in a window, from bounds that start inverted. -/
def ownPoint (s : Settings) (frames : List Frame) (channel : Nat) : Int × Int :=
  let (lo, hi) := Sample.span (frames.filterMap (·[channel]?))
  (s.depth.quantize lo, s.depth.quantize hi)

/-- A stored point widened to zero. -/
def widen (point : Int × Int) : Int × Int := (min 0 point.1, max 0 point.2)

theorem storedPoints_extrema (s : Settings) (l : Layout) (window count : Nat)
    (groups : List (List Frame)) :
    (s.splitFrom .extrema).storedPoints ((s.splitFrom .extrema).content l window count groups) =
      groups.flatMap fun frames => (List.range l.channels).map (s.ownPoint frames) := by
  rw [storedPoints_content, List.map_flatMap]
  refine congrArg (groups.flatMap ·) (funext fun frames => ?_)
  rw [pairs, splitFrom, if_pos rfl, List.map_map]
  refine List.map_congr_left fun channel _ => ?_
  rw [Function.comp_apply, channelPeaks_eq_span]
  rfl

theorem storedPoints_zero (s : Settings) (l : Layout) (window count : Nat)
    (groups : List (List Frame)) :
    (s.splitFrom .zero).storedPoints ((s.splitFrom .zero).content l window count groups) =
      (groups.flatMap fun frames => (List.range l.channels).map (s.ownPoint frames)).map widen := by
  rw [storedPoints_content, List.map_flatMap, List.map_flatMap]
  refine congrArg (groups.flatMap ·) (funext fun frames => ?_)
  rw [pairs, splitFrom, if_pos rfl, List.map_map, List.map_map]
  refine List.map_congr_left fun channel _ => ?_
  rw [Function.comp_apply, channelPeaks_eq_span]
  obtain ⟨hlo, hhi⟩ := Sample.quantize_span_cons_zero s.depth (frames.filterMap (·[channel]?))
  exact Prod.ext hlo hhi

/-- The header does not depend on the anchor. -/
theorem header_content (s : Settings) (anchor anchor' : Anchor) (l : Layout)
    (window count : Nat) (groups : List (List Frame)) :
    ((s.splitFrom anchor).content l window count groups).take 24 =
        ((s.splitFrom anchor').content l window count groups).take 24 ∧
      ((s.splitFrom anchor).content l window count groups).length =
        ((s.splitFrom anchor').content l window count groups).length := by
  constructor
  · have hheader : ∀ anchor, ((s.splitFrom anchor).content l window count groups).take 24 =
        ((s.splitFrom .extrema).finishedHeader l window count).encode := fun anchor =>
      List.take_left' (Header.length_encode _)
    rw [hheader, hheader]
  · have hlength : ∀ anchor, ((s.splitFrom anchor).content l window count groups).length =
        24 + groups.length * (s.depth.pointSize * l.channels) := fun anchor => by
      rw [content, List.length_append, Header.length_encode,
        Cut.length_flatMap ((s.splitFrom anchor).length_points l.channels)]
      rfl
    rw [hlength, hlength]

end Settings

namespace Progress

/-- What is written, and for which channels. -/
theorem content_eq (p : Progress) :
    (p.groups = [] ∧ ∀ s, p.content s = []) ∨
      ∃ l window count, p.channels = l.channels ∧
        ∀ s, p.content s = s.content l window count p.groups := by
  cases p with
  | blank => exact .inl ⟨rfl, fun _ => rfl⟩
  | accepting l window frames => exact .inr ⟨l, window, 0, rfl, fun _ => rfl⟩
  | closed l window count groups => exact .inr ⟨l, window, count, rfl, fun _ => rfl⟩

end Progress

namespace Extraction

/-- **The two anchors, point by point.**  The same calls, any calls, to two extractions that
draw each channel by itself, one with bounds that start inverted and one with bounds that start
at zero, each towards a blank device that never fails, leave two files behind:

* they have the same header and the same length;
* each stored point of the second is that of the first, widened to zero;
* there is one point for each window and channel, and that of the first file is made from the
  samples of its channel in its window;
* a point is the same in both files if the channel has no numbers there, or if zero lies
  between them. -/
theorem points_of_anchors (s : Settings) {d d' : Device} (hd : d.Blank) (hr : d.Reliable)
    (hd' : d'.Blank) (hr' : d'.Reliable) (listening listening' : Bool) (calls : List Call) :
    let own := s.splitFrom .extrema
    let zero := s.splitFrom .zero
    let progress := Progress.ofCalls s calls
    let groups := progress.groups
    ∃ bytes bytes',
      bytesAfter own d listening calls = some bytes ∧
      bytesAfter zero d' listening' calls = some bytes' ∧
      bytes'.take zero.headerSize = bytes.take own.headerSize ∧ bytes'.length = bytes.length ∧
      zero.storedPoints bytes' =
        (own.storedPoints bytes).map (fun (lo, hi) => (min 0 lo, max 0 hi)) ∧
      (own.storedPoints bytes).length = groups.length * progress.channels ∧
      ∀ i (hi : i < groups.length), ∀ c < progress.channels,
        let samples := groups[i].filterMap (·[c]?)
        let point := s.ownPoint groups[i] c
        let place := i * progress.channels + c
        (own.storedPoints bytes)[place]? = some point ∧
          (zero.storedPoints bytes')[place]? = some (min 0 point.1, max 0 point.2) ∧
          (Sample.numbers samples = [] ∨ Sample.SpanZero samples →
            (zero.storedPoints bytes')[place]? = (own.storedPoints bytes)[place]?) := by
  intro own zero progress groups
  have hbytes := bytesAfter_of_reliable own hd hr listening calls
  have hbytes' := bytesAfter_of_reliable zero hd' hr' listening' calls
  rw [Progress.ofCalls_congr (s := own) (t := s) rfl] at hbytes
  rw [Progress.ofCalls_congr (s := zero) (t := s) rfl] at hbytes'
  refine ⟨_, _, hbytes, hbytes', ?_⟩
  rcases progress.content_eq with ⟨hnone, hcontent⟩ | ⟨l, window, count, hchannels, hcontent⟩
  · -- Without a layout nothing is written.
    have hgroups : groups = [] := hnone
    rw [hcontent, hcontent, own.storedPoints_nil, zero.storedPoints_nil, hgroups]
    exact ⟨rfl, rfl, rfl, (Nat.zero_mul _).symm, fun i hi => absurd hi (Nat.not_lt_zero i)⟩
  · obtain ⟨hheader, hlength⟩ := s.header_content .zero .extrema l window count groups
    have hown := s.storedPoints_extrema l window count groups
    have hzero := s.storedPoints_zero l window count groups
    have hcount : ∀ frames, ((List.range l.channels).map (s.ownPoint frames)).length =
        l.channels := fun frames => by rw [List.length_map, List.length_range]
    rw [hcontent, hcontent, hchannels]
    refine ⟨hheader, hlength, ?_, ?_, fun i hi c hc => ?_⟩
    · rw [hzero, hown]
      rfl
    · rw [hown, Cut.length_flatMap hcount]
    · intro samples point place
      have hpoint : ((s.splitFrom .extrema).storedPoints
          ((s.splitFrom .extrema).content l window count groups))[place]? = some point := by
        rw [hown, Cut.getElem?_flatMap hcount hi hc, List.getElem?_map,
          List.getElem?_range hc]
        rfl
      have hwidened : ((s.splitFrom .zero).storedPoints
          ((s.splitFrom .zero).content l window count groups))[place]? =
            some (min 0 point.1, max 0 point.2) := by
        rw [hzero, List.getElem?_map, ← hown, hpoint]
        rfl
      refine ⟨hpoint, hwidened, fun hspan => ?_⟩
      obtain ⟨hlo, hhi⟩ := Sample.quantize_span_of_spanZero s.depth hspan
      have hsame : (min 0 point.1, max 0 point.2) = point :=
        Prod.ext (min_eq_right hlo) (max_eq_right hhi)
      rw [hwidened, hpoint, hsame]

/-- Two channels, and two windows of two frames.  The first channel is above zero in the first
window, with one sample that is not a number, and its lower value is moved to zero; the second
is on both sides of it, and its point stays. -/
theorem points_of_anchors_stereo :
    let settings : Settings := ⟨Binary.ofNat _ 1, false, .eight, none, .zero⟩
    let sample (bits : Nat) : Sample := .ofBits _ bits
    let frames := [[0x3f000000, 0xbf800000], [0x7fc00000, 0x3f000000], [0xff800000, 0x7fc00000]].map
      (List.map sample)
    let calls := [Call.configure ⟨2, 2⟩ true (.error .noSpace),
      .push (.interleaved frames.flatten),
      .finalize]
    let own := settings.splitFrom .extrema
    let zero := settings.splitFrom .zero
    ∃ bytes bytes',
      bytesAfter own {} false calls = some bytes ∧
      bytesAfter zero {} true calls = some bytes' ∧
      own.storedPoints bytes = [(64, 64), (-127, 64), (-128, -128), (0, 0)] ∧
      zero.storedPoints bytes' = [(0, 64), (-127, 64), (-128, 0), (0, 0)] := by
  intro settings sample frames calls own zero
  have hr : Device.Reliable {} := ⟨by simp, rfl, rfl, by decide, rfl⟩
  obtain ⟨bytes, bytes', hbytes, hbytes', -, -, hwidened, -⟩ :=
    @points_of_anchors settings {} {} ⟨rfl, rfl, rfl⟩ hr ⟨rfl, rfl, rfl⟩ hr false true calls
  have hpoints : (bytesAfter own {} false calls).map own.storedPoints =
      some [(64, 64), (-127, 64), (-128, -128), (0, 0)] := by
    decide +kernel
  have hcontent : bytesAfter own {} false calls = some bytes := hbytes
  rw [hcontent] at hpoints
  have hown : own.storedPoints bytes = _ := Option.some.inj hpoints
  rw [hown] at hwidened
  exact ⟨bytes, bytes', hbytes, hbytes', hown, hwidened⟩

end Extraction

end Peakfile
