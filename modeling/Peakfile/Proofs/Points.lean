/-
# Points are ordered, and do not clip

A point is made from two bounds: the peaks of one channel, or the means of the peaks of all
channels.  The lower one lies under the upper one in the sense of `Sample.Under`, whatever
the samples are, and both are of at most full volume if all samples are
(`Settings.under_of_mem_pairs`, `Settings.within_of_mem_pairs`).  As what a device holds is
a header and points, with a count that may stand in the header, this is true of the points
that are read back from it (`Extraction.points_ordered`).
-/
import Peakfile.Proofs.CountWord
import Peakfile.Proofs.Extremes
import Peakfile.Proofs.Volume

namespace Peakfile

open BinaryFormat (single)

/-! ## Running extrema -/

/-- A sample between -1 and 1, unless it is not a number. -/
def Sample.InRange (s : Sample) : Prop :=
  s.isNaN = false → -Binary.ofNat single 1 ≤ s ∧ s ≤ Binary.ofNat single 1

instance (s : Sample) : Decidable s.InRange :=
  inferInstanceAs (Decidable (_ → _))

namespace Extrema

variable {e : Extrema} {s : Sample}

/-- Bounds that are numbers or infinities. -/
structure Numbers (e : Extrema) : Prop where
  lo : e.lo.isNaN = false
  hi : e.hi.isNaN = false

theorem Numbers.add (h : e.Numbers) (s : Sample) : (e.add s).Numbers := by
  constructor
  · rw [Extrema.add]
    dsimp only
    split_ifs with hlo
    · exact hlo.1
    · exact h.lo
  · rw [Extrema.add]
    dsimp only
    split_ifs with hhi
    · exact hhi.2.1
    · exact h.hi

theorem Numbers.addAll (h : e.Numbers) (samples : List Sample) : (e.addAll samples).Numbers := by
  induction samples generalizing e with
  | nil => exact h
  | cons s samples ih => exact ih (h.add s)

theorem numbers_initial (anchor : Anchor) : anchor.initial.Numbers := by
  cases anchor
  · exact ⟨by decide, by decide⟩
  · exact ⟨rfl, rfl⟩

/-- Peaks stand in order. -/
theorem Numbers.peaks_le (h : e.Numbers) : e.peaks.1 ≤ e.peaks.2 := by
  rw [peaks]
  split_ifs with hempty
  · exact ⟨rfl, rfl, le_rfl⟩
  · refine ⟨h.lo, h.hi, ?_⟩
    by_contra hlt
    refine hempty (decide_eq_true ?_)
    exact ⟨h.hi, h.lo, Int.not_le.1 hlt⟩

/-- Bounds of at most full volume, or those before the first sample. -/
def Bounded (e : Extrema) : Prop := e = inverted ∨ e.lo.Within 1 ∧ e.hi.Within 1

theorem Bounded.add (h : e.Bounded) (hs : s.InRange) : (e.add s).Bounded := by
  rcases hnan : s.isNaN with _ | _
  · obtain ⟨hlo, hhi⟩ := hs hnan
    have hwithin : s.Within 1 := Sample.within_one hlo hhi
    rcases h with rfl | ⟨hlo, hhi⟩
    · -- The first number sets both bounds.
      have hfinite := hwithin.isFinite (by decide)
      have hbelow : s < inverted.lo := ⟨hnan, by decide, hfinite.below⟩
      have habove : inverted.hi < s := ⟨by decide, hnan, hfinite.above⟩
      rw [Extrema.add, if_pos hbelow, if_pos habove]
      exact .inr ⟨hwithin, hwithin⟩
    · right
      rw [Extrema.add]
      constructor
      · dsimp only
        split_ifs
        · exact hwithin
        · exact hlo
      · dsimp only
        split_ifs
        · exact hwithin
        · exact hhi
  · rw [add_of_isNaN hnan]
    exact h

theorem Bounded.addAll (h : e.Bounded) {samples : List Sample}
    (hsamples : ∀ s ∈ samples, s.InRange) : (e.addAll samples).Bounded := by
  induction samples generalizing e with
  | nil => exact h
  | cons s samples ih =>
    refine ih (h.add (hsamples s List.mem_cons_self)) fun t ht => ?_
    exact hsamples t (List.mem_cons_of_mem _ ht)

theorem bounded_initial (anchor : Anchor) : anchor.initial.Bounded := by
  have hzero := (Sample.within_zero false).mono (Nat.zero_le 1)
  cases anchor
  · exact .inl rfl
  · exact .inr ⟨hzero, hzero⟩

theorem Bounded.peaks (h : e.Bounded) : e.peaks.1.Within 1 ∧ e.peaks.2.Within 1 := by
  have hzero := (Sample.within_zero false).mono (Nat.zero_le 1)
  rw [Extrema.peaks]
  rcases h with rfl | hwithin
  · rw [if_pos (by decide)]
    exact ⟨hzero, hzero⟩
  · split_ifs
    · exact ⟨hzero, hzero⟩
    · exact hwithin

end Extrema

/-! ## The bounds that points are made from -/

namespace Settings

variable {s : Settings} {channels : Nat} {frames : List Frame} {pair : Sample × Sample}

theorem channelPeaks_le (s : Settings) (frames : List Frame) (channel : Nat) :
    (s.channelPeaks frames channel).1 ≤ (s.channelPeaks frames channel).2 :=
  ((Extrema.numbers_initial s.anchor).addAll _).peaks_le

/-- **Lower bounds lie under upper bounds**, whatever the samples are. -/
theorem under_of_mem_pairs (hpos : 0 < channels) (hlt : channels < UInt32.size)
    (h : pair ∈ s.pairs channels frames) : pair.1.Under pair.2 := by
  have hpeaks : ∀ peak ∈ (List.range channels).map (s.channelPeaks frames), peak.1 ≤ peak.2 := by
    intro peak hpeak
    obtain ⟨channel, -, rfl⟩ := List.mem_map.1 hpeak
    exact s.channelPeaks_le frames channel
  rw [pairs] at h
  split_ifs at h
  · exact .of_le (hpeaks pair h)
  · obtain rfl := List.mem_singleton.1 h
    obtain ⟨hfinite, hpositive⟩ := Sample.ofNat_positive hpos hlt
    have hzero : Sample.Under (Binary.zero false) (Binary.zero false) := .of_le ⟨rfl, rfl, le_rfl⟩
    exact (hzero.foldl_add hpeaks).scale (Sample.scaling_div hfinite hpositive)

/-- **Bounds are of at most full volume** if all samples are. -/
theorem within_of_mem_pairs (hpos : 0 < channels) (hlt : channels < UInt32.size)
    (hframes : ∀ frame ∈ frames, ∀ sample ∈ frame, sample.InRange)
    (h : pair ∈ s.pairs channels frames) : pair.1.Within 1 ∧ pair.2.Within 1 := by
  have hpeaks : ∀ peak ∈ (List.range channels).map (s.channelPeaks frames),
      peak.1.Within 1 ∧ peak.2.Within 1 := by
    intro peak hpeak
    obtain ⟨channel, -, rfl⟩ := List.mem_map.1 hpeak
    refine ((Extrema.bounded_initial s.anchor).addAll fun sample hsample => ?_).peaks
    obtain ⟨frame, hframe, hget⟩ := List.mem_filterMap.1 hsample
    exact hframes frame hframe sample (List.mem_of_getElem? hget)
  rw [pairs] at h
  split_ifs at h
  · exact hpeaks pair h
  · obtain rfl := List.mem_singleton.1 h
    have hmean : ∀ bound : Sample × Sample → Sample,
        (∀ peak ∈ (List.range channels).map (s.channelPeaks frames), (bound peak).Within 1) →
        (average channels (((List.range channels).map (s.channelPeaks frames)).map bound)).Within
          1 := by
      intro bound hbound
      have hlength : (((List.range channels).map (s.channelPeaks frames)).map bound).length =
          channels := by
        rw [List.length_map, List.length_map, List.length_range]
      have hmean := Sample.within_mean (hlength.symm ▸ hpos) (hlength.symm ▸ hlt)
        (List.forall_mem_map.2 hbound)
      rw [hlength] at hmean
      exact hmean
    constructor
    · exact hmean Prod.fst fun peak hpeak => (hpeaks peak hpeak).1
    · exact hmean Prod.snd fun peak hpeak => (hpeaks peak hpeak).2

end Settings

/-! ## Reading points back -/

namespace Depth

/-- The value that bytes stand for, in two's complement. -/
def decodeValue (d : Depth) (bytes : List UInt8) : Int :=
  let value := LittleEndian.decode bytes
  if value ≤ d.top then value else (value : Int) - Int.pow 256 d.bytes

/-- The lower and the upper value of a point. -/
def decodePoint (d : Depth) (bytes : List UInt8) : Int × Int :=
  (d.decodeValue (bytes.take d.bytes), d.decodeValue (bytes.drop d.bytes))

/-- A stored value is read back. -/
theorem decodeValue_encodeValue (d : Depth) (s : Sample) :
    d.decodeValue (d.encodeValue s) = d.quantize s := by
  have hleast : -(d.top : Int) - 1 ≤ d.quantize s :=
    (Sample.toIntWithin_bounds (by omega) (by omega) _).1
  have hmost : d.quantize s ≤ d.top := (Sample.toIntWithin_bounds (by omega) (by omega) _).2
  have hround : Int.pow 256 d.bytes = 2 * ((d.top : Int) + 1) := by cases d <;> rfl
  have hsize : Nat.pow 256 d.bytes = 2 * (d.top + 1) := by cases d <;> rfl
  rw [decodeValue, encodeValue, hround]
  generalize d.quantize s = q at hleast hmost
  by_cases hq : 0 ≤ q
  · rw [Int.emod_eq_of_lt hq (by omega), LittleEndian.decode_encode _ _ (by rw [hsize]; omega),
      if_pos (by omega)]
    omega
  · -- A negative value is stored as what it lacks to the next power.
    have hwrap : q % (2 * ((d.top : Int) + 1)) = q + 2 * (d.top + 1) := by
      rw [← Int.add_emod_right, Int.emod_eq_of_lt (by omega) (by omega)]
    rw [hwrap, LittleEndian.decode_encode _ _ (by rw [hsize]; omega), if_neg (by omega)]
    omega

/-- A point is read back. -/
theorem decodePoint_encodePoint (d : Depth) (lo hi : Sample) :
    d.decodePoint (d.encodePoint lo hi) = (d.quantize lo, d.quantize hi) := by
  have hlength : (d.encodeValue lo).length = d.bytes := LittleEndian.length_encode _ _
  rw [decodePoint, encodePoint, List.take_left' hlength, List.drop_left' hlength,
    decodeValue_encodeValue, decodeValue_encodeValue]

theorem pointSize_pos (d : Depth) : 0 < d.pointSize := by
  cases d <;> decide

end Depth

/-! ## The points of an intake -/

/-- Bytes of the header of a file. -/
def Settings.headerSize (s : Settings) : Nat := if s.split then 24 else 20

/-- Behind the header there are the points of all groups. -/
theorem Settings.drop_content (s : Settings) (l : Layout) (window count : Nat)
    (groups : List (List Frame)) :
    (s.content l window count groups).drop s.headerSize =
      (groups.flatMap (s.pairs l.channels)).flatMap fun pair =>
        s.depth.encodePoint pair.1 pair.2 := by
  rw [Settings.content, List.flatMap_assoc]
  refine List.drop_left' ?_
  rw [Header.length_encode, Header.size, headerSize]
  cases s.split <;> rfl

namespace Intake

variable {i : Intake} {s : Settings} {window : Nat}

theorem mem_of_mem_groups {group : List Frame} {frame : Frame} (hgroup : group ∈ i.groups window)
    (hframe : frame ∈ group) : frame ∈ i.frames := by
  refine Cut.mem_of_mem_all (n := window) ?_ hframe
  rw [groups] at hgroup
  split_ifs at hgroup
  · exact hgroup
  · exact List.mem_append_left _ hgroup

/-- The pairs of bounds that the points of all windows are made from. -/
def pairs (s : Settings) (i : Intake) : List (Sample × Sample) :=
  match i.layout with
  | none => []
  | some l =>
    match s.windowFrames l.rate with
    | .error _ => []
    | .ok window => (i.groups window).flatMap (s.pairs l.channels)

/-- Behind the header there is a point for each pair of bounds. -/
theorem drop_content (s : Settings) (i : Intake) :
    (i.content s).drop s.headerSize =
      (i.pairs s).flatMap fun pair => s.depth.encodePoint pair.1 pair.2 := by
  rw [content, pairs]
  rcases i.layout with _ | l
  · exact List.drop_nil
  · dsimp only
    rcases s.windowFrames l.rate with cause | window
    · exact List.drop_nil
    · exact s.drop_content l window 0 (i.groups window)

/-- Every pair of bounds is made from frames of the intake. -/
theorem mem_pairs {pair : Sample × Sample} (h : pair ∈ i.pairs s) :
    ∃ l group, i.layout = some l ∧ (∀ frame ∈ group, frame ∈ i.frames) ∧
      pair ∈ s.pairs l.channels group := by
  rw [pairs] at h
  rcases hl : i.layout with _ | l
  · rw [hl] at h
    cases h
  · rw [hl] at h
    dsimp only at h
    rcases hw : s.windowFrames l.rate with cause | window
    · rw [hw] at h
      cases h
    · rw [hw] at h
      obtain ⟨group, hgroup, hpair⟩ := List.mem_flatMap.1 h
      exact ⟨l, group, rfl, fun frame hframe => mem_of_mem_groups hgroup hframe, hpair⟩

end Intake

namespace Extraction

/-- A layout that is not refused passes its check. -/
theorem check_of_configure {x : Extraction} {l : Layout} {granted : Bool}
    {created : Except StorageError Device}
    (hc : (x.call (.configure l granted created)).1.isRefusal = false) : l.check = .ok () := by
  have hstate : x.state = .unconfigured := state_eq_turn hc
  have hstage : x.stage = .unconfigured := by
    rcases hstage : x.stage with _ | _ | _ | _
    · rfl
    all_goals
      rw [state, hstage] at hstate
      cases hstate
  rcases ho : x.opening l granted with cause | start
  · have hrefused := Error.isRefusal_of_isValidation (isValidation_of_opening ho)
    have heq : x.configure l granted created = (.error cause, x) := by
      unfold configure
      rw [hstage]
      dsimp only
      rw [ho]
    rw [call, heq] at hc
    exact absurd hc (by simp [Answer.isRefusal, Except.map, hrefused])
  · exact (check_of_opening ho).1

/-- The layout of an intake passes its check. -/
theorem check_of_kept {x : Extraction} (hx : x.Sound) {i : Intake}
    (hi : ∀ l, i.layout = some l → l.check = .ok ()) (calls : List Call) :
    ∀ l, ((x.kept calls).foldl (fun i entry => i.add entry.1) i).layout = some l →
      l.check = .ok () := by
  induction calls generalizing x i with
  | nil => exact hi
  | cons c calls ih =>
    have hstep := stepped_call hx c
    rcases hc : (x.call c).1.isRefusal
    · rw [kept_cons hc, List.foldl_cons]
      refine ih hstep.sound ?_
      cases c with
      | configure l granted created =>
        intro l' hl'
        obtain rfl : l = l' := Option.some.inj hl'
        exact check_of_configure hc
      | push b => exact hi
      | finalize => exact hi
    · rw [kept_cons_of_refusal hx hc]
      exact ih hx hi

/-- **Points are ordered, and do not clip.**  After any calls to an extraction towards a blank
device that may fail at any call made to it, every point that the device has as a whole has
a lower value that is no larger than its upper value.  If all samples that are numbers are
between -1 and 1, neither is beyond the values of full volume. -/
theorem points_ordered (s : Settings) {d : Device} (hd : d.Blank) (listening : Bool)
    (calls : List Call) :
    let x := toward s (.device d) listening
    ∃ device, (x.after calls).outlet.draft.device = some device ∧
      ∀ point ∈ Cut.whole s.depth.pointSize (device.content.drop s.headerSize),
        let (lo, hi) := s.depth.decodePoint point
        lo ≤ hi ∧
          ((∀ frame ∈ (x.intake calls).frames, ∀ sample ∈ frame, sample.InRange) →
            -(s.depth.top : Int) ≤ lo ∧ hi ≤ s.depth.top) := by
  intro x
  have hx : x.Sound := sound_toward s (.device d) listening
  have htracks : Tracks s (x.intake calls) (x.after calls) := by
    refine Tracks.after hx ?_ calls
    exact ⟨rfl, d, listening, hd, rfl⟩
  have hcheck : ∀ l, (x.intake calls).layout = some l → l.check = .ok () :=
    check_of_kept hx (fun l hl => by cases hl) calls
  obtain ⟨device, hdevice, hcontent⟩ := htracks.content
  have hpayload : device.content.drop s.headerSize <+:
      ((x.intake calls).pairs s).flatMap fun pair => s.depth.encodePoint pair.1 pair.2 := by
    rw [← Intake.drop_content]
    rcases hcontent with ⟨hfront, -⟩ | ⟨-, htaken, -, hcontent⟩
    · exact hfront.drop _
    · -- The count lies inside the header.
      have hlength := htaken.length_le
      rw [LittleEndian.length_encode] at hlength
      have hinside : Header.countOffset + device.takenSinceQuery.length ≤ s.headerSize := by
        rw [Settings.headerSize, Header.countOffset]
        split_ifs <;> omega
      rw [hcontent, drop_overwrite _ hinside]
  refine ⟨device, hdevice, fun point hpoint => ?_⟩
  obtain ⟨pair, hpair, rfl⟩ := Cut.mem_whole_flatMap s.depth.pointSize_pos
    (fun _ => Depth.length_encodePoint _ _ _) hpayload point hpoint
  rw [Depth.decodePoint_encodePoint]
  obtain ⟨l, group, hl, hgroup, hpair⟩ := Intake.mem_pairs hpair
  obtain ⟨hpos, hlt⟩ := Layout.channels_of_check (hcheck l hl)
  constructor
  · exact (Settings.under_of_mem_pairs hpos hlt hpair).quantize_le s.depth
  · intro hframes
    obtain ⟨hlo, hhi⟩ := Settings.within_of_mem_pairs hpos hlt
      (fun frame hframe => hframes frame (hgroup frame hframe)) hpair
    exact ⟨(hlo.quantize s.depth).1, (hhi.quantize s.depth).2⟩

/-- Two channels, their means, and a window of two frames.  One sample is not a number, and
the others are at full volume: the lower value is that of full volume, and does not clip. -/
theorem points_ordered_full :
    let settings : Settings := ⟨Binary.ofNat _ 1, false, .eight, none, .extrema⟩
    let sample (bits : Nat) : Sample := .ofBits _ bits
    let calls := [Call.configure ⟨2, 2⟩ true (.error .noSpace),
      .push (.interleaved [sample 0x7fc00000, sample 0x3f800000]),
      .push (.interleaved [sample 0xbf800000, sample 0xbf800000])]
    ∃ device, ((toward settings (.device {}) false).after calls).outlet.draft.device =
        some device ∧
      Cut.whole 2 (device.content.drop 20) = [[129, 0]] ∧
      -127 ≤ (Depth.decodePoint .eight [129, 0]).1 ∧
      (Depth.decodePoint .eight [129, 0]).1 ≤ (Depth.decodePoint .eight [129, 0]).2 := by
  intro settings sample calls
  have hcontent : ((toward settings (.device {}) false).after calls).outlet.draft.device.map
      (fun device => Cut.whole 2 (device.content.drop 20)) = some [[129, 0]] := by
    decide +kernel
  have hrange : ∀ frame ∈ ((toward settings (.device {}) false).intake calls).frames,
      ∀ sample ∈ frame, sample.InRange := by
    decide +kernel
  obtain ⟨device, hdevice, hpoints⟩ :=
    points_ordered settings (d := {}) ⟨rfl, rfl, rfl⟩ false calls
  rw [hdevice] at hcontent
  have hwhole : Cut.whole 2 (device.content.drop 20) = [[129, 0]] := Option.some.inj hcontent
  obtain ⟨hle, hfull⟩ := hpoints [129, 0] (by
    show [129, 0] ∈ Cut.whole 2 (device.content.drop 20)
    rw [hwhole]
    exact List.mem_singleton_self _)
  exact ⟨device, hdevice, hwhole, (hfull hrange).1, hle⟩

end Extraction

end Peakfile
