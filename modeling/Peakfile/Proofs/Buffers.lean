/-
# Buffers of any layout and size

The same frames may be laid out in planes or back to back, and may come in one buffer or
in several.  Both layouts hold the same frames (`SampleBuffer.frames_of_mem_layouts`), and
frames are added one by one, so that a refusal by the receiver stops every one of these
runs at the same frame, with the same window open behind it.
-/
import Peakfile.Proofs.Windowing

namespace Peakfile

/-! ## The two layouts of frames -/

namespace SampleBuffer

/-- The frames plane by plane. -/
def ofPlanes (channels : Nat) (frames : List Frame) : SampleBuffer :=
  .planar ((List.range channels).map fun c => frames.map (·.getD c (Binary.zero false)))
    frames.length

/-- The frames back to back. -/
def ofFrames (frames : List Frame) : SampleBuffer := .interleaved frames.flatten

/-- The buffers that the frames may be laid out in. -/
def layouts (channels : Nat) (frames : List Frame) : List SampleBuffer :=
  [ofPlanes channels frames, ofFrames frames]

/-- Frames taken from the planes of frames are these frames. -/
theorem frames_ofPlanes {channels : Nat} {frames : List Frame}
    (h : ∀ frame ∈ frames, frame.length = channels) :
    (ofPlanes channels frames).frames channels = frames := by
  refine List.ext_getElem (by simp [ofPlanes, SampleBuffer.frames]) fun i _ hi => ?_
  have hlong : ∀ plane ∈ (List.range channels).map
      fun c => frames.map (·.getD c (Binary.zero false)), i < plane.length := by
    intro plane hp
    obtain ⟨c, -, rfl⟩ := List.mem_map.1 hp
    rw [List.length_map]
    exact hi
  have hlength : frames[i].length = channels := h _ (List.getElem_mem hi)
  simp only [ofPlanes, SampleBuffer.frames, columns, List.getElem_map, List.getElem_range]
  rw [filterMap_getElem?_eq_map hlong, List.map_map]
  refine List.ext_getElem (by simp [hlength]) fun c _ hc => ?_
  simp [hi, hc]

/-- Frames back to back are cut into these frames again. -/
theorem whole_flatten {channels : Nat} (hc : 0 < channels) {frames : List Frame}
    (h : ∀ frame ∈ frames, frame.length = channels) :
    Cut.whole channels frames.flatten = frames := by
  induction frames with
  | nil => exact Cut.whole_of_lt hc
  | cons frame frames ih =>
    rw [List.flatten_cons, Cut.whole_group_append hc (h frame (by simp)),
      ih fun f hf => h f (by simp [hf])]

/-- Either layout holds the frames. -/
theorem frames_of_mem_layouts {channels : Nat} (hc : 0 < channels) {frames : List Frame}
    (h : ∀ frame ∈ frames, frame.length = channels) {b : SampleBuffer}
    (hb : b ∈ layouts channels frames) : b.Fits channels ∧ b.frames channels = frames := by
  rcases List.mem_pair.1 hb with rfl | rfl
  · refine ⟨⟨by simp, ?_⟩, frames_ofPlanes h⟩
    intro plane hp
    obtain ⟨c, -, rfl⟩ := List.mem_map.1 hp
    exact (List.length_map _).ge
  · refine ⟨⟨hc, ?_⟩, whole_flatten hc h⟩
    rw [List.length_flatten]
    refine List.dvd_sum fun n hn => ?_
    obtain ⟨frame, hframe, rfl⟩ := List.mem_map.1 hn
    rw [h frame hframe]

end SampleBuffer

/-! ## Consuming them -/

@[simp] theorem ChannelExtrema.channels_addFrame (c : ChannelExtrema) (frame : Frame) :
    (c.addFrame frame).channels = c.channels := by
  simp only [channels, addFrame, List.length_append, List.length_zipWith, List.length_drop]
  omega

namespace Windower

variable {σ : Type} (receive : Receiver σ)

/-- Frames leave the number of channels as it is. -/
theorem channels_addFrames (w : Windower) (frames : List Frame) (s : σ) :
    (addFrames receive w frames s).2.1.channels = w.channels := by
  induction frames generalizing w s with
  | nil => rfl
  | cons frame frames ih =>
    have hstep := channels_advance receive w (w.current.addFrame frame) 1 s
    rw [ChannelExtrema.channels_addFrame] at hstep
    rw [addFrames]
    rcases hadvance : advance receive w (w.current.addFrame frame) 1 s with ⟨_ | _, w', s'⟩
    · rw [hadvance] at hstep
      exact hstep
    · rw [hadvance] at hstep
      exact (ih w' s').trans hstep

/-- A buffer of either layout is consumed by adding its frames. -/
theorem consume_of_mem_layouts {w : Windower} (hc : 0 < w.channels) {frames : List Frame}
    (h : ∀ frame ∈ frames, frame.length = w.channels) {b : SampleBuffer}
    (hb : b ∈ SampleBuffer.layouts w.channels frames) (s : σ) :
    w.consume receive b s = w.addFrames receive frames s := by
  obtain ⟨hfits, hframes⟩ := SampleBuffer.frames_of_mem_layouts hc h hb
  rw [consume_eq, (fault?_eq_none_iff w b).2 hfits, hframes]

/-- **Buffers of any layout and size.**  For a windower of any channels in any state, with
a receiver that may refuse any window, depending on its state and the window:

* frames are consumed alike from their planes and back to back: the answer, the windower
  left and the receiver's state are the same, also when a window was refused on the way;
* frames may be split anywhere, with either layout for the whole and for each part: the
  second part is consumed only if the first was taken. -/
theorem consume_layouts_append {w : Windower} (hc : 0 < w.channels) {first second : List Frame}
    (hfirst : ∀ frame ∈ first, frame.length = w.channels)
    (hsecond : ∀ frame ∈ second, frame.length = w.channels) (s : σ) :
    (∀ a ∈ SampleBuffer.layouts w.channels first, ∀ b ∈ SampleBuffer.layouts w.channels first,
        w.consume receive a s = w.consume receive b s) ∧
      ∀ whole ∈ SampleBuffer.layouts w.channels (first ++ second),
        ∀ a ∈ SampleBuffer.layouts w.channels first,
          ∀ b ∈ SampleBuffer.layouts w.channels second,
            w.consume receive whole s =
              match w.consume receive a s with
              | (.ok (), w', s') => w'.consume receive b s'
              | stopped => stopped := by
  constructor
  · intro a ha b hb
    rw [consume_of_mem_layouts receive hc hfirst ha, consume_of_mem_layouts receive hc hfirst hb]
  · intro whole hwhole a ha b hb
    have hboth : ∀ frame ∈ first ++ second, frame.length = w.channels := by
      intro frame hframe
      exact (List.mem_append.1 hframe).elim (hfirst frame) (hsecond frame)
    have hchannels := channels_addFrames receive w first s
    rw [consume_of_mem_layouts receive hc hboth hwhole, addFrames_append,
      consume_of_mem_layouts receive hc hfirst ha]
    rcases hr : addFrames receive w first s with ⟨_ | _, w', s'⟩
    · rfl
    · -- The second part meets a windower with as many channels as the first.
      replace hchannels : w'.channels = w.channels := by
        rw [hr] at hchannels
        exact hchannels
      rw [← hchannels] at hc hsecond hb
      exact (consume_of_mem_layouts receive hc hsecond hb s').symm

/-- Two channels and windows of two frames, with a receiver that refuses its second window.
Three frames in planes and two more back to back are consumed as all five in planes: the
fourth fills the refused window, and the fifth is left alone. -/
theorem consume_layouts_append_refused :
    let half : Sample := .ofBits _ 0x3f000000
    let one : Sample := .ofBits _ 0x3f800000
    let receive : Receiver (List (List Extrema)) := fun extrema seen =>
      (if seen.length = 1 then .error .tooManyWindows else .ok (), seen ++ [extrema])
    let w := start (.fresh 2 .extrema) 2 (by decide)
    let first : List Frame := [[half, one], [one, half], [half, half]]
    let second : List Frame := [[one, one], [half, one]]
    let result := w.consume receive (.ofPlanes 2 (first ++ second)) []
    result.1 = .error .tooManyWindows ∧ result.2.1.filled = 0 ∧ result.2.1.frames = 4 ∧
      result.2.2 = [[⟨half, one⟩, ⟨half, one⟩], [⟨half, one⟩, ⟨half, one⟩]] := by
  intro half one receive w first second
  have hfirst : ∀ frame ∈ first, frame.length = w.channels := by decide
  have hsecond : ∀ frame ∈ second, frame.length = w.channels := by decide
  obtain ⟨-, hsplit⟩ := consume_layouts_append receive (w := w) (by decide) hfirst hsecond []
  have hwhole := hsplit (.ofPlanes 2 (first ++ second)) (List.mem_pair.2 (.inl rfl))
    (.ofPlanes 2 first) (List.mem_pair.2 (.inl rfl)) (.ofFrames second)
    (List.mem_pair.2 (.inr rfl))
  rw [hwhole]
  decide +kernel

end Windower

end Peakfile
