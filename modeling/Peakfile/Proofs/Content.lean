/-
# What a peak file holds

`Settings.content` says what the bytes of a peak file are, in terms of groups of frames
alone.  While frames are accepted, the draft holds a header that counts no windows and the
points of the full windows of all frames so far, and the open window holds what these
leave over (`Feeding`).  For each kind of call there are two laws: on any device the call
keeps this relation or leaves the draft short of it, and on a reliable one it succeeds.
-/
import Peakfile.Proofs.Lifecycle
import Peakfile.Proofs.Drafts

namespace Peakfile

/-! ## Points of frames -/

namespace Settings

/-- The peaks of one channel over frames: the bounds of its samples, added in order. -/
def channelPeaks (s : Settings) (frames : List Frame) (channel : Nat) : Sample × Sample :=
  (s.anchor.initial.addAll (frames.filterMap (·[channel]?))).peaks

/-- The average of a bound over the channels: its sum from zero in the order of the channels,
divided by their number. -/
def average (channels : Nat) (bounds : List Sample) : Sample :=
  bounds.foldl (· + ·) (Binary.zero false) / Binary.ofNat _ channels

/-- The pairs of samples that the points of a window with the given frames keep: the peaks of
each channel in order, or the averages of both bounds over the channels. -/
def pairs (s : Settings) (channels : Nat) (frames : List Frame) : List (Sample × Sample) :=
  let peaks := (List.range channels).map (s.channelPeaks frames)
  if s.split then peaks
  else [(average channels (peaks.map Prod.fst), average channels (peaks.map Prod.snd))]

/-- The points of a window with the given frames, one for each pair. -/
def points (s : Settings) (channels : Nat) (frames : List Frame) : List UInt8 :=
  (s.pairs channels frames).flatMap fun pair => s.depth.encodePoint pair.1 pair.2

/-- The bytes of a peak file: its header with a count, and the points of each group of
frames in order. -/
def content (s : Settings) (l : Layout) (window count : Nat) (groups : List (List Frame)) :
    List UInt8 :=
  let header : Header :=
    { depth := s.depth
      sampleRate := l.rate
      windowFrames := .ofNat window
      windows := .ofNat count
      channels := if s.split then some (.ofNat l.channels) else none }
  header.encode ++ groups.flatMap (s.points l.channels)

/-- What is encoded of a window are the points of its frames. -/
theorem encodeWindow_ofFrames (s : Settings) (channels : Nat) (frames : List Frame) :
    s.encodeWindow (ChannelExtrema.ofFrames s.anchor channels frames).extrema =
      s.points channels frames := by
  simp only [encodeWindow, points, pairs, average, ChannelExtrema.ofFrames, List.map_map, mean,
    List.length_map, List.length_range]
  split_ifs
  · rfl
  · rw [List.flatMap_singleton]
    rfl

/-- What is encoded of windows are the points of their groups. -/
theorem flatMap_encodeWindow_bounds (s : Settings) (channels : Nat) (groups : List (List Frame)) :
    (Windower.bounds s.anchor channels groups).flatMap s.encodeWindow =
      groups.flatMap (s.points channels) := by
  rw [Windower.bounds, List.flatMap_map]
  simp only [encodeWindow_ofFrames]

/-- The count lies inside the bytes. -/
theorem countOffset_le_content (s : Settings) (l : Layout) (window count : Nat)
    (groups : List (List Frame)) :
    Header.countOffset ≤ (s.content l window count groups).length := by
  rw [content, List.length_append]
  exact (Header.countOffset_le _).trans (Nat.le_add_right _ _)

/-- The count takes the same room whatever it is. -/
theorem length_content (s : Settings) (l : Layout) (window first second : Nat)
    (groups : List (List Frame)) :
    (s.content l window first groups).length = (s.content l window second groups).length := by
  simp only [content, List.length_append, Header.length_encode, Header.size]

/-- More groups put more bytes at the end. -/
theorem content_append (s : Settings) (l : Layout) (window count : Nat)
    (first second : List (List Frame)) :
    s.content l window count (first ++ second) =
      s.content l window count first ++ second.flatMap (s.points l.channels) := by
  simp only [content, List.flatMap_append, List.append_assoc]

end Settings

/-! ## Windower and draft together -/

/-- A windower and an outlet have come as far as the frames say: the draft holds the full
windows of all frames, and the open window what is left of them. -/
structure Feeding (s : Settings) (l : Layout) (window : Nat) (frames : List Frame)
    (w : Windower) (o : Outlet) : Prop where
  window_eq : w.window = window
  held : w.Holds s.anchor l.channels (Cut.rest window frames)
  frames_eq : w.frames = frames.length
  draft : o.draft.Holds (s.content l window 0 (Cut.whole window frames))
    (Cut.whole window frames).length

namespace Feeding

variable {s : Settings} {l : Layout} {window : Nat} {frames more : List Frame} {w : Windower}
  {o : Outlet}

theorem window_pos (h : Feeding s l window frames w o) : 0 < window :=
  h.window_eq ▸ Nat.zero_lt_of_lt w.filled_lt

/-- Before the first frame there is only the header. -/
theorem start (hw : 0 < window) (h : o.draft.Holds (s.content l window 0 []) 0) :
    Feeding s l window [] (.start (.fresh l.channels s.anchor) window hw) o where
  window_eq := rfl
  held := by
    rw [Cut.rest_of_lt (by simpa using hw)]
    exact Windower.holds_start s.anchor l.channels hw
  frames_eq := rfl
  draft := by
    rw [Cut.whole_of_lt (by simpa using hw)]
    exact h

/-- Frames that are added come as far as their full windows, or leave the draft short of
these. -/
theorem addFrames (h : Feeding s l window frames w o)
    (hmore : ∀ frame ∈ more, frame.length = l.channels) :
    let r := w.addFrames (Outlet.receive s) more o
    (r.1 = .ok () ∧ Feeding s l window (frames ++ more) r.2.1 r.2.2) ∨
      ∃ e, r.1 = .error e ∧
        r.2.2.draft.Short (s.content l window 0 (Cut.whole window (frames ++ more))) := by
  obtain ⟨w', heq, hwindow, hok⟩ := Windower.addFrames_cases (Outlet.receive s) h.held hmore o
  rw [h.window_eq] at heq hwindow hok
  -- The full windows of all frames are those before and those that the new frames fill.
  have hwhole := Cut.whole_append h.window_pos frames more
  have hdraft := Outlet.handOver_of_holds s h.draft
    (Windower.bounds s.anchor l.channels (Cut.whole window (Cut.rest window frames ++ more)))
  dsimp only at hdraft ⊢
  rw [s.flatMap_encodeWindow_bounds, ← s.content_append, Windower.length_bounds,
    ← List.length_append, ← hwhole] at hdraft
  rw [heq]
  rcases hdraft with ⟨hr, hholds⟩ | ⟨e, hr, hshort⟩
  · obtain ⟨hheld, hframes⟩ := hok hr
    refine .inl ⟨hr, hwindow, ?_, ?_, hholds⟩
    · rw [Cut.rest_append h.window_pos]
      exact hheld
    · rw [hframes, h.frames_eq, List.length_append]
  · exact .inr ⟨e, hr, hshort⟩

/-- On a reliable device, frames whose windows can be counted are all taken. -/
theorem addFrames_of_reliable (h : Feeding s l window frames w o)
    (hmore : ∀ frame ∈ more, frame.length = l.channels) (hr : o.draft.Reliable)
    (hcount : (Cut.whole window (frames ++ more)).length ≤ Draft.mostWindows) :
    (w.addFrames (Outlet.receive s) more o).1 = .ok () ∧
      (w.addFrames (Outlet.receive s) more o).2.2.draft.Reliable := by
  obtain ⟨w', heq, -, -⟩ := Windower.addFrames_cases (Outlet.receive s) h.held hmore o
  rw [h.window_eq] at heq
  rw [heq]
  refine Outlet.handOver_of_reliable s hr h.draft ?_
  rw [Windower.length_bounds, ← List.length_append, ← Cut.whole_append h.window_pos]
  exact hcount

/-- At the end the window of what is left is added, if anything is, or the draft is short
of it. -/
theorem flush (h : Feeding s l window frames w o) :
    let r := w.flush (Outlet.receive s) o
    (r.1 = .ok (decide (frames.length % window ≠ 0)) ∧ r.2.1.frames = frames.length ∧
        r.2.2.draft.Holds (s.content l window 0 (Cut.all window frames))
          (Cut.all window frames).length) ∨
      ∃ e, r.1 = .error e ∧
        r.2.2.draft.Short (s.content l window 0 (Cut.all window frames)) := by
  dsimp only
  rw [Windower.flush_eq _ h.held]
  have hmod := Cut.rest_eq_nil_iff window frames
  by_cases h0 : Cut.rest window frames = []
  · -- The frames fill their windows, and there is nothing to add.
    have hall := Cut.all_of_rest_eq_nil h0
    rw [if_pos h0, hall]
    exact .inl ⟨by simp [hmod.1 h0], h.frames_eq, h.draft⟩
  · -- What is left makes one more window.
    have hall := Cut.all_of_rest_ne_nil h0
    have hone := Outlet.receive_of_holds s h.draft
      (ChannelExtrema.ofFrames s.anchor l.channels (Cut.rest window frames)).extrema
    have hcontent : s.content l window 0 (Cut.whole window frames) ++
        s.encodeWindow
          (ChannelExtrema.ofFrames s.anchor l.channels (Cut.rest window frames)).extrema =
        s.content l window 0 (Cut.all window frames) := by
      rw [hall, s.content_append, s.encodeWindow_ofFrames, List.flatMap_singleton]
    rw [hcontent] at hone
    have hlength : (Cut.all window frames).length = (Cut.whole window frames).length + 1 := by
      rw [hall, List.length_append, List.length_singleton]
    rw [if_neg h0, hlength]
    rcases hreceive : Outlet.receive s
      (ChannelExtrema.ofFrames s.anchor l.channels (Cut.rest window frames)).extrema o with
      ⟨answer, o'⟩
    rw [hreceive] at hone
    rcases hone with ⟨rfl, hholds⟩ | ⟨e, rfl, hshort⟩
    · exact .inl ⟨by simp [Except.map, mt hmod.2 h0], h.frames_eq, hholds⟩
    · exact .inr ⟨e, rfl, hshort⟩

/-- On a reliable device, a last window that can be counted is taken. -/
theorem flush_of_reliable (h : Feeding s l window frames w o) (hr : o.draft.Reliable)
    (hcount : (Cut.all window frames).length ≤ Draft.mostWindows) :
    (∃ b, (w.flush (Outlet.receive s) o).1 = .ok b) ∧
      (w.flush (Outlet.receive s) o).2.2.draft.Reliable := by
  rw [Windower.flush_eq _ h.held]
  by_cases h0 : Cut.rest window frames = []
  · rw [if_pos h0]
    exact ⟨⟨_, rfl⟩, hr⟩
  · have hlt : (Cut.whole window frames).length < Draft.mostWindows := by
      rw [Cut.all_of_rest_ne_nil h0, List.length_append, List.length_singleton] at hcount
      omega
    obtain ⟨hok, hr'⟩ := Outlet.receive_of_reliable s hr h.draft hlt
      (ChannelExtrema.ofFrames s.anchor l.channels (Cut.rest window frames)).extrema
    rw [if_neg h0]
    rcases hreceive : Outlet.receive s
      (ChannelExtrema.ofFrames s.anchor l.channels (Cut.rest window frames)).extrema o with
      ⟨answer, o'⟩
    rw [hreceive] at hok hr'
    obtain rfl : answer = .ok () := hok
    exact ⟨⟨true, rfl⟩, hr'⟩

end Feeding

/-- A window received leaves the count within what a header can count, whatever it is
answered. -/
theorem Outlet.windows_receive_le (s : Settings) (window : List Extrema) (o : Outlet)
    (h : o.draft.windows ≤ Draft.mostWindows) :
    (receive s window o).2.draft.windows ≤ Draft.mostWindows :=
  Draft.windows_appendWindow_le h _

/-- A layout that passes its check has channels, and a header counts them. -/
theorem Layout.channels_of_check {l : Layout} (h : l.check = .ok ()) :
    0 < l.channels ∧ l.channels < UInt32.size := by
  unfold Layout.check at h
  split_ifs at h
  omega

namespace Extraction

/-! ## Opening -/

/-- With a layout that passes its check and a window length, only memory for the channels is
still to be had. -/
theorem opening_eq_allocate {x : Extraction} {l : Layout} (hl : l.check = .ok ()) {window : Nat}
    (hw : x.settings.windowFrames l.rate = .ok window) (granted : Bool) :
    x.opening l granted =
      (ChannelExtrema.allocate l.channels x.settings.anchor granted).map fun current =>
        (.start current window (Settings.windowFrames_bounds hw).1,
          x.settings.header l window) := by
  unfold opening
  rw [hl]
  dsimp only
  split
  · next cause hcause => cases hcause.symm.trans hw
  · next frames hframes =>
    obtain rfl : window = frames := by simpa [hw] using hframes
    rcases ChannelExtrema.allocate l.channels x.settings.anchor granted with cause | current
    · rfl
    · rfl

/-- A layout that passes its check, with a window length and memory for its channels, opens at
the first frame. -/
theorem opening_eq {x : Extraction} {l : Layout} (hl : l.check = .ok ()) {window : Nat}
    (hw : x.settings.windowFrames l.rate = .ok window) :
    x.opening l true =
      .ok (.start (.fresh l.channels x.settings.anchor) window (Settings.windowFrames_bounds hw).1,
        x.settings.header l window) := by
  rw [opening_eq_allocate hl hw,
    ChannelExtrema.allocate_granted (Layout.channels_of_check hl).2 x.settings.anchor]
  rfl

/-- Without memory for its channels, it does not. -/
theorem opening_refused {x : Extraction} {l : Layout} (hl : l.check = .ok ()) {window : Nat}
    (hw : x.settings.windowFrames l.rate = .ok window) :
    x.opening l false = .error (.allocation l.channels) := by
  rw [opening_eq_allocate hl hw,
    ChannelExtrema.allocate_refused (Layout.channels_of_check hl).1 x.settings.anchor]
  rfl

/-- Nothing else opens. -/
theorem check_of_opening {x : Extraction} {l : Layout} {granted : Bool}
    {start : Windower × Header} (h : x.opening l granted = .ok start) :
    l.check = .ok () ∧ granted = true ∧
      ∃ window, x.settings.windowFrames l.rate = .ok window := by
  unfold opening at h
  rcases hl : l.check with cause | _
  · rw [hl] at h
    cases h
  · rw [hl] at h
    dsimp only at h
    split at h
    · cases h
    · next window hw =>
      split at h
      · cases h
      · next bounds hallocate =>
        have hgranted :=
          ChannelExtrema.granted_of_allocate (Layout.channels_of_check hl).1 hallocate
        exact ⟨rfl, hgranted, window, hw⟩

/-! ## Accepting frames -/

/-- An extraction that accepts frames, and was given these. -/
structure Fed (s : Settings) (l : Layout) (window : Nat) (frames : List Frame) (x : Extraction) :
    Prop where
  settings_eq : x.settings = s
  stage : ∃ w, x.stage = .ready w ∧ Feeding s l window frames w x.outlet

variable {s : Settings} {l : Layout} {window : Nat} {frames : List Frame} {x : Extraction}

theorem Fed.state_eq (h : x.Fed s l window frames) : x.state = .ready := by
  obtain ⟨w, hw, -⟩ := h.stage
  rw [state, hw]
  rfl

theorem Fed.sound (h : x.Fed s l window frames) : x.Sound := by
  obtain ⟨w, hw, hfeeding⟩ := h.stage
  rw [Sound, hw]
  exact hfeeding.draft.headerWritten

/-- Configuring towards a device writes the header to it. -/
theorem configure_device (hl : l.check = .ok ()) (hw : s.windowFrames l.rate = .ok window)
    (d : Device) (listening : Bool) (created : Except StorageError Device) :
    let x := toward s (.device d) listening
    x.configure l true created =
      match (Draft.onto d).writeHeader (s.header l window) with
      | (.ok (), draft) =>
        (.ok (), { x with
          outlet := { x.outlet with draft }
          stage := .ready (.start (.fresh l.channels s.anchor) window
            (Settings.windowFrames_bounds hw).1) })
      | (.error cause, draft) =>
        (.error cause, { x with outlet := { x.outlet with draft }, stage := .failed }) := by
  intro x
  have hfile : ∀ name, x.destination ≠ .file name := fun name hname => by cases hname
  rw [configure_eq rfl hfile, opening_eq (x := x) hl hw]
  rfl

/-- On a blank device, configuring ends behind the header, or short of it. -/
theorem configure_blank {d : Device} (hd : d.Blank) (hl : l.check = .ok ())
    (hw : s.windowFrames l.rate = .ok window) (listening : Bool)
    (created : Except StorageError Device) :
    let r := (toward s (.device d) listening).configure l true created
    (r.1 = .ok () ∧ r.2.Fed s l window []) ∨
      ∃ e, r.1 = .error e ∧ r.2.state = .failed ∧
        r.2.outlet.draft.Short (s.content l window 0 []) := by
  have hheader : { s.header l window with windows := 0 }.encode = s.content l window 0 [] := by
    rw [Settings.content, List.flatMap_nil, List.append_nil]
    rfl
  have hwrite := Draft.writeHeader_onto hd (s.header l window)
  dsimp only at hwrite ⊢
  rw [hheader] at hwrite
  rw [configure_device hl hw d listening created]
  rcases hr : (Draft.onto d).writeHeader (s.header l window) with ⟨answer, draft⟩
  rw [hr] at hwrite
  rcases hwrite with ⟨rfl, hholds⟩ | ⟨cause, rfl, hshort⟩
  · exact .inl ⟨rfl, rfl, _, rfl, .start _ hholds⟩
  · exact .inr ⟨_, rfl, rfl, hshort⟩

/-- On a reliable device, configuring succeeds. -/
theorem configure_of_reliable {d : Device} (hr : d.Reliable) (hl : l.check = .ok ())
    (hw : s.windowFrames l.rate = .ok window) (listening : Bool)
    (created : Except StorageError Device) :
    let r := (toward s (.device d) listening).configure l true created
    r.1 = .ok () ∧ r.2.outlet.draft.Reliable := by
  obtain ⟨hok, hr'⟩ := Draft.writeHeader_of_reliable hr (s.header l window)
  dsimp only
  rw [configure_device hl hw d listening created]
  rcases hwrite : (Draft.onto d).writeHeader (s.header l window) with ⟨answer, draft⟩
  rw [hwrite] at hok hr'
  obtain rfl : answer = .ok () := hok
  exact ⟨rfl, hr'⟩

/-- On a blank device that never fails, configuring ends behind the header. -/
theorem fed_of_configure {d : Device} (hd : d.Blank) (hr : d.Reliable) (hl : l.check = .ok ())
    (hw : s.windowFrames l.rate = .ok window) (listening : Bool)
    (created : Except StorageError Device) :
    let r := (toward s (.device d) listening).configure l true created
    r.1 = .ok () ∧ r.2.Fed s l window [] ∧ r.2.outlet.draft.Reliable := by
  obtain ⟨hok, hr'⟩ := configure_of_reliable hr hl hw listening created
  rcases configure_blank hd hl hw listening created with ⟨-, hfed⟩ | ⟨e, he, -⟩
  · exact ⟨hok, hfed, hr'⟩
  · rw [hok] at he
    cases he

/-- A buffer that fits is pushed frame by frame. -/
theorem Fed.push_eq_addFrames (h : x.Fed s l window frames) {b : SampleBuffer}
    (hb : b.Fits l.channels) :
    ∃ w, Feeding s l window frames w x.outlet ∧
      x.push b =
        match w.addFrames (Outlet.receive s) (b.frames l.channels) x.outlet with
        | (.ok (), windower, outlet) => (.ok (), { x with outlet, stage := .ready windower })
        | (.error cause, _, outlet) => (.error cause, { x with outlet, stage := .failed }) := by
  obtain ⟨w, hstage, hfeeding⟩ := h.stage
  have hchannels := hfeeding.held.channels_eq
  have hfits : w.fault? b = none := (Windower.fault?_eq_none_iff w b).2 (hchannels ▸ hb)
  have hpush := push_eq h.sound hstage b
  rw [hfits, hchannels] at hpush
  obtain rfl := h.settings_eq
  exact ⟨w, hfeeding, hpush⟩

/-- Frames of a buffer that fits are accepted, or leave the draft short of their
windows. -/
theorem Fed.push (h : x.Fed s l window frames) {b : SampleBuffer} (hb : b.Fits l.channels) :
    let r := x.push b
    (r.1 = .ok () ∧ r.2.Fed s l window (frames ++ b.frames l.channels)) ∨
      ∃ e, r.1 = .error e ∧ r.2.state = .failed ∧ r.2.outlet.draft.Short
        (s.content l window 0 (Cut.whole window (frames ++ b.frames l.channels))) := by
  obtain ⟨w, hfeeding, heq⟩ := h.push_eq_addFrames hb
  have hadd := hfeeding.addFrames fun frame hframe => SampleBuffer.length_of_mem_frames hb hframe
  dsimp only at hadd ⊢
  rw [heq]
  rcases hr : w.addFrames (Outlet.receive s) (b.frames l.channels) x.outlet with
    ⟨answer, w', o'⟩
  rw [hr] at hadd
  rcases hadd with ⟨rfl, hfeeding'⟩ | ⟨e, rfl, hshort⟩
  · exact .inl ⟨rfl, h.settings_eq, w', rfl, hfeeding'⟩
  · exact .inr ⟨e, rfl, rfl, hshort⟩

/-- On a reliable device, a buffer that fits is accepted if its windows can be counted. -/
theorem Fed.push_of_reliable (h : x.Fed s l window frames) {b : SampleBuffer}
    (hb : b.Fits l.channels) (hr : x.outlet.draft.Reliable)
    (hcount : (Cut.whole window (frames ++ b.frames l.channels)).length ≤ Draft.mostWindows) :
    (x.push b).1 = .ok () ∧ (x.push b).2.outlet.draft.Reliable := by
  obtain ⟨w, hfeeding, heq⟩ := h.push_eq_addFrames hb
  obtain ⟨hok, hr'⟩ := hfeeding.addFrames_of_reliable
    (fun frame hframe => SampleBuffer.length_of_mem_frames hb hframe) hr hcount
  rw [heq]
  rcases hadd : w.addFrames (Outlet.receive s) (b.frames l.channels) x.outlet with
    ⟨answer, w', o'⟩
  rw [hadd] at hok hr'
  obtain rfl : answer = .ok () := hok
  exact ⟨rfl, hr'⟩

/-- A buffer that does not fit is refused. -/
theorem Fed.push_of_not_fits (h : x.Fed s l window frames) {b : SampleBuffer}
    (hb : ¬ b.Fits l.channels) : ∃ fault, x.push b = (.error (.buffer fault), x) := by
  obtain ⟨w, hstage, hfeeding⟩ := h.stage
  rw [push_eq h.sound hstage]
  rcases hf : w.fault? b with _ | fault
  · refine absurd ((Windower.fault?_eq_none_iff w b).1 hf) ?_
    rw [hfeeding.held.channels_eq]
    exact hb
  · exact ⟨fault, rfl⟩

/-- At the end the last window is written and the count is put in its place, or the draft
stays short of the last window. -/
theorem Fed.finalize (h : x.Fed s l window frames) :
    let r := x.finalize
    let bytes := s.content l window 0 (Cut.all window frames)
    (r.2.state = .finalized ∧ r.2.outlet.draft.Patched bytes) ∨
      r.2.state = .failed ∧ (r.2.outlet.draft.Short bytes ∨ r.2.outlet.draft.Patched bytes) := by
  obtain ⟨w, hstage, hfeeding⟩ := h.stage
  have hflushed := hfeeding.flush
  dsimp only at hflushed ⊢
  rcases finalize_cases hstage with ⟨cause, windower, outlet, hflush, heq⟩ |
    ⟨partialWindow, windower, outlet, hflush, hfinish⟩
  · rw [h.settings_eq] at hflush
    rw [hflush] at hflushed
    rcases hflushed with ⟨hok, -⟩ | ⟨e, -, hshort⟩
    · cases hok
    · rw [heq]
      exact .inr ⟨rfl, .inl hshort⟩
  · rw [h.settings_eq] at hflush
    rw [hflush] at hflushed
    rcases hflushed with ⟨-, -, hholds⟩ | ⟨e, he, -⟩
    · have hpatched := Draft.patched_finish hholds (s.countOffset_le_content ..)
      rcases hfinish with ⟨cause, draft, hdraft, heq⟩ | ⟨size, draft, hdraft, heq⟩
      · rw [hdraft] at hpatched
        rw [heq]
        exact .inr ⟨rfl, .inr hpatched⟩
      · rw [hdraft] at hpatched
        rw [heq]
        exact .inl ⟨rfl, hpatched⟩
    · cases he

/-- Where the end is answered by totals, the device has the whole file. -/
theorem Fed.finalize_of_ok (h : x.Fed s l window frames)
    (hle : x.outlet.draft.windows ≤ Draft.mostWindows) {summary : Summary}
    (hok : x.finalize.1 = .ok summary) :
    let groups := Cut.all window frames
    let bytes := s.content l window groups.length groups
    groups.length ≤ Draft.mostWindows ∧
      summary =
        ⟨groups.length, frames.length, bytes.length, decide (frames.length % window ≠ 0)⟩ ∧
      ∃ d, x.finalize.2.outlet.draft.device = some d ∧ d.content = bytes := by
  obtain ⟨w, hstage, hfeeding⟩ := h.stage
  have hflushed := hfeeding.flush
  have hkept := Windower.flush_preserves (Outlet.windows_receive_le s) w hle
  dsimp only at hflushed ⊢
  rcases finalize_cases hstage with ⟨cause, w', o', -, heq⟩ |
    ⟨partialWindow, w', o', hflush, ⟨cause, draft, -, heq⟩ | ⟨size, draft, hdraft, heq⟩⟩
  · rw [heq] at hok
    cases hok
  · rw [heq] at hok
    cases hok
  · rw [h.settings_eq] at hflush
    rw [hflush] at hflushed hkept
    rcases hflushed with ⟨hpartial, hframes, hholds⟩ | ⟨e, he, -⟩
    · have hcount : (Cut.all window frames).length ≤ Draft.mostWindows :=
        hholds.windows_eq ▸ hkept
      have hlt : (Cut.all window frames).length < UInt32.size := hcount.trans_lt (by decide)
      obtain ⟨hsize, d, hd, hcontent⟩ := Draft.finish_of_ok hholds hlt (congrArg Prod.fst hdraft)
      rw [hdraft] at hd
      rw [heq] at hok ⊢
      refine ⟨hcount, ?_, d, hd, hcontent⟩
      have hbytes : size = (s.content l window (Cut.all window frames).length
          (Cut.all window frames)).length := by
        rw [s.length_content l window _ 0]
        exact hsize
      rw [← Except.ok.inj hok, ← hbytes, ← Except.ok.inj hpartial, ← hframes, ← hholds.windows_eq]
    · cases he

/-- On a reliable device, the end gives the whole file if its windows can be counted. -/
theorem Fed.finalize_of_reliable (h : x.Fed s l window frames) (hr : x.outlet.draft.Reliable)
    (hcount : (Cut.all window frames).length ≤ Draft.mostWindows) :
    let groups := Cut.all window frames
    let bytes := s.content l window groups.length groups
    x.finalize.1 = .ok
        ⟨groups.length, frames.length, bytes.length, decide (frames.length % window ≠ 0)⟩ ∧
      ∃ d, x.finalize.2.outlet.draft.device = some d ∧ d.content = bytes := by
  obtain ⟨w, hstage, hfeeding⟩ := h.stage
  have hflushed := hfeeding.flush
  obtain ⟨⟨b, hb⟩, hr'⟩ := hfeeding.flush_of_reliable hr hcount
  have hle : x.outlet.draft.windows ≤ Draft.mostWindows := by
    rw [hfeeding.draft.windows_eq]
    refine le_trans ?_ hcount
    rw [Cut.all, List.length_append]
    exact Nat.le_add_right _ _
  -- Neither the last window nor the count is refused, so there are totals.
  obtain ⟨summary, hok⟩ : ∃ summary, x.finalize.1 = .ok summary := by
    rcases finalize_cases hstage with ⟨cause, w', o', hflush, -⟩ |
      ⟨partialWindow, w', o', hflush, ⟨cause, draft, hdraft, -⟩ | ⟨size, draft, -, heq⟩⟩
    · rw [h.settings_eq] at hflush
      rw [hflush] at hb
      cases hb
    · rw [h.settings_eq] at hflush
      rw [hflush] at hr' hflushed
      rcases hflushed with ⟨-, -, hholds⟩ | ⟨e, he, -⟩
      · have hfinish := Draft.finish_of_reliable hholds hr'
        rw [hdraft] at hfinish
        cases hfinish
      · cases he
    · rw [heq]
      exact ⟨_, rfl⟩
  obtain ⟨-, rfl, hdevice⟩ := h.finalize_of_ok hle hok
  exact ⟨hok, hdevice⟩

end Extraction

end Peakfile
