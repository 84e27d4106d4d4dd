/-
# Blocks do not show

Raw audio reaches an extraction in blocks, and where these end depends on the reader and on
its source.  A buffer of whole frames may be pushed in any pieces of whole frames
(`Extraction.Accepts.push_append`), so feeding comes to one push of all whole frames and the
end of the data behind it (`Extraction.Accepts.feed_eq`), whatever the device.  On a reliable
device that push is taken, unless there are more windows than a header can count.
-/
import Peakfile.Command.Generate
import Peakfile.Proofs.Framing
import Peakfile.Proofs.Buffers
import Peakfile.Proofs.Runs

namespace Peakfile

/-! ## Sources that do not fail -/

/-- A source that gives bytes at every read call that is not interrupted, as long as it has
any. -/
structure Source.Steady (s : Source) : Prop where
  forthcoming : s.Forthcoming
  never_fails : ∀ cause, .fails cause ∉ s.script

namespace Framer

/-- The samples of the whole frames of bytes that lie behind a number of frames. -/
def samplesFrom (channels : Nat) (bytes : List UInt8) (frames : Nat) : List Sample :=
  samplesOf ((bytes.length / (sampleBytes * channels) - frames) * channels)
    (bytes.drop (frames * (sampleBytes * channels)))

/-- What is found behind the last whole frame: the end, or bytes of a frame that is not
whole. -/
def ending (channels : Nat) (bytes : List UInt8) : Except FeedError Unit :=
  if bytes.length % (sampleBytes * channels) = 0 then .ok ()
  else .error (.input (.trailingBytes (bytes.length % (sampleBytes * channels))))

variable {channels : Nat} {bytes : List UInt8} {frames : Nat}

/-- Some of the frames come first. -/
theorem samplesFrom_add {count : Nat}
    (h : frames + count ≤ bytes.length / (sampleBytes * channels)) :
    samplesFrom channels bytes frames =
      samplesOf (count * channels) (bytes.drop (frames * (sampleBytes * channels))) ++
        samplesFrom channels bytes (frames + count) := by
  have hsplit : (bytes.length / (sampleBytes * channels) - frames) * channels =
      count * channels +
        (bytes.length / (sampleBytes * channels) - (frames + count)) * channels := by
    rw [← Nat.add_mul]
    congr 1
    omega
  have hplace : count * channels * sampleBytes = count * (sampleBytes * channels) := by
    rw [Nat.mul_assoc, Nat.mul_comm channels]
  rw [samplesFrom, hsplit, samplesOf_add, List.drop_drop, hplace, ← Nat.add_mul, samplesFrom]

/-- Behind the last whole frame there are no more samples. -/
theorem samplesFrom_whole (channels : Nat) (bytes : List UInt8) :
    samplesFrom channels bytes (bytes.length / (sampleBytes * channels)) = [] := by
  rw [samplesFrom, Nat.sub_self, Nat.zero_mul]
  rfl

/-- Samples of whole frames fill frames. -/
theorem dvd_length_samplesFrom (channels : Nat) (bytes : List UInt8) (frames : Nat) :
    channels ∣ (samplesFrom channels bytes frames).length := by
  rw [samplesFrom, length_samplesOf]
  exact Nat.dvd_mul_left _ _

/-- The whole frames of all samples are those of the samples of whole frames. -/
theorem whole_samplesFrom_zero (hchannels : 0 < channels) (bytes : List UInt8) :
    Cut.whole channels (samplesFrom channels bytes 0) =
      Cut.whole channels (samplesOf (bytes.length / sampleBytes) bytes) := by
  -- The samples behind the last whole frame are too few for another one.
  have hdiv : bytes.length / (sampleBytes * channels) = bytes.length / sampleBytes / channels :=
    (Nat.div_div_eq_div_mul _ _ _).symm
  have hsplit := Nat.div_add_mod' (bytes.length / sampleBytes) channels
  have hall : samplesOf (bytes.length / sampleBytes) bytes =
      samplesFrom channels bytes 0 ++ samplesOf (bytes.length / sampleBytes % channels)
        (bytes.drop (bytes.length / sampleBytes / channels * channels * sampleBytes)) := by
    conv_lhs => rw [← hsplit, samplesOf_add]
    rw [samplesFrom, hdiv, Nat.sub_zero, Nat.zero_mul, List.drop_zero]
  have hrest : Cut.rest channels (samplesFrom channels bytes 0) = [] :=
    (Cut.rest_eq_nil_iff _ _).2 (Nat.mod_eq_zero_of_dvd (dvd_length_samplesFrom _ _ _))
  have hfew : Cut.whole channels (samplesOf (bytes.length / sampleBytes % channels)
      (bytes.drop (bytes.length / sampleBytes / channels * channels * sampleBytes))) = [] := by
    apply Cut.whole_of_lt
    rw [length_samplesOf]
    exact Nat.mod_lt _ hchannels
  rw [hall, Cut.whole_append hchannels, hrest, List.nil_append, hfew, List.append_nil]

/-- If the bytes end with a frame, all their samples are those of whole frames. -/
theorem samplesFrom_zero_of_mod_eq_zero (hmod : bytes.length % (sampleBytes * channels) = 0) :
    samplesFrom channels bytes 0 = samplesOf (bytes.length / sampleBytes) bytes := by
  obtain ⟨count, hcount⟩ := Nat.dvd_of_mod_eq_zero hmod
  have hsamples : bytes.length / sampleBytes = count * channels := by
    rw [hcount, Nat.mul_assoc, Nat.mul_div_cancel_left _ (by decide : 0 < sampleBytes),
      Nat.mul_comm]
  have hwhole : bytes.length / (sampleBytes * channels) * channels = count * channels := by
    rcases Nat.eq_zero_or_pos channels with rfl | hpos
    · rw [Nat.mul_zero, Nat.mul_zero]
    · rw [hcount, Nat.mul_div_cancel_left _ (Nat.mul_pos (by decide) hpos)]
  rw [samplesFrom, Nat.sub_zero, Nat.zero_mul, List.drop_zero, hwhole, hsamples]

end Framer

/-! ## Pushing in pieces -/

namespace Extraction

/-- An extraction that accepts frames of so many channels. -/
structure Accepts (channels : Nat) (x : Extraction) : Prop where
  sound : x.Sound
  stage : ∃ w, x.stage = .ready w ∧ w.channels = channels
  channels_pos : 0 < channels

variable {channels : Nat} {x : Extraction} {samples first second : List Sample}

/-- Samples of whole frames are added frame by frame. -/
theorem Accepts.push_eq_addFrames (h : x.Accepts channels) (hsamples : channels ∣ samples.length) :
    ∃ w, x.stage = .ready w ∧ w.channels = channels ∧
      x.push (.interleaved samples) =
        match w.addFrames (Outlet.receive x.settings) (Cut.whole channels samples) x.outlet with
        | (.ok (), windower, outlet) => (.ok (), { x with outlet, stage := .ready windower })
        | (.error cause, _, outlet) => (.error cause, { x with outlet, stage := .failed }) := by
  obtain ⟨w, hstage, hchannels⟩ := h.stage
  have hfits : w.fault? (.interleaved samples) = none :=
    (Windower.fault?_eq_none_iff w _).2 (hchannels ▸ ⟨h.channels_pos, hsamples⟩)
  have hpush := push_eq h.sound hstage (.interleaved samples)
  rw [hfits, hchannels] at hpush
  exact ⟨w, hstage, hchannels, hpush⟩

/-- An extraction that took whole frames accepts more. -/
theorem Accepts.push (h : x.Accepts channels) (hsamples : channels ∣ samples.length)
    (hok : (x.push (.interleaved samples)).1 = .ok ()) :
    (x.push (.interleaved samples)).2.Accepts channels := by
  obtain ⟨w, hstage, hchannels, heq⟩ := h.push_eq_addFrames hsamples
  have hkept := Windower.channels_addFrames (Outlet.receive x.settings) w
    (Cut.whole channels samples) x.outlet
  have hready : x.state = .ready := by
    rw [state, hstage]
    rfl
  have hsound := (stepped_push h.sound hready (.interleaved samples)).sound
  refine ⟨hsound, ?_, h.channels_pos⟩
  rw [heq] at hok ⊢
  rcases hr : w.addFrames (Outlet.receive x.settings) (Cut.whole channels samples) x.outlet with
    ⟨cause | _, w', o'⟩
  · rw [hr] at hok
    cases hok
  · rw [hr] at hkept
    exact ⟨w', rfl, hkept.trans hchannels⟩

/-- Whole frames are never refused for their layout. -/
theorem Accepts.ne_buffer (h : x.Accepts channels) (hsamples : channels ∣ samples.length)
    (fault : BufferError) : (x.push (.interleaved samples)).1 ≠ .error (.buffer fault) := by
  obtain ⟨w, hstage, -, heq⟩ := h.push_eq_addFrames hsamples
  obtain ⟨-, herror⟩ := Windower.addFrames_keeps (Outlet.receive_keeps x.settings) w
    (Cut.whole channels samples) (headerWritten_of_ready h.sound hstage)
  rw [heq]
  rcases hr : w.addFrames (Outlet.receive x.settings) (Cut.whole channels samples) x.outlet with
    ⟨cause | _, w', o'⟩
  · rw [hr] at herror
    intro hbuffer
    obtain rfl := Except.error.inj hbuffer
    cases herror _ rfl
  · nofun

/-- No frames change nothing. -/
theorem Accepts.push_nil (h : x.Accepts channels) : x.push (.interleaved []) = (.ok (), x) := by
  have hnone : channels ∣ ([] : List Sample).length := Nat.dvd_zero _
  obtain ⟨w, hstage, -, heq⟩ := h.push_eq_addFrames hnone
  rw [heq, Cut.whole_of_lt h.channels_pos]
  show (Except.ok (), { x with outlet := x.outlet, stage := .ready w }) = _
  rw [← hstage]

/-- **Pieces of whole frames.**  Whole frames may be pushed in two goes: the second part is
pushed only if the first was taken. -/
theorem Accepts.push_append (h : x.Accepts channels) (hfirst : channels ∣ first.length)
    (hsecond : channels ∣ second.length) :
    x.push (.interleaved (first ++ second)) =
      match x.push (.interleaved first) with
      | (.ok (), x') => x'.push (.interleaved second)
      | stopped => stopped := by
  have hrest : Cut.rest channels first = [] :=
    (Cut.rest_eq_nil_iff _ _).2 (Nat.mod_eq_zero_of_dvd hfirst)
  have hboth : channels ∣ (first ++ second).length := by
    rw [List.length_append]
    exact Nat.dvd_add hfirst hsecond
  obtain ⟨w, hstage, -, heq⟩ := h.push_eq_addFrames hfirst
  obtain ⟨w', hstage', -, hwhole⟩ := h.push_eq_addFrames hboth
  obtain rfl : w = w' := Stage.ready.inj (hstage.symm.trans hstage')
  have hnext := h.push hfirst
  rw [hwhole, Cut.whole_append h.channels_pos, hrest, List.nil_append, Windower.addFrames_append]
  rw [heq] at hnext ⊢
  rcases hr : w.addFrames (Outlet.receive x.settings) (Cut.whole channels first) x.outlet with
    ⟨cause | _, w₁, o₁⟩
  · rfl
  · -- The second part meets the windower and the outlet that the first part left.
    rw [hr] at hnext
    obtain ⟨w₂, hstage₂, -, hsecond'⟩ := (hnext rfl).push_eq_addFrames hsecond
    obtain rfl : w₁ = w₂ := Stage.ready.inj hstage₂
    exact hsecond'.symm

/-- An extraction that was given frames accepts more of them. -/
theorem Fed.accepts {s : Settings} {l : Layout} {window : Nat} {frames : List Frame}
    (h : x.Fed s l window frames) (hchannels : 0 < l.channels) : x.Accepts l.channels := by
  obtain ⟨w, hstage, hfeeding⟩ := h.stage
  exact ⟨h.sound, ⟨w, hstage, hfeeding.held.channels_eq⟩, hchannels⟩

/-! ## Feeding -/

variable {blockFrames : Nat} {bytes : List UInt8} {frames : Nat} {f : Framer} {source : Source}

/-- **Feeding is one push.**  With a source that never fails, feeding comes to pushing the
samples of all whole frames at once, and to the end of the bytes if they are taken. -/
theorem Accepts.feed_eq (h : x.Accepts channels)
    (hholds : f.Holds channels blockFrames bytes frames source)
    (hnever : ∀ cause, .fails cause ∉ source.script) :
    x.feed f source =
      match x.push (.interleaved (Framer.samplesFrom channels bytes frames)) with
      | (.ok (), x') => (Framer.ending channels bytes, x')
      | (.error cause, x') => (.error (.extraction cause), x') := by
  -- Each block is the first part of the samples that are left, and leaves less to do.
  induction hleft : f.remaining source using Nat.strong_induction_on
    generalizing x f source frames with
  | _ left ih =>
    obtain ⟨frames', hdelivers, hholds', hscript, -⟩ := hholds.next
    have hsize : 0 < sampleBytes * channels := Nat.mul_pos (by decide) h.channels_pos
    rw [feed]
    rcases hnext : f.next source with ⟨answer, f', source'⟩
    rw [hnext] at hdelivers hholds' hscript
    cases hdelivers with
    | @block count hpos hle =>
      have hless := Framer.remaining_of_next hnext
      have hdvd : channels ∣ (Framer.samplesOf (count * channels)
          (bytes.drop (frames * (sampleBytes * channels)))).length := by
        rw [Framer.length_samplesOf]
        exact Nat.dvd_mul_left _ _
      have htook := h.push hdvd
      rw [Framer.samplesFrom_add hholds'.frames_le_whole,
        h.push_append hdvd (Framer.dvd_length_samplesFrom _ _ _)]
      dsimp only
      rcases hpush : x.push (.interleaved (Framer.samplesOf (count * channels)
        (bytes.drop (frames * (sampleBytes * channels))))) with ⟨cause | _, x'⟩
      · rfl
      · rw [hpush] at htook
        exact ih _ (hleft ▸ hless) (htook rfl) hholds' (fun cause hcause =>
          hnever cause (hscript hcause)) rfl
    | finished hall =>
      have hlast : frames = bytes.length / (sampleBytes * channels) := by
        rw [hall, Nat.mul_div_cancel _ hsize]
      rw [hlast, Framer.samplesFrom_whole, h.push_nil, Framer.ending, hall, Nat.mul_mod_left,
        if_pos rfl]
    | @broken rest hpos hlt hall =>
      have hlast : frames = bytes.length / (sampleBytes * channels) := by
        rw [hall, Nat.add_comm, Nat.add_mul_div_right _ _ hsize, Nat.div_eq_of_lt hlt,
          Nat.zero_add]
      have hmod : bytes.length % (sampleBytes * channels) = rest := by
        rw [hall, Nat.mul_add_mod_of_lt hlt]
      rw [hlast, Framer.samplesFrom_whole, h.push_nil, Framer.ending, hmod,
        if_neg (Nat.ne_of_gt hpos)]
    | failed hcause => exact absurd hcause (hnever _)

/-- Every failure to feed is one to push or one at the end of the bytes, and no push is
refused for its layout. -/
theorem Accepts.feed_ne_buffer (h : x.Accepts channels)
    (hholds : f.Holds channels blockFrames bytes frames source)
    (hnever : ∀ cause, .fails cause ∉ source.script) (fault : BufferError) :
    (x.feed f source).1 ≠ .error (.extraction (.buffer fault)) := by
  have hbuffer := h.ne_buffer (Framer.dvd_length_samplesFrom channels bytes frames) fault
  rw [h.feed_eq hholds hnever]
  rcases hpush : x.push (.interleaved (Framer.samplesFrom channels bytes frames)) with
    ⟨cause | _, x'⟩
  · rw [hpush] at hbuffer
    intro heq
    obtain rfl := FeedError.extraction.inj (Except.error.inj heq)
    exact hbuffer rfl
  · dsimp only
    rw [Framer.ending]
    split_ifs <;> nofun

end Extraction

/-! ## More windows than a header counts -/

/-- Once the count is full, the draft stays as it is. -/
theorem Outlet.receive_full (s : Settings) {o : Outlet} {bytes : List UInt8}
    (h : o.draft.Holds bytes Draft.mostWindows) (window : List Extrema) :
    receive s window o = (.error .tooManyWindows, o.report window) := by
  rw [receive, Draft.appendWindow, h.windows_eq, if_pos le_rfl]
  rfl

/-- On a reliable device, windows are taken until their count is full. -/
theorem Outlet.handOver_overflow (s : Settings) {o : Outlet} {bytes : List UInt8} {windows : Nat}
    (hr : o.draft.Reliable) (h : o.draft.Holds bytes windows) (hle : windows ≤ Draft.mostWindows)
    {handed : List (List Extrema)} (hcount : Draft.mostWindows < windows + handed.length) :
    let r := Windower.handOver (receive s) handed o
    r.1 = .error .tooManyWindows ∧ r.2.draft.Holds
      (bytes ++ (handed.take (Draft.mostWindows - windows)).flatMap s.encodeWindow)
      Draft.mostWindows := by
  induction handed generalizing o bytes windows with
  | nil =>
    rw [List.length_nil] at hcount
    omega
  | cons window handed ih =>
    rw [List.length_cons] at hcount
    dsimp only
    rw [Windower.handOver]
    rcases Nat.lt_or_ge windows Draft.mostWindows with hlt | hge
    · obtain ⟨hok, hr'⟩ := receive_of_reliable s hr h hlt window
      have hone := receive_of_holds s h window
      have hroom : Draft.mostWindows - windows = Draft.mostWindows - (windows + 1) + 1 := by omega
      rcases hreceive : receive s window o with ⟨answer, o'⟩
      rw [hreceive] at hone hok hr'
      obtain rfl : answer = .ok () := hok
      rcases hone with ⟨-, hholds⟩ | ⟨e, he, -⟩
      · rw [hroom, List.take_succ_cons, List.flatMap_cons, ← List.append_assoc]
        exact ih hr' hholds hlt (by omega)
      · cases he
    · obtain rfl : windows = Draft.mostWindows := Nat.le_antisymm hle hge
      rw [receive_full s h window, Nat.sub_self, List.take_zero, List.flatMap_nil, List.append_nil]
      exact ⟨rfl, h⟩

namespace Extraction

variable {s : Settings} {l : Layout} {window : Nat} {frames : List Frame} {x : Extraction}

/-- On a reliable device, frames with too many windows are taken as far as the count goes. -/
theorem Fed.push_overflow (h : x.Fed s l window frames) {b : SampleBuffer}
    (hb : b.Fits l.channels) (hr : x.outlet.draft.Reliable)
    (hle : (Cut.whole window frames).length ≤ Draft.mostWindows)
    (hcount : Draft.mostWindows < (Cut.whole window (frames ++ b.frames l.channels)).length) :
    (x.push b).1 = .error .tooManyWindows ∧ (x.push b).2.state = .failed ∧
      (x.push b).2.outlet.draft.Holds
        (s.content l window 0
          ((Cut.whole window (frames ++ b.frames l.channels)).take Draft.mostWindows))
        Draft.mostWindows := by
  obtain ⟨w, hfeeding, heq⟩ := h.push_eq_addFrames hb
  obtain ⟨w', hadd, -, -⟩ := Windower.addFrames_cases (Outlet.receive s) hfeeding.held
    (fun frame hframe => SampleBuffer.length_of_mem_frames hb hframe) x.outlet
  rw [hfeeding.window_eq] at hadd
  have hwhole := Cut.whole_append hfeeding.window_pos frames (b.frames l.channels)
  have hmany : Draft.mostWindows < (Cut.whole window frames).length +
      (Windower.bounds s.anchor l.channels
        (Cut.whole window (Cut.rest window frames ++ b.frames l.channels))).length := by
    rw [Windower.length_bounds, ← List.length_append, ← hwhole]
    exact hcount
  have hover := Outlet.handOver_overflow s hr hfeeding.draft hle hmany
  have hbounds : ∀ count groups, (Windower.bounds s.anchor l.channels groups).take count =
      Windower.bounds s.anchor l.channels (groups.take count) := fun _ _ => List.map_take.symm
  dsimp only at hover
  rw [hbounds, s.flatMap_encodeWindow_bounds, ← s.content_append] at hover
  rw [heq, hadd, hwhole, List.take_append, List.take_of_length_le hle]
  rcases hhanded : Windower.handOver (Outlet.receive s) (Windower.bounds s.anchor l.channels
    (Cut.whole window (Cut.rest window frames ++ b.frames l.channels))) x.outlet with ⟨answer, o⟩
  rw [hhanded] at hover
  obtain ⟨rfl, hholds⟩ := hover
  exact ⟨rfl, rfl, hholds⟩

/-- On a reliable device, one push of frames writes their full windows, as far as the count
goes. -/
theorem Fed.push_frames (h : x.Fed s l window []) {b : SampleBuffer} (hb : b.Fits l.channels)
    (hr : x.outlet.draft.Reliable) :
    let windows := Cut.whole window (b.frames l.channels)
    ((x.push b).1 = if windows.length ≤ Draft.mostWindows then .ok () else
        .error .tooManyWindows) ∧
      ((x.push b).2.state = if windows.length ≤ Draft.mostWindows then .ready else .failed) ∧
      (x.push b).2.outlet.draft.device.map Device.content =
        some (s.content l window 0 (windows.take Draft.mostWindows)) := by
  intro windows
  have hnone : (Cut.whole window ([] : List Frame)).length ≤ Draft.mostWindows := by
    rw [Cut.length_whole, List.length_nil, Nat.zero_div]
    exact Nat.zero_le _
  split_ifs with hcount
  · obtain ⟨hok, -⟩ := h.push_of_reliable hb hr hcount
    rcases h.push hb with ⟨-, hfed⟩ | ⟨e, he, -⟩
    · obtain ⟨w, -, hfeeding⟩ := hfed.stage
      obtain ⟨device, hdevice, hholds⟩ := hfeeding.draft.device
      refine ⟨hok, hfed.state_eq, ?_⟩
      rw [hdevice, List.take_of_length_le hcount]
      exact congrArg some hholds.content_eq
    · rw [hok] at he
      cases he
  · obtain ⟨herror, hfailed, hholds⟩ := h.push_overflow hb hr hnone (Nat.lt_of_not_le hcount)
    obtain ⟨device, hdevice, hdraft⟩ := hholds.device
    refine ⟨herror, hfailed, ?_⟩
    rw [hdevice]
    exact congrArg some hdraft.content_eq

end Extraction

/-! ## Making a peak file of raw audio -/

namespace Command

/-- Feed an extraction with samples in one buffer and finish it. -/
def extractAtOnce (x : Extraction) (samples : List Sample) :
    Except Failure Summary × Extraction :=
  match x.push (.interleaved samples) with
  | (.error cause, x) => (.error (.plain (.extraction cause)), x)
  | (.ok (), x) =>
    match x.finalize with
    | (.error cause, x) => (.error (.plain (.extraction cause)), x)
    | (.ok summary, x) => (.ok summary, x)

variable {channels blockFrames : Nat} {memory : Request → Bool} {x : Extraction} {f : Framer}
  {source : Source}

/-- Raw audio in blocks comes to one buffer of all samples, if it ends with a frame, and
otherwise to one of all whole frames, with bytes left behind it. -/
theorem extract_eq (h : x.Accepts channels)
    (hnew : Framer.new channels blockFrames memory = .ok f) (hs : source.Steady) :
    extract x f source =
      if source.data.length % (sampleBytes * channels) = 0 then
        extractAtOnce x (Framer.samplesOf (source.data.length / sampleBytes) source.data)
      else
        match x.push (.interleaved (Framer.samplesFrom channels source.data 0)) with
        | (.error cause, x') => (.error (.plain (.extraction cause)), x')
        | (.ok (), x') => (.error (.plain (.input
            (.trailingBytes (source.data.length % (sampleBytes * channels))))), x') := by
  rw [extract, h.feed_eq (Framer.holds_of_new hnew hs.forthcoming) hs.never_fails, Framer.ending]
  split_ifs with hmod
  · rw [extractAtOnce, ← Framer.samplesFrom_zero_of_mod_eq_zero hmod]
    rcases x.push (.interleaved (Framer.samplesFrom channels source.data 0)) with ⟨cause | _, x'⟩
    · rfl
    · rfl
  · rcases x.push (.interleaved (Framer.samplesFrom channels source.data 0)) with ⟨cause | _, x'⟩
    · rfl
    · rfl

variable {s : Settings} {l : Layout} {window : Nat}

/-- Raw audio that ends inside a frame is not finalized.  The full windows of its whole frames
are written, and the bytes behind them are reported, or that there are more windows than a
header counts. -/
theorem extract_of_torn (h : x.Fed s l window []) (hpos : 0 < l.channels)
    (hr : x.outlet.draft.Reliable) (hnew : Framer.new l.channels blockFrames memory = .ok f)
    (hs : source.Steady) (htorn : source.data.length % (sampleBytes * l.channels) ≠ 0) :
    let samples := Framer.samplesOf (source.data.length / sampleBytes) source.data
    let windows := Cut.whole window (Cut.whole l.channels samples)
    let outcome := extract x f source
    (outcome.1 = if windows.length ≤ Draft.mostWindows then
        .error (.plain (.input (.trailingBytes (source.data.length % (sampleBytes * l.channels)))))
      else .error (.plain (.extraction .tooManyWindows))) ∧
      (outcome.2.state = if windows.length ≤ Draft.mostWindows then .ready else .failed) ∧
      outcome.2.outlet.draft.device.map Device.content =
        some (s.content l window 0 (windows.take Draft.mostWindows)) := by
  intro samples windows outcome
  have heq : outcome = _ := extract_eq (h.accepts hpos) hnew hs
  -- The whole frames are pushed at once, and their windows are all that is written.
  have hfits : (SampleBuffer.interleaved (Framer.samplesFrom l.channels source.data 0)).Fits
      l.channels := ⟨hpos, Framer.dvd_length_samplesFrom _ _ _⟩
  have hframes : (SampleBuffer.interleaved
      (Framer.samplesFrom l.channels source.data 0)).frames l.channels =
        Cut.whole l.channels samples :=
    Framer.whole_samplesFrom_zero hpos source.data
  have hpush := h.push_frames hfits hr
  rw [hframes] at hpush
  obtain ⟨hanswer, hstate, hcontent⟩ := hpush
  rw [heq, if_neg htorn]
  rcases hx : x.push (.interleaved (Framer.samplesFrom l.channels source.data 0)) with
    ⟨answer, x'⟩
  rw [hx] at hanswer hstate hcontent
  obtain rfl : answer = _ := hanswer
  by_cases hcount : windows.length ≤ Draft.mostWindows
  · rw [if_pos hcount] at hstate ⊢
    rw [if_pos hcount]
    exact ⟨rfl, hstate, hcontent⟩
  · rw [if_neg hcount] at hstate ⊢
    rw [if_neg hcount]
    exact ⟨rfl, hstate, hcontent⟩

/-- **Blocks do not show.**  Towards a blank device that never fails, with raw audio that
comes in blocks of any size from a source that hands it out in any pieces:

* if the data end with a frame, the answer and all that is left behind, the device and what
  was written to it included, are those of all samples pushed in one buffer;
* if they end inside a frame, the bytes of that frame are reported, finalizing is not even
  tried, and the device has a header that counts no windows and the full windows of all whole
  frames; more windows than a header counts are reported instead, behind as many as it does;
* no block is refused for its layout. -/
theorem extract_of_blocks {d : Device} (hd : d.Blank) (hr : d.Reliable) (listening : Bool)
    (hl : l.check = .ok ()) (hw : s.windowFrames l.rate = .ok window)
    (created : Except StorageError Device)
    (hnew : Framer.new l.channels blockFrames memory = .ok f) (hs : source.Steady) :
    let start := (Extraction.toward s (.device d) listening).configure l true created
    let samples := Framer.samplesOf (source.data.length / sampleBytes) source.data
    let windows := Cut.whole window (Cut.whole l.channels samples)
    let torn := source.data.length % (sampleBytes * l.channels)
    let outcome := extract start.2 f source
    start.1 = .ok () ∧
      (torn = 0 → outcome = extractAtOnce start.2 samples) ∧
      (torn ≠ 0 →
        (outcome.1 = if windows.length ≤ Draft.mostWindows then
            .error (.plain (.input (.trailingBytes torn)))
          else .error (.plain (.extraction .tooManyWindows))) ∧
        (outcome.2.state = if windows.length ≤ Draft.mostWindows then .ready else .failed) ∧
        outcome.2.outlet.draft.device.map Device.content =
          some (s.content l window 0 (windows.take Draft.mostWindows))) ∧
      ∀ fault, (start.2.feed f source).1 ≠ .error (.extraction (.buffer fault)) := by
  intro start samples windows torn outcome
  obtain ⟨hok, hfed, hreliable⟩ := Extraction.fed_of_configure hd hr hl hw listening created
  have hpos := (Layout.channels_of_check hl).1
  have haccepts := hfed.accepts hpos
  have hholds := Framer.holds_of_new hnew hs.forthcoming
  have heq : outcome = _ := extract_eq haccepts hnew hs
  refine ⟨hok, fun hwhole => ?_, extract_of_torn hfed hpos hreliable hnew hs,
    haccepts.feed_ne_buffer hholds hs.never_fails⟩
  rw [heq]
  exact if_pos hwhole

/-- One channel and windows of two frames, in blocks of one frame from a source that gives
two bytes at a time.  The data end with three bytes of the fourth frame: they are reported,
and one window is behind a header that counts none. -/
theorem extract_of_blocks_torn :
    let settings : Settings := ⟨Binary.ofNat _ 1, false, .eight, none, .extrema⟩
    let d : Device := { transfer := some 5 }
    let data : List UInt8 := [0, 0, 0, 63, 0, 0, 128, 63, 0, 0, 128, 191, 1, 2, 3]
    let source : Source := ⟨data, [.atMost 3, .interrupted, .atMost 9], some 2⟩
    let start :=
      (Extraction.toward settings (.device d) false).configure ⟨1, 2⟩ true (.error .noSpace)
    ∃ f, Framer.new 1 0 (fun _ => true) = .ok f ∧
      (extract start.2 f source).1 = .error (.plain (.input (.trailingBytes 3))) ∧
      (extract start.2 f source).2.outlet.draft.device.map Device.content =
        some ([1, 0, 0, 0, 1, 0, 0, 0, 2, 0, 0, 0, 2, 0, 0, 0, 0, 0, 0, 0] ++ [64, 127]) := by
  intro settings d data source start
  have hnew : Framer.new 1 0 (fun _ => true) = .ok ⟨1, by decide, 1, []⟩ := by decide +kernel
  have hr : d.Reliable := ⟨by simp [d], rfl, rfl, by decide, rfl⟩
  have hw : settings.windowFrames 2 = .ok 2 := by decide +kernel
  have hs : source.Steady := by
    refine ⟨⟨fun count hcount => ?_, by decide⟩, fun cause hcause => ?_⟩
    · simp only [source, List.mem_cons, ReadEvent.atMost.injEq, reduceCtorEq, List.not_mem_nil,
        or_false, false_or] at hcount
      omega
    · simp [source] at hcause
  obtain ⟨-, -, htorn, -⟩ := extract_of_blocks (l := ⟨1, 2⟩) ⟨rfl, rfl, rfl⟩ hr false rfl hw
    (.error .noSpace) hnew hs
  have hone : Cut.whole 2 (Cut.whole 1 (Framer.samplesOf (data.length / sampleBytes) data)) =
      [[[.ofBits _ 0x3f000000], [.ofBits _ 0x3f800000]]] := by
    decide +kernel
  obtain ⟨hanswer, -, hcontent⟩ := htorn (by decide)
  have hthree : source.data.length % (sampleBytes * (Layout.mk 1 2).channels) = 3 := by decide
  have hfew : 1 ≤ Draft.mostWindows := by decide
  rw [hone] at hanswer hcontent
  rw [List.length_singleton, if_pos hfew, hthree] at hanswer
  refine ⟨_, hnew, hanswer, hcontent.trans ?_⟩
  decide +kernel

/-- Neither bound on the windows can be left out.  The shortest window has no frames at one
frame per second: settings and layout pass their checks, but the device is left without a
header, whatever comes behind.  At a hundred frames per second it has one frame, and of
`2 ^ 32` frames with a byte behind them it is not the byte that is reported, but that there are
more windows than a header counts. -/
theorem torn_end_not_reported :
    let settings : Settings := { Settings.standard with seconds := shortestWindow }
    let x := Extraction.toward settings (.device {}) false
    let slow : Layout := ⟨1, 1⟩
    let fast : Layout := ⟨1, 100⟩
    let source : Source := { data := List.replicate (4 * 2 ^ 32 + 1) 0 }
    let refused := x.configure slow true (.error .noSpace)
    settings.check = .ok () ∧ slow.check = .ok () ∧ fast.check = .ok () ∧
      refused.1 = .error (.emptyWindow shortestWindow 1) ∧
      refused.2.outlet.draft.device.map Device.content = some [] ∧
      source.data.length % (sampleBytes * 1) = 1 ∧
      ∃ f, Framer.new 1 0 (fun _ => true) = .ok f ∧
        let start := x.configure fast true (.error .noSpace)
        start.1 = .ok () ∧
          (extract start.2 f source).1 = .error (.plain (.extraction .tooManyWindows)) ∧
          (extract start.2 f source).2.state = .failed := by
  intro settings x slow fast source refused
  have hnew : Framer.new 1 0 (fun _ => true) = .ok ⟨1, by decide, 1, []⟩ := by decide +kernel
  have hblank : Device.Blank {} := ⟨rfl, rfl, rfl⟩
  have hr : Device.Reliable {} := ⟨by simp, rfl, rfl, by decide, rfl⟩
  have hw : settings.windowFrames fast.rate = .ok 1 := by decide +kernel
  have hs : source.Steady := by
    refine ⟨⟨fun count hcount => ?_, by decide⟩, fun cause hcause => ?_⟩
    · simp [source] at hcount
    · simp [source] at hcause
  have hlength : source.data.length = 4 * 2 ^ 32 + 1 := List.length_replicate
  have hone : source.data.length % (sampleBytes * 1) = 1 := by
    rw [hlength]
    decide
  obtain ⟨hok, hfed, hreliable⟩ :=
    Extraction.fed_of_configure (l := fast) hblank hr rfl hw false (.error .noSpace)
  obtain ⟨hanswer, hstate, -⟩ := extract_of_torn (l := fast) hfed Nat.one_pos hreliable hnew hs
    (hone.trans_ne Nat.one_ne_zero)
  have hmany : ¬ (Cut.whole 1 (Cut.whole 1
      (Framer.samplesOf (source.data.length / sampleBytes) source.data))).length ≤
        Draft.mostWindows := by
    rw [Cut.length_whole, Cut.length_whole, Framer.length_samplesOf, hlength]
    decide
  rw [if_neg hmany] at hanswer hstate
  exact ⟨by decide +kernel, rfl, rfl, by decide +kernel, by decide +kernel, hone, _, hnew, hok,
    hanswer, hstate⟩

end Command

end Peakfile
