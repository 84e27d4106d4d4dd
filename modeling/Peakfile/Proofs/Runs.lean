/-
# What runs leave on a device

An `Intake` is what the calls to an extraction gave it, as far as they were not refused,
and `Extraction.Tracks` says how far the device has come with it.  Every call keeps the two
together (`Tracks.call`), so every run does (`Tracks.after`):

* on any device, what is there is a prefix of what should be, until the count is put in its
  place, and once the device made a call fail it is left alone;
* on a reliable device, a run to its end gives the whole file.
-/
import Peakfile.Proofs.Content

namespace Peakfile

/-! ## What was given -/

/-- What an extraction was given by the calls that it did not refuse. -/
structure Intake where
  layout : Option Layout := none
  frames : List Frame := []
  /-- Whether the end came. -/
  ended : Bool := false

namespace Intake

/-- The intake after one more call. -/
def add (i : Intake) : Extraction.Call → Intake
  | .configure l _ _ => { i with layout := some l }
  | .push b => { i with frames := i.frames ++ i.layout.elim [] fun l => b.frames l.channels }
  | .finalize => { i with ended := true }

/-- The groups of frames that make windows: the full groups of all frames, and what is left
of these once the end came. -/
def groups (window : Nat) (i : Intake) : List (List Frame) :=
  if i.ended then Cut.all window i.frames else Cut.whole window i.frames

/-- The bytes that are to be written one after the other: a header that counts no windows,
and the points of all windows. -/
def content (s : Settings) (i : Intake) : List UInt8 :=
  match i.layout with
  | none => []
  | some l =>
    match s.windowFrames l.rate with
    | .error _ => []
    | .ok window => s.content l window 0 (i.groups window)

variable {i : Intake} {s : Settings} {l : Layout} {window : Nat}

theorem content_eq (hl : i.layout = some l) (hw : s.windowFrames l.rate = .ok window) :
    i.content s = s.content l window 0 (i.groups window) := by
  rw [content, hl]
  dsimp only
  rw [hw]

/-- Before the end, only full windows are to be written. -/
theorem content_eq_of_not_ended (hl : i.layout = some l) (hended : i.ended = false)
    (hw : s.windowFrames l.rate = .ok window) :
    i.content s = s.content l window 0 (Cut.whole window i.frames) := by
  rw [content_eq hl hw, groups, if_neg (by simp [hended])]

end Intake

namespace Extraction

/-- The intake of an extraction from calls. -/
def intake (x : Extraction) (calls : List Call) : Intake :=
  (x.kept calls).foldl (fun i entry => i.add entry.1) {}

/-! ## How far the device has come -/

/-- An extraction to a device has come as far as its intake says. -/
def Tracks (s : Settings) (i : Intake) (x : Extraction) : Prop :=
  match x.state with
  | .unconfigured => i = {} ∧ ∃ d listening, d.Blank ∧ x = toward s (.device d) listening
  | .ready => ∃ l window, i.layout = some l ∧ i.ended = false ∧
      s.windowFrames l.rate = .ok window ∧ x.Fed s l window i.frames
  | _ => x.outlet.draft.Short (i.content s) ∨
      i.ended = true ∧ x.outlet.draft.Patched (i.content s)

variable {s : Settings} {i : Intake} {x : Extraction}

theorem Tracks.of_fed {l : Layout} {window : Nat} (hl : i.layout = some l)
    (hended : i.ended = false) (hw : s.windowFrames l.rate = .ok window)
    (h : x.Fed s l window i.frames) : Tracks s i x := by
  rw [Tracks, h.state_eq]
  exact ⟨l, window, hl, hended, hw, h⟩

theorem Tracks.of_terminal (hx : x.state = .finalized ∨ x.state = .failed)
    (h : x.outlet.draft.Short (i.content s) ∨
      i.ended = true ∧ x.outlet.draft.Patched (i.content s)) : Tracks s i x := by
  rcases hx with hx | hx
  · rw [Tracks, hx]
    exact h
  · rw [Tracks, hx]
    exact h

/-- A call that configures and is not refused. -/
theorem Tracks.configure (h : Tracks s i x) {l : Layout} {granted : Bool}
    {created : Except StorageError Device}
    (hc : (x.call (.configure l granted created)).1.isRefusal = false) :
    Tracks s (i.add (.configure l granted created)) (x.call (.configure l granted created)).2 := by
  have hstate : x.state = .unconfigured := state_eq_turn hc
  rw [Tracks, hstate] at h
  obtain ⟨rfl, d, listening, hd, rfl⟩ := h
  rcases configure_cases (x := toward s (.device d) listening) rfl l granted created with
    ⟨e, ho, heq⟩ | ⟨name, cause, hfile, -⟩ | ⟨w, header, draft, ho, -, -⟩
  · have hrefused := Error.isRefusal_of_isValidation (isValidation_of_opening ho)
    rw [call, heq] at hc
    exact absurd hc (by simp [Answer.isRefusal, Except.map, hrefused])
  · cases hfile
  · obtain ⟨hl, rfl, window, hw⟩ := check_of_opening ho
    replace hw : s.windowFrames l.rate = .ok window := hw
    show Tracks s _ ((toward s (.device d) listening).configure l true created).2
    rcases configure_blank hd hl hw listening created with ⟨-, hfed⟩ | ⟨e, -, hfailed, hshort⟩
    · exact .of_fed rfl rfl hw hfed
    · -- Before the first frame there are no windows, so all there should be is the header.
      have hnone : Cut.whole window ([] : List Frame) = [] :=
        Cut.whole_of_lt (Settings.windowFrames_bounds hw).1
      refine .of_terminal (.inr hfailed) (.inl ?_)
      rw [Intake.content_eq_of_not_ended rfl rfl hw]
      show Draft.Short _ (s.content l window 0 (Cut.whole window []))
      rw [hnone]
      exact hshort

/-- A call that pushes and is not refused. -/
theorem Tracks.push (h : Tracks s i x) {b : SampleBuffer}
    (hc : (x.call (.push b)).1.isRefusal = false) :
    Tracks s (i.add (.push b)) (x.call (.push b)).2 := by
  have hstate : x.state = .ready := state_eq_turn hc
  rw [Tracks, hstate] at h
  obtain ⟨l, window, hl, hended, hw, hfed⟩ := h
  have hb : b.Fits l.channels := by
    by_contra hb
    obtain ⟨fault, heq⟩ := hfed.push_of_not_fits hb
    rw [call, heq] at hc
    cases hc
  have hadd : i.add (.push b) = { i with frames := i.frames ++ b.frames l.channels } := by
    rw [Intake.add, hl]
    rfl
  rw [hadd]
  show Tracks s _ (x.push b).2
  rcases hfed.push hb with ⟨-, hfed'⟩ | ⟨e, -, hfailed, hshort⟩
  · exact .of_fed hl hended hw hfed'
  · refine .of_terminal (.inr hfailed) (.inl ?_)
    rw [Intake.content_eq_of_not_ended
      (i := { i with frames := i.frames ++ b.frames l.channels }) hl hended hw]
    exact hshort

/-- A call that finalizes and is not refused. -/
theorem Tracks.finalize (h : Tracks s i x) (hc : (x.call .finalize).1.isRefusal = false) :
    Tracks s (i.add .finalize) (x.call .finalize).2 := by
  have hstate : x.state = .ready := state_eq_turn hc
  rw [Tracks, hstate] at h
  obtain ⟨l, window, hl, hended, hw, hfed⟩ := h
  have hcontent : (i.add .finalize).content s =
      s.content l window 0 (Cut.all window i.frames) := by
    rw [Intake.content_eq (i := i.add .finalize) hl hw]
    rfl
  show Tracks s _ x.finalize.2
  rcases hfed.finalize with ⟨hover, hpatched⟩ | ⟨hover, hshort | hpatched⟩
  · refine .of_terminal (.inl hover) (.inr ⟨rfl, ?_⟩)
    rw [hcontent]
    exact hpatched
  · refine .of_terminal (.inr hover) (.inl ?_)
    rw [hcontent]
    exact hshort
  · refine .of_terminal (.inr hover) (.inr ⟨rfl, ?_⟩)
    rw [hcontent]
    exact hpatched

/-- **One step.**  A call that is not refused keeps the device with the intake. -/
theorem Tracks.call (h : Tracks s i x) {c : Call} (hc : (x.call c).1.isRefusal = false) :
    Tracks s (i.add c) (x.call c).2 := by
  cases c with
  | configure l granted created => exact h.configure hc
  | push b => exact h.push hc
  | finalize => exact h.finalize hc

/-- A run keeps the device with the intake. -/
theorem Tracks.after (hx : x.Sound) (h : Tracks s i x) (calls : List Call) :
    Tracks s ((x.kept calls).foldl (fun i entry => i.add entry.1) i) (x.after calls) := by
  induction calls generalizing x i with
  | nil => exact h
  | cons c calls ih =>
    have hstep := stepped_call hx c
    rcases hc : (x.call c).1.isRefusal
    · rw [kept_cons hc]
      exact ih hstep.sound (h.call hc)
    · -- A refused call gives nothing and changes nothing.
      have hsame : (x.call c).2 = x := hstep.unchanged hc
      rw [kept_cons_of_refusal hx hc]
      show Tracks s _ ((x.call c).2.after calls)
      rw [hsame]
      exact ih hx h

/-- The device has a prefix of what it should have, or all of it but for the count. -/
theorem Tracks.short_or_patched (h : Tracks s i x) :
    x.outlet.draft.Short (i.content s) ∨
      i.ended = true ∧ x.outlet.draft.Patched (i.content s) := by
  rw [Tracks] at h
  split at h
  · obtain ⟨-, d, listening, hd, rfl⟩ := h
    exact .inl ⟨d, [], rfl, List.nil_prefix, hd.holds⟩
  · obtain ⟨l, window, hl, hended, hw, hfed⟩ := h
    obtain ⟨w, -, hfeeding⟩ := hfed.stage
    rw [Intake.content_eq_of_not_ended hl hended hw]
    exact .inl (hfeeding.draft.short List.prefix_rfl)
  · exact h

/-- What the log of the device says. -/
theorem Tracks.device (h : Tracks s i x) :
    ∃ device written, x.outlet.draft.device = some device ∧
      device.tape = .replay device.log ∧ (∀ c ∈ written, c.isWrite = true) ∧
      (∀ past, past <:+ written → (Tape.replay past).content <+: i.content s) ∧
      (device.log = written ∨
        i.ended = true ∧ (Tape.replay written).content = i.content s ∧
          ∃ fault, .tell fault :: written <:+ device.log) := by
  -- Short of the intake the whole log is written, otherwise the part before the query.
  rcases h.short_or_patched with ⟨d, part, hd, hpart, hholds⟩ |
    ⟨hended, d, written, fault, calls, hd, hrecorded, hlog, hwrites, hcontent, -⟩
  · refine ⟨d, d.log, hd, hholds.recorded, hholds.onlyWrites, fun past hpast => ?_, .inl rfl⟩
    have hprefix := Tape.content_replay_prefix hholds.onlyWrites hpast
    rw [← hholds.recorded] at hprefix
    exact (hholds.content_eq ▸ hprefix : (Tape.replay past).content <+: part).trans hpart
  · refine ⟨d, written, hd, hrecorded, hwrites, fun past hpast => ?_,
      .inr ⟨hended, hcontent, fault, hlog ▸ List.suffix_append _ _⟩⟩
    rw [← hcontent]
    exact Tape.content_replay_prefix hwrites hpast

/-- A device makes a call fail only on the way to the failed state. -/
theorem Move.state_of_device {state state' : CallState} {c : Call} {a : Answer}
    {cause : StorageError} (h : Move state c a state') (ha : a = .error (.device cause)) :
    state' = .failed := by
  cases h with
  | outOfTurn => cases ha
  | invalid hvalid =>
    cases ha
    cases hvalid
  | configured => cases ha
  | unopened => rfl
  | misfit => cases ha
  | pushed => cases ha
  | broken => rfl
  | finalized => cases ha
  | unfinished => rfl

/-- **Nothing but a prefix.**  After any calls to an extraction towards a blank device that
may fail at any call made to it:

* `written`, the log of the device until it was first asked for its position, has write
  calls alone, and at every moment of it the device had a prefix of what the intake makes;
* the position is asked for only once the end came, with all of it written;
* while frames are accepted, the device has a header that counts no windows and the points
  of all full windows, and as many windows are reported;
* a call that fails for the device is the last that changes the extraction: no further
  call is made to the device. -/
theorem content_of_calls (s : Settings) {d : Device} (hd : d.Blank) (listening : Bool)
    (calls : List Call) :
    let x := toward s (.device d) listening
    let now := x.after calls
    let intake := x.intake calls
    (∃ device written, now.outlet.draft.device = some device ∧
      device.tape = .replay device.log ∧ (∀ c ∈ written, c.isWrite = true) ∧
      (∀ past, past <:+ written → (Tape.replay past).content <+: intake.content s) ∧
      (device.log = written ∨
        intake.ended = true ∧ (Tape.replay written).content = intake.content s ∧
          ∃ fault, .tell fault :: written <:+ device.log)) ∧
    (now.state = .ready → ∃ l window device, intake.layout = some l ∧ intake.ended = false ∧
      s.windowFrames l.rate = .ok window ∧ now.outlet.draft.device = some device ∧
      device.content = s.content l window 0 (Cut.whole window intake.frames) ∧
      now.windows = (Cut.whole window intake.frames).length) ∧
    ∀ c cause, (now.call c).1 = .error (.device cause) →
      (now.call c).2.state = .failed ∧ ∀ more, x.after (calls ++ c :: more) = (now.call c).2 := by
  intro x now intake
  have hx : x.Sound := sound_toward s (.device d) listening
  have htracks : Tracks s intake now := by
    refine Tracks.after hx ?_ calls
    exact ⟨rfl, d, listening, hd, rfl⟩
  have hnow : now.Sound := sound_after hx calls
  refine ⟨htracks.device, fun hready => ?_, fun c cause hc => ?_⟩
  · rw [Tracks, hready] at htracks
    obtain ⟨l, window, hl, hended, hw, hfed⟩ := htracks
    obtain ⟨w, hstage, hfeeding⟩ := hfed.stage
    obtain ⟨device, hdevice, hholds⟩ := hfeeding.draft.device
    refine ⟨l, window, device, hl, hended, hw, hdevice, hholds.content_eq, ?_⟩
    rw [windows, hstage]
    exact hfeeding.draft.windows_eq
  · have hstep := stepped_call hnow c
    have hfailed : (now.call c).2.state = .failed := hstep.move.state_of_device hc
    refine ⟨hfailed, fun more => ?_⟩
    rw [after_append]
    exact after_of_terminal hstep.sound (.inr hfailed) more

/-- One channel and windows of two frames, on a device whose fifth write call fails.  The
header is taken in two goes, and the first byte of the first window is taken, but not the
second: the header and that byte are all that the device ever has. -/
theorem content_of_calls_broken :
    let settings : Settings := ⟨Binary.ofNat _ 1, false, .eight, none, .extrema⟩
    let d : Device :=
      { writeFaults := [(1, .takesAtMost 12), (2, .interrupted), (4, .takesAtMost 1),
          (5, .fails "gone")] }
    let x := toward settings (.device d) false
    let samples : List Sample := [0x3f000000, 0x3f800000, 0xbf800000].map (.ofBits _)
    let configure := Call.configure ⟨1, 2⟩ true (.error .noSpace)
    let push := Call.push (.interleaved samples)
    x.after ([configure] ++ push :: [push, .finalize]) = x.after [configure, push] ∧
      (x.after [configure, push]).outlet.draft.device.map Device.content =
        some [1, 0, 0, 0, 1, 0, 0, 0, 2, 0, 0, 0, 2, 0, 0, 0, 0, 0, 0, 0, 64] := by
  intro settings d x samples configure push
  obtain ⟨-, -, hlast⟩ := content_of_calls settings (d := d) ⟨rfl, rfl, rfl⟩ false [configure]
  refine ⟨?_, by decide +kernel⟩
  exact (hlast push (.other "gone") (by decide +kernel)).2 [push, .finalize]

/-! ## Runs to the end -/

variable {l : Layout} {window : Nat} {frames : List Frame}

/-- On a reliable device, all buffers that fit are accepted, as long as their windows can
be counted. -/
theorem Fed.pushes_of_reliable (h : x.Fed s l window frames) (hr : x.outlet.draft.Reliable)
    {buffers : List SampleBuffer}
    (hcount : (Cut.whole window (frames ++ SampleBuffer.stream l.channels buffers)).length ≤
      Draft.mostWindows) :
    let y := x.after (buffers.map .push)
    y.Fed s l window (frames ++ SampleBuffer.stream l.channels buffers) ∧
      y.outlet.draft.Reliable ∧
      x.kept (buffers.map .push) =
        (buffers.filter (·.Fits l.channels)).map fun b => (.push b, .ok none) := by
  induction buffers generalizing x frames with
  | nil =>
    have hnone : frames ++ SampleBuffer.stream l.channels [] = frames := List.append_nil _
    rw [hnone]
    exact ⟨h, hr, rfl⟩
  | cons b buffers ih =>
    by_cases hb : b.Fits l.channels
    · have hstream : SampleBuffer.stream l.channels (b :: buffers) =
          b.frames l.channels ++ SampleBuffer.stream l.channels buffers := by
        simp [SampleBuffer.stream, hb]
      rw [hstream, ← List.append_assoc] at hcount ⊢
      -- Windows once full are never fewer, so those of this buffer can be counted too.
      have hcount' : (Cut.whole window (frames ++ b.frames l.channels)).length ≤
          Draft.mostWindows := by
        refine le_trans ?_ hcount
        rw [Cut.length_whole, Cut.length_whole]
        exact Nat.div_le_div_right (List.sublist_append_left _ _).length_le
      obtain ⟨hok, hr'⟩ := h.push_of_reliable hb hr hcount'
      have hfed : (x.push b).2.Fed s l window (frames ++ b.frames l.channels) := by
        rcases h.push hb with ⟨-, hfed⟩ | ⟨e, he, -⟩
        · exact hfed
        · rw [hok] at he
          cases he
      have hanswer : (x.call (.push b)).1 = .ok none := by
        rw [call_push, hok]
        rfl
      obtain ⟨hfed', hr'', hkept⟩ := ih hfed hr' hcount
      refine ⟨hfed', hr'', ?_⟩
      rw [List.map_cons, kept_cons (by rw [hanswer]; rfl), hanswer,
        List.filter_cons_of_pos (by simpa using hb), List.map_cons]
      exact congrArg _ hkept
    · have hstream : SampleBuffer.stream l.channels (b :: buffers) =
          SampleBuffer.stream l.channels buffers := by
        simp [SampleBuffer.stream, hb]
      obtain ⟨fault, heq⟩ := h.push_of_not_fits hb
      have hrefused : (x.call (.push b)).1.isRefusal = true := by
        rw [call_push, heq]
        rfl
      have hsame : (x.call (.push b)).2 = x := by rw [call_push, heq]
      rw [hstream] at hcount ⊢
      obtain ⟨hfed', hr', hkept⟩ := ih h hr hcount
      have hafter : x.after ((b :: buffers).map .push) = x.after (buffers.map .push) := by
        rw [List.map_cons, after, List.foldl_cons, hsame]
        rfl
      dsimp only
      rw [hafter]
      refine ⟨hfed', hr', ?_⟩
      rw [List.map_cons, kept_cons_of_refusal h.sound hrefused,
        List.filter_cons_of_neg (by simpa using hb)]
      exact hkept

/-- **The whole file.**  Towards a blank device that never fails, with a layout that passes
its check and memory for its channels, buffers of any kind and size, and no more windows than
a header counts:

* the device ends up with the header of all windows, and behind it the points of each
  group of frames in order, the last group a shorter one if the frames leave a rest;
* exactly the buffers that do not fit are refused, all other calls are answered by success,
  and the end by the totals. -/
theorem content_of_run {d : Device} (hd : d.Blank) (hr : d.Reliable) (listening : Bool)
    (hl : l.check = .ok ()) (hw : s.windowFrames l.rate = .ok window)
    (created : Except StorageError Device) (buffers : List SampleBuffer)
    (hcount : (Cut.all window (SampleBuffer.stream l.channels buffers)).length ≤
      Draft.mostWindows) :
    let x := toward s (.device d) listening
    let calls := Call.configure l true created :: buffers.map Call.push ++ [Call.finalize]
    let frames := SampleBuffer.stream l.channels buffers
    let groups := Cut.all window frames
    let bytes := s.content l window groups.length groups
    let summary : Summary :=
      { windows := groups.length
        frames := frames.length
        size := bytes.length
        partialWindow := frames.length % window ≠ 0 }
    (x.after calls).outlet.draft.device.map Device.content = some bytes ∧
      x.kept calls =
        (Call.configure l true created, .ok none) ::
          (buffers.filter (·.Fits l.channels)).map (fun b => (Call.push b, .ok none)) ++
          [(Call.finalize, .ok (some summary))] := by
  intro x calls frames groups bytes summary
  -- The full windows, written while buffers come, are no more than all windows.
  have hgroups : (Cut.whole window ([] ++ frames)).length ≤ Draft.mostWindows := by
    refine le_trans ?_ hcount
    rw [List.nil_append, Cut.all, List.length_append]
    exact Nat.le_add_right _ _
  obtain ⟨hok, hfed, hr'⟩ := fed_of_configure hd hr hl hw listening created
  obtain ⟨hfed', hr'', hkept⟩ := hfed.pushes_of_reliable hr' hgroups
  obtain ⟨hsummary, device, hdevice, hcontent⟩ := hfed'.finalize_of_reliable hr'' hcount
  have hconfigure : (x.call (.configure l true created)).1 = .ok none := by
    rw [call_configure, hok]
    rfl
  have hfinalize : (((x.configure l true created).2.after (buffers.map .push)).call .finalize).1 =
      .ok (some summary) := by
    rw [call_finalize, hsummary]
    rfl
  constructor
  · have hafter : x.after calls =
        ((x.configure l true created).2.after (buffers.map .push)).finalize.2 :=
      after_append (x.configure l true created).2 (buffers.map .push) [.finalize]
    rw [hafter, hdevice]
    exact congrArg some hcontent
  · have hend : ∀ y : Extraction, (y.call .finalize).1.isRefusal = false →
        y.kept [.finalize] = [(.finalize, (y.call .finalize).1)] := fun y hy => kept_cons hy []
    show x.kept (.configure l true created :: (buffers.map .push ++ [.finalize])) = _
    rw [kept_cons (by rw [hconfigure]; rfl), hconfigure, call_configure, kept_append, hkept,
      hend _ (by rw [hfinalize]; rfl), hfinalize]
    rfl

/-- Two channels, their means, and windows of two frames, on a device that takes at most
five bytes at a time.  One buffer has half a frame too much. -/
theorem content_of_run_mean :
    let settings : Settings := ⟨Binary.ofNat _ 1, false, .eight, none, .extrema⟩
    let d : Device := { writeFaults := [(1, .interrupted), (3, .takesAtMost 1)], transfer := some 5 }
    let half : Sample := .ofBits _ 0x3f000000
    let one : Sample := .ofBits _ 0x3f800000
    let minusOne : Sample := .ofBits _ 0xbf800000
    let buffers : List SampleBuffer := [.interleaved [half, one, one, half], .interleaved [one],
      .planar [[minusOne], [minusOne, one]] 1]
    let calls :=
      Call.configure ⟨2, 2⟩ true (.error .noSpace) :: buffers.map Call.push ++ [Call.finalize]
    ((toward settings (.device d) false).after calls).outlet.draft.device.map Device.content =
      some [1, 0, 0, 0, 1, 0, 0, 0, 2, 0, 0, 0, 2, 0, 0, 0, 2, 0, 0, 0, 64, 127, 129, 129] := by
  intro settings d half one minusOne buffers calls
  have hd : d.Reliable := ⟨by simp [d], rfl, rfl, by decide, rfl⟩
  have hw : settings.windowFrames 2 = .ok 2 := by decide +kernel
  have hcount : (Cut.all 2 (SampleBuffer.stream 2 buffers)).length ≤ Draft.mostWindows := by
    decide +kernel
  have hrun := content_of_run (l := ⟨2, 2⟩) ⟨rfl, rfl, rfl⟩ hd false rfl hw (.error .noSpace)
    buffers hcount
  rw [hrun.1]
  decide +kernel

end Extraction

end Peakfile
