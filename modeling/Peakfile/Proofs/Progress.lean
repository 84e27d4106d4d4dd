/-
# How far a run comes

Towards a device that never fails, it is decided by the calls alone how far an extraction
comes: which layout it takes, which frames, and whether it ends with all windows or with more
than a header counts.  `Progress.next` says what one call adds to that, whether or not there
is an extraction, and every call to an extraction keeps it there (`Extraction.Stands.call`).
So after any calls the bytes on the device are known, however many windows there are
(`Extraction.bytesAfter_of_reliable`).
-/
import Peakfile.Proofs.Blocks

namespace Peakfile

/-- The length of a window is decided by its seconds alone. -/
theorem Settings.windowFrames_congr {s t : Settings} (h : s.seconds = t.seconds) (rate : UInt32) :
    s.windowFrames rate = t.windowFrames rate := by
  have hcheck : s.check = t.check := by rw [check, check, h]
  unfold windowFrames
  rw [hcheck, h]

/-! ## Progress -/

/-- How far an extraction has come. -/
inductive Progress where
  /-- Without a layout. -/
  | blank
  /-- With a layout and a window length, and these frames taken. -/
  | accepting (l : Layout) (window : Nat) (frames : List Frame)
  /-- At an end, with these groups of frames written and so many of them counted. -/
  | closed (l : Layout) (window count : Nat) (groups : List (List Frame))

namespace Progress

/-- The end with groups of frames: all of them, or as many as a header counts, which then are
not counted. -/
def close (l : Layout) (window : Nat) (groups : List (List Frame)) : Progress :=
  if groups.length ≤ Draft.mostWindows then .closed l window groups.length groups
  else .closed l window 0 (groups.take Draft.mostWindows)

/-- One more call.  Layouts and buffers that do not fit, memory that is refused, and calls out
of turn, leave everything as it is. -/
def next (s : Settings) : Progress → Extraction.Call → Progress
  | .blank, .configure l granted _ =>
    match l.check, s.windowFrames l.rate with
    | .ok (), .ok window => if granted then .accepting l window [] else .blank
    | _, _ => .blank
  | .accepting l window frames, .push b =>
    if b.Fits l.channels then
      let groups := Cut.whole window (frames ++ b.frames l.channels)
      if groups.length ≤ Draft.mostWindows then
        .accepting l window (frames ++ b.frames l.channels)
      else .close l window groups
    else .accepting l window frames
  | .accepting l window frames, .finalize => .close l window (Cut.all window frames)
  | p, _ => p

/-- Calls one after the other, from the start. -/
def ofCalls (s : Settings) (calls : List Extraction.Call) : Progress :=
  calls.foldl (next s) .blank

/-- The groups of frames that are written. -/
def groups : Progress → List (List Frame)
  | blank => []
  | accepting _ window frames => Cut.whole window frames
  | closed _ _ _ groups => groups

/-- Samples of a frame. -/
def channels : Progress → Nat
  | blank => 0
  | accepting l _ _ => l.channels
  | closed l _ _ _ => l.channels

/-- The bytes that are written. -/
def content (s : Settings) : Progress → List UInt8
  | blank => []
  | accepting l window frames => s.content l window 0 (Cut.whole window frames)
  | closed l window count groups => s.content l window count groups

/-- Of the settings, only the seconds of a window make a difference to the progress. -/
theorem next_congr {s t : Settings} (h : s.seconds = t.seconds) : next s = next t := by
  have hframes : ∀ rate, s.windowFrames rate = t.windowFrames rate := fun rate =>
    Settings.windowFrames_congr h rate
  funext p c
  cases p <;> cases c <;> simp only [next, hframes]

theorem ofCalls_congr {s t : Settings} (h : s.seconds = t.seconds)
    (calls : List Extraction.Call) : ofCalls s calls = ofCalls t calls := by
  rw [ofCalls, ofCalls, next_congr h]

end Progress

/-! ## More windows than a header counts, at the end -/

namespace Extraction

variable {s : Settings} {l : Layout} {window : Nat} {frames : List Frame} {x : Extraction}

/-- If the count is full and frames are left, finalizing fails and writes nothing. -/
theorem Fed.finalize_overflow (h : x.Fed s l window frames)
    (hle : (Cut.whole window frames).length ≤ Draft.mostWindows)
    (hcount : Draft.mostWindows < (Cut.all window frames).length) :
    x.finalize.1 = .error .tooManyWindows ∧ x.finalize.2.state = .failed ∧
      x.finalize.2.outlet.draft.Holds
        (s.content l window 0 ((Cut.all window frames).take Draft.mostWindows))
        Draft.mostWindows := by
  obtain ⟨w, hstage, hfeeding⟩ := h.stage
  have hrest : Cut.rest window frames ≠ [] := by
    intro hrest
    rw [Cut.all_of_rest_eq_nil hrest] at hcount
    omega
  have hall := Cut.all_of_rest_ne_nil hrest
  have hfull : (Cut.whole window frames).length = Draft.mostWindows := by
    rw [hall, List.length_append, List.length_singleton] at hcount
    omega
  have hdraft := hfeeding.draft
  rw [hfull] at hdraft
  have hflush : w.flush (Outlet.receive x.settings) x.outlet = (.error .tooManyWindows, w.reopen,
      x.outlet.report
        (ChannelExtrema.ofFrames s.anchor l.channels (Cut.rest window frames)).extrema) := by
    rw [Windower.flush_eq _ hfeeding.held, if_neg hrest, Outlet.receive_full _ hdraft]
    rfl
  have hfinalize : x.finalize = (.error .tooManyWindows,
      { x with
        outlet := x.outlet.report
          (ChannelExtrema.ofFrames s.anchor l.channels (Cut.rest window frames)).extrema
        stage := .failed }) := by
    rcases finalize_cases hstage with ⟨cause, w', o', hflush', heq⟩ | ⟨_, w', o', hflush', -⟩
    · rw [hflush] at hflush'
      cases hflush'
      exact heq
    · rw [hflush] at hflush'
      cases hflush'
  rw [hfinalize, hall, ← hfull, List.take_left]
  rw [← hfull] at hdraft
  exact ⟨rfl, rfl, hdraft⟩

/-! ## Extractions that have come so far -/

/-- An extraction to a device that never fails has come so far. -/
inductive Stands (s : Settings) : Progress → Extraction → Prop
  | blank {d : Device} (blank : d.Blank) (reliable : d.Reliable) (listening : Bool) :
      Stands s .blank (toward s (.device d) listening)
  | accepting {l : Layout} {window : Nat} {frames : List Frame} {x : Extraction}
      (fed : x.Fed s l window frames) (reliable : x.outlet.draft.Reliable)
      (counted : (Cut.whole window frames).length ≤ Draft.mostWindows) :
      Stands s (.accepting l window frames) x
  | closed {l : Layout} {window count : Nat} {groups : List (List Frame)} {x : Extraction}
      (sound : x.Sound) (terminal : x.state = .finalized ∨ x.state = .failed)
      (content : x.outlet.draft.device.map Device.content = some (s.content l window count groups)) :
      Stands s (.closed l window count groups) x

namespace Stands

variable {p : Progress}

/-- A call that configures. -/
theorem configure {d : Device} (hd : d.Blank) (hr : d.Reliable) (listening : Bool) (l : Layout)
    (granted : Bool) (created : Except StorageError Device) :
    Stands s (Progress.blank.next s (.configure l granted created))
      ((toward s (.device d) listening).configure l granted created).2 := by
  have hfile : ∀ name, (toward s (.device d) listening).destination ≠ .file name :=
    fun name hname => by cases hname
  have heq := configure_eq (x := toward s (.device d) listening) rfl hfile l granted created
  rcases ho : (toward s (.device d) listening).opening l granted with cause | start
  · -- What does not open is refused by one of the two checks, or for want of memory.
    have hnext : Progress.blank.next s (.configure l granted created) = .blank := by
      rw [Progress.next]
      rcases hl : l.check with _ | _
      · rfl
      · rcases hw : s.windowFrames l.rate with _ | window
        · rfl
        · cases granted
          · rfl
          · have hopens := opening_eq (x := toward s (.device d) listening) hl hw
            rw [hopens] at ho
            cases ho
    rw [ho] at heq
    rw [hnext, heq]
    exact .blank hd hr listening
  · obtain ⟨hl, rfl, window, hw⟩ := check_of_opening ho
    replace hw : s.windowFrames l.rate = .ok window := hw
    obtain ⟨-, hfed, hr'⟩ := fed_of_configure hd hr hl hw listening created
    have hnone : Cut.whole window ([] : List Frame) = [] :=
      Cut.whole_of_lt (Settings.windowFrames_bounds hw).1
    rw [Progress.next, hl, hw]
    exact .accepting hfed hr' (by rw [hnone]; exact Nat.zero_le _)

/-- An extraction at its end with more windows than a header counts. -/
theorem of_overflow (hx : x.Sound) (hfailed : x.state = .failed) {groups : List (List Frame)}
    (hcount : Draft.mostWindows < groups.length)
    (hholds : x.outlet.draft.Holds (s.content l window 0 (groups.take Draft.mostWindows))
      Draft.mostWindows) : Stands s (.close l window groups) x := by
  obtain ⟨device, hdevice, hdraft⟩ := hholds.device
  rw [Progress.close, if_neg (Nat.not_le.2 hcount)]
  refine .closed hx (.inr hfailed) ?_
  rw [hdevice]
  exact congrArg some hdraft.content_eq

/-- A call that pushes. -/
theorem push (h : x.Fed s l window frames) (hr : x.outlet.draft.Reliable)
    (hle : (Cut.whole window frames).length ≤ Draft.mostWindows) (b : SampleBuffer) :
    Stands s ((Progress.accepting l window frames).next s (.push b)) (x.push b).2 := by
  have hsound : (x.push b).2.Sound := (stepped_push h.sound h.state_eq b).sound
  rw [Progress.next]
  by_cases hb : b.Fits l.channels
  · rw [if_pos hb]
    dsimp only
    split_ifs with hcount
    · obtain ⟨hok, hr'⟩ := h.push_of_reliable hb hr hcount
      rcases h.push hb with ⟨-, hfed⟩ | ⟨e, he, -⟩
      · exact .accepting hfed hr' hcount
      · rw [hok] at he
        cases he
    · have hmany := Nat.lt_of_not_le hcount
      obtain ⟨-, hfailed, hholds⟩ := h.push_overflow hb hr hle hmany
      exact .of_overflow hsound hfailed hmany hholds
  · obtain ⟨fault, heq⟩ := h.push_of_not_fits hb
    rw [if_neg hb, heq]
    exact .accepting h hr hle

/-- A call that finalizes. -/
theorem finalize (h : x.Fed s l window frames) (hr : x.outlet.draft.Reliable)
    (hle : (Cut.whole window frames).length ≤ Draft.mostWindows) :
    Stands s ((Progress.accepting l window frames).next s .finalize) x.finalize.2 := by
  have hstep := stepped_finalize h.sound h.state_eq
  rw [Progress.next]
  rcases Nat.lt_or_ge Draft.mostWindows (Cut.all window frames).length with hmany | hcount
  · obtain ⟨-, hfailed, hholds⟩ := h.finalize_overflow hle hmany
    exact .of_overflow hstep.sound hfailed hmany hholds
  · obtain ⟨hok, device, hdevice, hcontent⟩ := h.finalize_of_reliable hr hcount
    rw [Progress.close, if_pos hcount]
    refine .closed hstep.sound ?_ ?_
    · rcases h.finalize with ⟨hfinalized, -⟩ | ⟨hfailed, -⟩
      · exact .inl hfinalized
      · exact .inr hfailed
    · rw [hdevice]
      exact congrArg some hcontent

/-- **One step.**  Every call keeps the extraction where the calls say. -/
theorem call (h : Stands s p x) (c : Call) : Stands s (p.next s c) (x.call c).2 := by
  cases h with
  | blank hd hr listening =>
    cases c with
    | configure l granted created => exact configure hd hr listening l granted created
    | push b => exact .blank hd hr listening
    | finalize => exact .blank hd hr listening
  | @accepting l window frames x hfed hr hle =>
    cases c with
    | configure l' granted created =>
      have hturn : x.state ≠ (Call.configure l' granted created).turn := by
        rw [hfed.state_eq]
        nofun
      rw [call_of_ne_turn hturn]
      exact .accepting hfed hr hle
    | push b => exact push hfed hr hle b
    | finalize => exact finalize hfed hr hle
  | @closed l window count groups x hx hterminal hcontent =>
    have hsame : (x.call c).2 = x := after_of_terminal hx hterminal [c]
    have hnext : (Progress.closed l window count groups).next s c = .closed l window count groups := by
      cases c <;> rfl
    rw [hsame, hnext]
    exact .closed hx hterminal hcontent

/-- **A run.**  All calls keep it there. -/
theorem after (h : Stands s p x) (calls : List Call) :
    Stands s (calls.foldl (Progress.next s) p) (x.after calls) := by
  induction calls generalizing p x with
  | nil => exact h
  | cons c calls ih => exact ih (h.call c)

/-- What is on the device. -/
theorem content (h : Stands s p x) :
    x.outlet.draft.device.map Device.content = some (p.content s) := by
  cases h with
  | blank hd => exact congrArg some hd.holds.content_eq
  | accepting hfed =>
    obtain ⟨w, -, hfeeding⟩ := hfed.stage
    obtain ⟨device, hdevice, hdraft⟩ := hfeeding.draft.device
    rw [hdevice]
    exact congrArg some hdraft.content_eq
  | closed _ _ hcontent => exact hcontent

end Stands

/-- The bytes on a device after calls to an extraction towards it. -/
def bytesAfter (s : Settings) (d : Device) (listening : Bool) (calls : List Call) :
    Option (List UInt8) :=
  ((toward s (.device d) listening).after calls).outlet.draft.device.map Device.content

/-- After any calls to an extraction towards a blank device that never fails, the device has
the bytes that the calls come to. -/
theorem bytesAfter_of_reliable (s : Settings) {d : Device} (hd : d.Blank) (hr : d.Reliable)
    (listening : Bool) (calls : List Call) :
    bytesAfter s d listening calls = some ((Progress.ofCalls s calls).content s) :=
  ((Stands.blank hd hr listening).after calls).content

end Extraction

end Peakfile
