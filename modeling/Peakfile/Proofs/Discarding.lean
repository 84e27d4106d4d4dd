/-
# Extractions without a destination

Without a device a draft counts windows and writes nothing.  Nothing else looks at the
device: forgetting it, with the bytes counted for it, turns a draft into one that goes
nowhere (`Draft.discarded`), and an extraction likewise.  Every operation commutes with
forgetting, as long as it is not the device that fails it, so an extraction without a
destination is answered like one whose device never fails, but for the size of the file.
-/
import Peakfile.Proofs.Content

namespace Peakfile

namespace Error

/-- Whether it is the device that failed. -/
def isDevice : Error → Bool
  | device _ => true
  | _ => false

end Error

/-- A result that is no failure of the device. -/
def Spared {α : Type} (r : Except Error α) : Prop := ∀ e, r = .error e → ¬ e.isDevice = true

section Spared

variable {α : Type} {e : Error}

theorem spared_ok (a : α) : Spared (.ok a : Except Error α) := fun _ h => by cases h

theorem spared_error (h : e.isDevice = false) : Spared (.error e : Except Error α) := by
  intro e' he
  obtain rfl : e = e' := Except.error.inj he
  exact Bool.eq_false_iff.1 h

theorem Spared.isDevice_eq (h : Spared (.error e : Except Error α)) : e.isDevice = false :=
  Bool.eq_false_iff.2 (h e rfl)

end Spared

/-! ## Drafts -/

namespace Draft

/-- A draft without its device, and without the bytes written to it. -/
def discarded (t : Draft) : Draft := { t with device := none, size := 0 }

/-- Without a device, bytes are put nowhere. -/
theorem put_discarded (t : Draft) (bytes : List UInt8) (h : Spared (t.put bytes).1) :
    t.discarded.put bytes = ((t.put bytes).1, (t.put bytes).2.discarded) := by
  have hnowhere : t.discarded.put bytes = (.ok (), t.discarded) := rfl
  rw [hnowhere]
  unfold put at h ⊢
  rcases hd : t.device with _ | d
  · rfl
  · rw [hd] at h
    dsimp only at h ⊢
    rcases hw : d.writeAll bytes with ⟨cause | _, d'⟩
    · rw [hw] at h
      cases h.isDevice_eq
    · rfl

/-- Without a device, a header is written once all the same. -/
theorem writeHeader_discarded (t : Draft) (header : Header)
    (h : Spared (t.writeHeader header).1) :
    t.discarded.writeHeader header =
      ((t.writeHeader header).1, (t.writeHeader header).2.discarded) := by
  have hwritten : t.discarded.headerWritten = t.headerWritten := rfl
  rw [writeHeader] at h ⊢
  rw [writeHeader, hwritten]
  split_ifs at h ⊢
  · rfl
  · exact put_discarded _ _ h

/-- Without a device, windows are counted all the same. -/
theorem appendWindow_discarded (t : Draft) (points : List UInt8)
    (h : Spared (t.appendWindow points).1) :
    t.discarded.appendWindow points =
      ((t.appendWindow points).1, (t.appendWindow points).2.discarded) := by
  have hcount : t.discarded.windows = t.windows := rfl
  have hwritten : t.discarded.headerWritten = t.headerWritten := rfl
  rw [appendWindow, append] at h ⊢
  rw [appendWindow, append, hcount, hwritten]
  split_ifs at h ⊢
  · rfl
  · have hput := t.put_discarded points
    rcases hr : t.put points with ⟨cause | _, t'⟩
    · rw [hr] at h hput
      rw [hput h]
    · rw [hr] at hput
      rw [hput (spared_ok _)]
      rfl
  · rfl

/-- Without a device, a draft is finished with no bytes. -/
theorem finish_discarded (t : Draft) (h : Spared t.finish.1) :
    t.discarded.finish = (t.finish.1.map fun _ => 0, t.finish.2.discarded) := by
  have hwritten : t.discarded.headerWritten = t.headerWritten := rfl
  have hnone : t.discarded.device = none := rfl
  rw [finish] at h ⊢
  rw [finish, hwritten, hnone]
  split_ifs at h ⊢
  · rcases hd : t.device with _ | d
    · rfl
    · rw [hd] at h
      dsimp only at h ⊢
      rcases hp : patchCount d t.windows with ⟨cause | _, d'⟩
      · rw [hp] at h
        cases h.isDevice_eq
      · rfl
  · rfl

end Draft

namespace Outlet

/-- What leaves an extraction that goes nowhere. -/
def discarded (o : Outlet) : Outlet := { o with draft := o.draft.discarded }

/-- Without a device, a window is received and reported all the same. -/
theorem receive_discarded (s : Settings) (extrema : List Extrema) (o : Outlet)
    (h : Spared (receive s extrema o).1) :
    receive s extrema o.discarded =
      ((receive s extrema o).1, (receive s extrema o).2.discarded) := by
  have hdraft := o.draft.appendWindow_discarded (s.encodeWindow extrema) h
  have hreceive : receive s extrema o.discarded =
      ((o.draft.discarded.appendWindow (s.encodeWindow extrema)).1,
        { o.report extrema with
          draft := (o.draft.discarded.appendWindow (s.encodeWindow extrema)).2 }) := rfl
  rw [hreceive, hdraft]
  rfl

end Outlet

namespace Windower

variable {s : Settings} {o : Outlet}

/-- Without a device, a buffer is consumed all the same. -/
theorem consume_discarded (w : Windower) (b : SampleBuffer)
    (h : Spared (w.consume (Outlet.receive s) b o).1) :
    w.consume (Outlet.receive s) b o.discarded =
      let r := w.consume (Outlet.receive s) b o
      (r.1, r.2.1, r.2.2.discarded) := by
  rw [consume_eq] at h ⊢
  rw [consume_eq]
  rcases hf : w.fault? b with _ | fault
  · rw [hf] at h
    exact addFrames_map (Outlet.receive_discarded s) w (b.frames w.channels) o h
  · rfl

end Windower

/-! ## Extractions -/

/-- Totals without the size of a file. -/
def Summary.discarded (summary : Summary) : Summary := { summary with size := 0 }

/-- Where an extraction that goes nowhere stands. -/
def Stage.discarded : Stage → Stage
  | finalized summary => finalized summary.discarded
  | stage => stage

namespace Extraction

/-- The extraction that goes nowhere. -/
def discarded (x : Extraction) : Extraction where
  settings := x.settings
  destination := .nowhere
  outlet := x.outlet.discarded
  stage := x.stage.discarded

/-- The same answer without the size of a file. -/
def Answer.discarded (a : Answer) : Answer := a.map (·.map Summary.discarded)

/-- Whether an answer is that the device failed. -/
def Answer.isDevice : Answer → Bool
  | .error e => e.isDevice
  | .ok _ => false

variable {x : Extraction}

theorem state_discarded (x : Extraction) : x.discarded.state = x.state := by
  unfold state discarded
  cases x.stage <;> rfl

theorem windows_discarded (x : Extraction) : x.discarded.windows = x.windows := by
  unfold windows discarded
  cases x.stage <;> rfl

theorem windowFrames?_discarded (x : Extraction) : x.discarded.windowFrames? = x.windowFrames? := by
  unfold windowFrames? discarded
  cases x.stage <;> rfl

/-- Extractions that go nowhere begin alike. -/
theorem discarded_toward (s : Settings) (d : Device) (listening : Bool) :
    (toward s (.device d) listening).discarded = toward s .nowhere listening := rfl

/-- Without a destination, an extraction is configured all the same. -/
theorem configure_discarded (hs : x.stage = .unconfigured)
    (hx : ∀ name, x.destination ≠ .file name) (l : Layout) (granted : Bool)
    (created : Except StorageError Device)
    (h : Spared (x.configure l granted created).1) :
    x.discarded.configure l granted created =
      ((x.configure l granted created).1, (x.configure l granted created).2.discarded) := by
  have hs' : x.discarded.stage = .unconfigured := congrArg Stage.discarded hs
  have hopening : x.discarded.opening l granted = x.opening l granted := by
    simp only [opening, discarded]
  rw [configure_eq hs hx] at h ⊢
  rw [configure_eq hs' (fun name hname => by cases hname), hopening]
  rcases ho : x.opening l granted with cause | ⟨windower, header⟩
  · rfl
  · have hdraft := x.outlet.draft.writeHeader_discarded header
    have houtlet : x.discarded.outlet.draft = x.outlet.draft.discarded := rfl
    rw [ho] at h
    dsimp only at h ⊢
    rw [houtlet]
    rcases hr : x.outlet.draft.writeHeader header with ⟨cause | _, draft⟩
    · rw [hr] at h hdraft
      rw [hdraft h]
      rfl
    · rw [hr] at hdraft
      rw [hdraft (spared_ok _)]
      rfl

/-- Without a destination, a buffer is pushed all the same. -/
theorem push_discarded {w : Windower} (hs : x.stage = .ready w) (b : SampleBuffer)
    (h : Spared (x.push b).1) : x.discarded.push b = ((x.push b).1, (x.push b).2.discarded) := by
  have hs' : x.discarded.stage = .ready w := congrArg Stage.discarded hs
  have hconsume : ∀ o, consume x.settings w b o =
      w.consume (Outlet.receive x.settings) b o := fun o => by cases b <;> rfl
  have hconsumed := w.consume_discarded (s := x.settings) (o := x.outlet) b
  rw [← hconsume, ← hconsume] at hconsumed
  have hsame : consume x.discarded.settings w b x.discarded.outlet =
      consume x.settings w b x.outlet.discarded := rfl
  unfold push at h ⊢
  rw [hs] at h ⊢
  rw [hs']
  dsimp only at h ⊢
  rw [hsame]
  rcases hr : consume x.settings w b x.outlet with ⟨cause | _, w', o'⟩
  · rw [hr] at h hconsumed
    -- Whatever the cause is, it is the same with and without the device.
    cases cause with
    | device cause => cases h.isDevice_eq
    | _ =>
      rw [hconsumed (spared_error rfl)]
      rfl
  · rw [hr] at hconsumed
    rw [hconsumed (spared_ok _)]
    rfl

/-- Without a destination, an extraction is finalized all the same, but for the size. -/
theorem finalize_discarded {w : Windower} (hs : x.stage = .ready w) (h : Spared x.finalize.1) :
    x.discarded.finalize = (x.finalize.1.map Summary.discarded, x.finalize.2.discarded) := by
  have hs' : x.discarded.stage = .ready w := congrArg Stage.discarded hs
  have hflushed := Windower.flush_map (Outlet.receive_discarded x.settings) w x.outlet
  have hsame : w.flush (Outlet.receive x.discarded.settings) x.discarded.outlet =
      w.flush (Outlet.receive x.settings) x.outlet.discarded := rfl
  unfold finalize at h ⊢
  rw [hs] at h ⊢
  rw [hs']
  dsimp only at h ⊢
  rw [hsame]
  rcases hr : w.flush (Outlet.receive x.settings) x.outlet with ⟨cause | partialWindow, w', o'⟩
  · rw [hr] at h hflushed
    rw [hflushed (spared_error h.isDevice_eq)]
    rfl
  · rw [hr] at h hflushed
    rw [hflushed (spared_ok _)]
    dsimp only at h ⊢
    have hfinished := o'.draft.finish_discarded
    have hdraft : o'.discarded.draft = o'.draft.discarded := rfl
    rw [hdraft]
    rcases hf : o'.draft.finish with ⟨cause | size, draft⟩
    · rw [hf] at h hfinished
      rw [hfinished (spared_error h.isDevice_eq)]
      rfl
    · rw [hf] at hfinished
      rw [hfinished (spared_ok _)]
      rfl

/-- An answer that does not say that the device failed. -/
theorem spared_of_map {α : Type} {r : Except Error α} {f : α → Option Summary}
    (h : Answer.isDevice (r.map f) = false) : Spared r := by
  rcases r with e | a
  · exact spared_error h
  · exact spared_ok a

/-- **One step.**  Without a destination, a call is answered all the same, but for the size. -/
theorem call_discarded (hx : ∀ name, x.destination ≠ .file name) (c : Call)
    (h : (x.call c).1.isDevice = false) :
    x.discarded.call c = ((x.call c).1.discarded, (x.call c).2.discarded) := by
  have hstate := x.state_discarded
  by_cases hs : x.state = c.turn
  · cases c with
    | configure l granted created =>
      have hsame := configure_discarded (stage_eq_unconfigured hs) hx l granted created
        (spared_of_map h)
      rw [call_configure, call_configure, hsame]
      cases (x.configure l granted created).1 <;> rfl
    | push b =>
      obtain ⟨w, hstage⟩ := exists_stage_eq_ready hs
      have hsame := push_discarded hstage b (spared_of_map h)
      rw [call_push, call_push, hsame]
      cases (x.push b).1 <;> rfl
    | finalize =>
      obtain ⟨w, hstage⟩ := exists_stage_eq_ready hs
      have hsame := finalize_discarded hstage (spared_of_map h)
      rw [call_finalize, call_finalize, hsame]
      cases x.finalize.1 <;> rfl
  · rw [call_of_ne_turn hs, call_of_ne_turn (hstate.trans_ne hs), hstate]
    rfl

/-! ## Runs -/

/-- The device makes none of the calls fail. -/
def Unfailing (x : Extraction) (calls : List Call) : Prop :=
  ∀ entry ∈ x.transcript calls, entry.2.isDevice = false

/-- Without a destination, a run is the same, but for the size. -/
theorem run_discarded (hx : ∀ name, x.destination ≠ .file name) {calls : List Call}
    (h : x.Unfailing calls) :
    x.discarded.transcript calls =
        (x.transcript calls).map (fun entry => (entry.1, entry.2.discarded)) ∧
      x.discarded.after calls = (x.after calls).discarded := by
  induction calls generalizing x with
  | nil => exact ⟨rfl, rfl⟩
  | cons c calls ih =>
    have hcall := call_discarded hx c (h _ List.mem_cons_self)
    have hx' : ∀ name, (x.call c).2.destination ≠ .file name := by
      rw [destination_call]
      exact hx
    obtain ⟨htranscript, hafter⟩ :=
      ih hx' fun entry hentry => h entry (List.mem_cons_of_mem _ hentry)
    constructor
    · rw [transcript, hcall, htranscript]
      rfl
    · rw [after, List.foldl_cons, hcall]
      exact hafter

end Extraction

/-! ## Devices that never fail -/

namespace Draft

variable {t : Draft}

/-- A reliable device takes a header, if it is the first. -/
theorem Reliable.writeHeader (h : t.Reliable) (header : Header) :
    (t.writeHeader header).2.Reliable ∧ Spared (t.writeHeader header).1 := by
  have hnext : Reliable { t with headerWritten := true } := h
  obtain ⟨hok, hreliable⟩ := hnext.put { header with windows := 0 }.encode
  rw [Draft.writeHeader]
  split_ifs
  · exact ⟨h, spared_error rfl⟩
  · exact ⟨hreliable, hok ▸ spared_ok ()⟩

/-- On a reliable device, a window is refused only if it cannot be counted or comes before
the header. -/
theorem Reliable.appendWindow_spared (h : t.Reliable) (points : List UInt8) :
    (t.appendWindow points).2.Reliable ∧ Spared (t.appendWindow points).1 := by
  obtain ⟨hok, hreliable⟩ := h.put points
  rw [Draft.appendWindow, append]
  split_ifs
  · exact ⟨h, spared_error rfl⟩
  · rcases hr : t.put points with ⟨answer, t'⟩
    rw [hr] at hok hreliable
    obtain rfl : answer = .ok () := hok
    exact ⟨hreliable, spared_ok _⟩
  · exact ⟨h, spared_error rfl⟩

/-- On a reliable device, a draft with a header is finished. -/
theorem Reliable.finish (h : t.Reliable) :
    t.finish.2.Reliable ∧ Spared t.finish.1 := by
  rw [Draft.finish]
  split_ifs
  · rcases hd : t.device with _ | d
    · exact ⟨h, spared_ok _⟩
    · obtain ⟨d', hpatch, -, hd'⟩ := patchCount_accepted (h d hd) t.windows
      dsimp only
      rw [hpatch]
      refine ⟨fun d'' hd'' => ?_, spared_ok _⟩
      obtain rfl : d' = d'' := Option.some.inj hd''
      exact hd'
  · exact ⟨h, spared_error rfl⟩

end Draft

/-- On a reliable device, a window is never refused for the device. -/
theorem Outlet.receive_keeps_reliable (s : Settings) (extrema : List Extrema) (o : Outlet)
    (h : o.draft.Reliable) :
    (receive s extrema o).2.draft.Reliable ∧ Spared (receive s extrema o).1 :=
  h.appendWindow_spared _

namespace Extraction

variable {x : Extraction}

/-- On a reliable device, no call fails for the device. -/
theorem call_of_reliable (hx : ∀ name, x.destination ≠ .file name)
    (hr : x.outlet.draft.Reliable) (c : Call) :
    (x.call c).1.isDevice = false ∧ (x.call c).2.outlet.draft.Reliable := by
  by_cases hs : x.state = c.turn
  · cases c with
    | configure l granted created =>
      rw [call_configure, configure_eq (stage_eq_unconfigured hs) hx]
      rcases ho : x.opening l granted with e | ⟨windower, header⟩
      · have hvalid := isValidation_of_opening ho
        refine ⟨?_, hr⟩
        cases e <;> first | rfl | cases hvalid
      · obtain ⟨hkept, herror⟩ := hr.writeHeader header
        dsimp only
        rcases hw : x.outlet.draft.writeHeader header with ⟨cause | _, draft⟩
        · rw [hw] at hkept herror
          exact ⟨Spared.isDevice_eq herror, hkept⟩
        · rw [hw] at hkept
          exact ⟨rfl, hkept⟩
    | push b =>
      obtain ⟨w, hstage⟩ := exists_stage_eq_ready hs
      have hconsume : consume x.settings w b x.outlet =
          w.consume (Outlet.receive x.settings) b x.outlet := by cases b <;> rfl
      have hkeeps : (w.consume (Outlet.receive x.settings) b x.outlet).2.2.draft.Reliable ∧
          Spared (w.consume (Outlet.receive x.settings) b x.outlet).1 := by
        rw [Windower.consume_eq]
        rcases w.fault? b with _ | fault
        · exact Windower.addFrames_keeps (Outlet.receive_keeps_reliable x.settings) w _ hr
        · exact ⟨hr, spared_error rfl⟩
      rw [call_push, push, hstage]
      dsimp only
      rw [hconsume]
      obtain ⟨hkept, herror⟩ := hkeeps
      rcases hr : w.consume (Outlet.receive x.settings) b x.outlet with ⟨cause | _, w', o'⟩
      · rw [hr] at hkept herror
        have hcause : cause.isDevice = false := Spared.isDevice_eq herror
        cases cause <;> first | exact ⟨rfl, hkept⟩ | cases hcause
      · rw [hr] at hkept
        exact ⟨rfl, hkept⟩
    | finalize =>
      obtain ⟨w, hstage⟩ := exists_stage_eq_ready hs
      obtain ⟨hkept, herror⟩ :=
        Windower.flush_keeps (Outlet.receive_keeps_reliable x.settings) w hr
      rw [call_finalize]
      rcases finalize_cases hstage with ⟨cause, windower, outlet, hflush, heq⟩ |
        ⟨partialWindow, windower, outlet, hflush, hfinish⟩
      · rw [hflush] at hkept herror
        rw [heq]
        exact ⟨Spared.isDevice_eq herror, hkept⟩
      · rw [hflush] at hkept
        obtain ⟨hkept', herror'⟩ := Draft.Reliable.finish hkept
        rcases hfinish with ⟨cause, draft, hdraft, heq⟩ | ⟨size, draft, hdraft, heq⟩
        · rw [hdraft] at hkept' herror'
          rw [heq]
          exact ⟨Spared.isDevice_eq herror', hkept'⟩
        · rw [hdraft] at hkept'
          rw [heq]
          exact ⟨rfl, hkept'⟩
  · rw [call_of_ne_turn hs]
    exact ⟨rfl, hr⟩

/-- On a reliable device, no call of a run fails for the device. -/
theorem unfailing_of_reliable (hx : ∀ name, x.destination ≠ .file name)
    (hr : x.outlet.draft.Reliable) (calls : List Call) : x.Unfailing calls := by
  induction calls generalizing x with
  | nil => exact fun entry hentry => absurd hentry List.not_mem_nil
  | cons c calls ih =>
    obtain ⟨hanswer, hr'⟩ := call_of_reliable hx hr c
    intro entry hentry
    rcases List.mem_cons.1 hentry with rfl | hentry
    · exact hanswer
    · refine ih ?_ hr' entry hentry
      rw [destination_call]
      exact hx

/-- Fewer calls fail no more often. -/
theorem Unfailing.of_append {first second : List Call} (h : x.Unfailing (first ++ second)) :
    x.Unfailing first := by
  intro entry hentry
  refine h entry ?_
  rw [transcript_append]
  exact List.mem_append_left _ hentry

/-- **Without a destination all is the same but the bytes.**  Take any settings, any calls in
any order, and a device that makes none of these calls fail, as one that never fails does.
An extraction that goes nowhere then

* answers every call like the one to the device, but for the size in the totals, which is
  zero;
* is in the same state after each call, with the same count of windows and the same length
  of a window, and its listener has seen the same windows in the same order. -/
theorem run_without_destination (s : Settings) (d : Device) (listening : Bool)
    (calls : List Call) :
    let x := toward s .nowhere listening
    let y := toward s (.device d) listening
    (d.Reliable → y.Unfailing calls) ∧
      (y.Unfailing calls →
        x.transcript calls =
            (y.transcript calls).map (fun entry => (entry.1, entry.2.discarded)) ∧
          ∀ first, first <+: calls →
            (x.after first).state = (y.after first).state ∧
            (x.after first).windows = (y.after first).windows ∧
            (x.after first).windowFrames? = (y.after first).windowFrames? ∧
            (x.after first).outlet.observed = (y.after first).outlet.observed) := by
  intro x y
  have hx : ∀ name, y.destination ≠ .file name := fun name hname => by cases hname
  have hxy : x = y.discarded := (discarded_toward s d listening).symm
  refine ⟨fun hd => ?_, fun h => ?_⟩
  · refine unfailing_of_reliable hx (fun d' hd' => ?_) calls
    obtain rfl : d = d' := Option.some.inj hd'
    exact hd
  · rw [hxy]
    refine ⟨(run_discarded hx h).1, ?_⟩
    rintro first ⟨rest, rfl⟩
    rw [(run_discarded hx h.of_append).2]
    exact ⟨state_discarded _, windows_discarded _, windowFrames?_discarded _, rfl⟩

/-- One channel and windows of two frames.  The device takes five bytes at a time and is
interrupted once; without it the same calls are refused, and the totals say no bytes. -/
theorem run_without_destination_mono :
    let settings : Settings := ⟨Binary.ofNat _ 1, true, .eight, none, .extrema⟩
    let d : Device := { writeFaults := [(2, .interrupted)], transfer := some 5 }
    let samples : List Sample := [0x3f000000, 0x3f800000, 0xbf800000].map (.ofBits _)
    let push := Call.push (.interleaved samples)
    let calls := [push, .configure ⟨1, 2⟩ true (.error .noSpace), push, .finalize, push]
    let x := toward settings .nowhere true
    let y := toward settings (.device d) true
    (x.transcript calls).map (·.2) =
        [.error (.wrongState .unconfigured), .ok none, .ok none, .ok (some ⟨2, 3, 0, true⟩),
          .error (.wrongState .finalized)] ∧
      (x.after calls).outlet.observed = (y.after calls).outlet.observed := by
  intro settings d samples push calls x y
  obtain ⟨hreliable, hrun⟩ := run_without_destination settings d true calls
  have hd : d.Reliable := ⟨by simp [d], rfl, rfl, by decide, rfl⟩
  obtain ⟨htranscript, hafter⟩ := hrun (hreliable hd)
  obtain ⟨-, -, -, hobserved⟩ := hafter calls List.prefix_rfl
  dsimp only [x, y]
  rw [htranscript]
  exact ⟨by decide +kernel, hobserved⟩

end Extraction

end Peakfile
