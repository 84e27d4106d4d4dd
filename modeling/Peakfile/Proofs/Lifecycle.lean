/-
# The life of an extraction

Calls to an extraction come in any order.  `Move` lists what a call may do to the state
of the extraction, and `Stepped` says that a call does just that, and nothing at all when
it is refused.  What follows for whole runs:

* every call of a run makes one of the listed moves;
* calls that were refused may be left out of a run, without any trace.

Each kind of call is opened once, by `configure_cases`, `push_eq` and `finalize_cases`.
-/
import Peakfile.Proofs.Windowing

namespace Peakfile

/-! ## Refusals -/

namespace Error

/-- Whether a failure says that settings and layout make no extraction. -/
def isValidation : Error → Bool
  | layout _ | windowLength _ | emptyWindow _ _ | allocation _ => true
  | _ => false

/-- Whether a failure only refuses the call that it answers. -/
def isRefusal : Error → Bool
  | wrongState _ | buffer _ => true
  | e => e.isValidation

theorem isRefusal_of_isValidation {e : Error} (h : e.isValidation) : e.isRefusal := by
  cases e <;> first | exact h | rfl

end Error

namespace Extraction

/-- What an extraction cannot be opened for is a matter of validation. -/
theorem isValidation_of_opening {x : Extraction} {l : Layout} {granted : Bool} {e : Error}
    (h : x.opening l granted = .error e) : e.isValidation := by
  unfold opening at h
  split at h
  · next cause hcheck =>
    obtain rfl : cause = e := by simpa using h
    unfold Layout.check at hcheck
    split_ifs at hcheck <;> cases hcheck <;> rfl
  · split at h
    · next cause hframes =>
      obtain rfl : cause = e := by simpa using h
      unfold Settings.windowFrames at hframes
      split at hframes
      · next cause' hcheck =>
        obtain rfl : cause' = cause := by simpa using hframes
        unfold Settings.check at hcheck
        split_ifs at hcheck
        cases hcheck
        rfl
      · dsimp only at hframes
        split_ifs at hframes <;> cases hframes <;> rfl
    · split at h
      · next cause hallocate =>
        obtain rfl : cause = e := by simpa using h
        unfold ChannelExtrema.allocate at hallocate
        split_ifs at hallocate
        cases hallocate
        rfl
      · cases h

end Extraction

/-! ## What drafts fail with -/

namespace Draft

/-- Putting bytes leaves the header as it is, and fails with what the device says. -/
theorem put_cases (d : Draft) (bytes : List UInt8) :
    (d.put bytes).2.headerWritten = d.headerWritten ∧
      ((d.put bytes).1 = .ok () ∨ ∃ cause, (d.put bytes).1 = .error (.device cause)) := by
  unfold put
  rcases d.device with _ | device
  · exact ⟨rfl, .inl rfl⟩
  · dsimp only
    rcases device.writeAll bytes with ⟨cause | _, device'⟩
    · exact ⟨rfl, .inr ⟨cause, rfl⟩⟩
    · exact ⟨rfl, .inl rfl⟩

/-- A first header is attempted, and fails with what the device says. -/
theorem writeHeader_cases {d : Draft} (h : d.headerWritten = false) (header : Header) :
    (d.writeHeader header).2.headerWritten = true ∧
      ((d.writeHeader header).1 = .ok () ∨
        ∃ cause, (d.writeHeader header).1 = .error (.device cause)) := by
  rw [writeHeader, h, if_neg Bool.false_ne_true]
  exact put_cases _ _

/-- Behind a header, a window is never refused for the order of calls. -/
theorem appendWindow_cases {d : Draft} (h : d.headerWritten = true) (points : List UInt8) :
    (d.appendWindow points).2.headerWritten = true ∧
      ∀ e, (d.appendWindow points).1 = .error e → e.isRefusal = false := by
  unfold appendWindow
  split_ifs
  · exact ⟨h, fun e he => by cases he; rfl⟩
  · rw [append, if_pos h]
    obtain ⟨hheader, hr⟩ := put_cases d points
    rcases hput : d.put points with ⟨r, d'⟩
    rw [hput] at hheader hr
    rcases hr with rfl | ⟨cause, rfl⟩
    · exact ⟨hheader.trans h, fun e he => by cases he⟩
    · exact ⟨hheader.trans h, fun e he => by cases he; rfl⟩

/-- Behind a header, finishing fails with what the device says. -/
theorem finish_cases {d : Draft} (h : d.headerWritten = true) :
    ∀ e, d.finish.1 = .error e → e.isRefusal = false := by
  intro e he
  rw [finish, if_pos h] at he
  rcases hd : d.device with _ | device
  · rw [hd] at he
    cases he
  · rw [hd] at he
    dsimp only at he
    rcases hp : patchCount device d.windows with ⟨cause | _, device'⟩
    · rw [hp] at he
      cases he
      rfl
    · rw [hp] at he
      cases he

end Draft

namespace Windower

variable {σ : Type} {receive : Receiver σ}

/-- What every window keeps of the receiver's state, added frames keep, and they fail
with what the receiver says. -/
theorem addFrames_keeps {P : σ → Prop} {E : Error → Prop}
    (hreceive : ∀ extrema s, P s → P (receive extrema s).2 ∧
      ∀ e, (receive extrema s).1 = .error e → E e)
    (w : Windower) (frames : List Frame) {s : σ} (hs : P s) :
    P (addFrames receive w frames s).2.2 ∧
      ∀ e, (addFrames receive w frames s).1 = .error e → E e := by
  induction frames generalizing w s with
  | nil => exact ⟨hs, fun e he => by cases he⟩
  | cons frame frames ih =>
    rw [addFrames, advance]
    by_cases hlt : w.filled + 1 < w.window
    · rw [dif_pos hlt]
      exact ih _ hs
    · rw [dif_neg hlt, close]
      obtain ⟨hkeep, herror⟩ := hreceive (w.current.addFrame frame).extrema s hs
      rcases hr : receive (w.current.addFrame frame).extrema s with ⟨cause | _, s'⟩
      · rw [hr] at hkeep herror
        exact ⟨hkeep, fun e he => herror e he⟩
      · rw [hr] at hkeep
        exact ih _ hkeep

/-- A flush keeps what a window keeps, and fails with what the receiver says. -/
theorem flush_keeps {P : σ → Prop} {E : Error → Prop}
    (hreceive : ∀ extrema s, P s → P (receive extrema s).2 ∧
      ∀ e, (receive extrema s).1 = .error e → E e)
    (w : Windower) {s : σ} (hs : P s) :
    P (w.flush receive s).2.2 ∧ ∀ e, (w.flush receive s).1 = .error e → E e := by
  rw [flush]
  split_ifs
  · exact ⟨hs, fun e he => by cases he⟩
  · rw [close]
    obtain ⟨hkeep, herror⟩ := hreceive w.current.extrema s hs
    rcases hr : receive w.current.extrema s with ⟨cause | _, s'⟩
    · rw [hr] at hkeep herror
      exact ⟨hkeep, fun e he => by cases he; exact herror _ rfl⟩
    · rw [hr] at hkeep
      exact ⟨hkeep, fun e he => by cases he⟩

section Preserves

variable {P : σ → Prop} (hreceive : ∀ extrema s, P s → P (receive extrema s).2)

include hreceive

/-- What every window keeps, added frames keep, whatever the receiver says. -/
theorem addFrames_preserves (w : Windower) (frames : List Frame) {s : σ} (hs : P s) :
    P (addFrames receive w frames s).2.2 :=
  (addFrames_keeps (E := fun _ => True)
    (fun extrema s hs => ⟨hreceive extrema s hs, fun _ _ => trivial⟩) w frames hs).1

/-- So does a flush. -/
theorem flush_preserves (w : Windower) {s : σ} (hs : P s) : P (w.flush receive s).2.2 :=
  (flush_keeps (E := fun _ => True)
    (fun extrema s hs => ⟨hreceive extrema s hs, fun _ _ => trivial⟩) w hs).1

end Preserves

section Map

variable {τ : Type} {receive' : Receiver τ} {φ : σ → τ} {D : Error → Prop}
  (hreceive : ∀ extrema s, (∀ e, (receive extrema s).1 = .error e → ¬ D e) →
    receive' extrema (φ s) = ((receive extrema s).1, φ (receive extrema s).2))

include hreceive

/-- Receivers that answer alike, but for some failures of the first, are handed the same
windows until one of these comes up. -/
theorem addFrames_map (w : Windower) (frames : List Frame) (s : σ)
    (h : ∀ e, (addFrames receive w frames s).1 = .error e → ¬ D e) :
    addFrames receive' w frames (φ s) =
      let r := addFrames receive w frames s
      (r.1, r.2.1, φ r.2.2) := by
  induction frames generalizing w s with
  | nil => rfl
  | cons frame frames ih =>
    rw [addFrames, advance] at h ⊢
    rw [addFrames, advance]
    by_cases hlt : w.filled + 1 < w.window
    · rw [dif_pos hlt] at h ⊢
      rw [dif_pos hlt]
      exact ih _ s h
    · rw [dif_neg hlt, close] at h ⊢
      rw [dif_neg hlt, close]
      have hwindow := hreceive (w.current.addFrame frame).extrema s
      rcases hr : receive (w.current.addFrame frame).extrema s with ⟨cause | _, s'⟩
      · rw [hr] at h hwindow
        rw [hwindow h]
      · rw [hr] at h hwindow
        rw [hwindow fun e he => by cases he]
        exact ih _ s' h

/-- The same goes for the window that a flush hands over. -/
theorem flush_map (w : Windower) (s : σ)
    (h : ∀ e, (w.flush receive s).1 = .error e → ¬ D e) :
    w.flush receive' (φ s) =
      let r := w.flush receive s
      (r.1, r.2.1, φ r.2.2) := by
  rw [flush, close] at h ⊢
  rw [flush, close]
  split_ifs at h ⊢
  · rfl
  · have hwindow := hreceive w.current.extrema s
    rcases hr : receive w.current.extrema s with ⟨cause | _, s'⟩
    · rw [hr] at h hwindow
      rw [hwindow fun e he => by cases he; exact h _ rfl]
    · rw [hr] at hwindow
      rw [hwindow fun e he => by cases he]

end Map

end Windower

/-- Behind a header, a window received keeps the header and is never refused. -/
theorem Outlet.receive_keeps (settings : Settings) (extrema : List Extrema) (o : Outlet)
    (h : o.draft.headerWritten = true) :
    (receive settings extrema o).2.draft.headerWritten = true ∧
      ∀ e, (receive settings extrema o).1 = .error e → e.isRefusal = false :=
  Draft.appendWindow_cases h _

/-! ## Calls -/

namespace Extraction

/-- A call to an extraction.  When it is configured, it is told whether memory is granted for
the bounds of the channels, and towards a file, how creating the file went. -/
inductive Call where
  | configure (layout : Layout) (granted : Bool) (created : Except StorageError Device)
  | push (buffer : SampleBuffer)
  | finalize
  deriving DecidableEq

/-- What a call is answered: the totals of the extraction, if it was finalized. -/
abbrev Answer := Except Error (Option Summary)

/-- Whether an answer only refuses the call. -/
def Answer.isRefusal : Answer → Bool
  | .error e => e.isRefusal
  | .ok _ => false

/-- The state in which a call is in turn. -/
def Call.turn : Call → CallState
  | configure .. => .unconfigured
  | push _ | finalize => .ready

/-- Make a call. -/
def call (x : Extraction) : Call → Answer × Extraction
  | .configure l granted created =>
    let (r, x') := x.configure l granted created
    (r.map fun _ => none, x')
  | .push b =>
    let (r, x') := x.push b
    (r.map fun _ => none, x')
  | .finalize =>
    let (r, x') := x.finalize
    (r.map some, x')

theorem call_configure (x : Extraction) (l : Layout) (granted : Bool)
    (created : Except StorageError Device) :
    x.call (.configure l granted created) =
      ((x.configure l granted created).1.map fun _ => none,
        (x.configure l granted created).2) := rfl

theorem call_push (x : Extraction) (b : SampleBuffer) :
    x.call (.push b) = ((x.push b).1.map fun _ => none, (x.push b).2) := rfl

theorem call_finalize (x : Extraction) :
    x.call .finalize = (x.finalize.1.map some, x.finalize.2) := rfl

/-- An extraction after calls. -/
def after (x : Extraction) (calls : List Call) : Extraction :=
  calls.foldl (fun x c => (x.call c).2) x

/-- Calls with their answers. -/
def transcript (x : Extraction) : List Call → List (Call × Answer)
  | [] => []
  | c :: calls => (c, (x.call c).1) :: transcript (x.call c).2 calls

theorem after_append (x : Extraction) (first second : List Call) :
    x.after (first ++ second) = (x.after first).after second := by
  rw [after, List.foldl_append]
  rfl

theorem transcript_append (x : Extraction) (first second : List Call) :
    x.transcript (first ++ second) = x.transcript first ++ (x.after first).transcript second := by
  induction first generalizing x with
  | nil => rfl
  | cons c first ih =>
    rw [List.cons_append, transcript, transcript, ih, List.cons_append]
    rfl

/-- The moves of an extraction from state to state. -/
inductive Move : CallState → Call → Answer → CallState → Prop
  | outOfTurn {state c} (h : state ≠ c.turn) : Move state c (.error (.wrongState state)) state
  | invalid {l granted created e} (h : e.isValidation = true) :
      Move .unconfigured (.configure l granted created) (.error e) .unconfigured
  | configured {l granted created} :
      Move .unconfigured (.configure l granted created) (.ok none) .ready
  | unopened {l granted created cause} :
      Move .unconfigured (.configure l granted created) (.error (.device cause)) .failed
  | misfit {b fault} : Move .ready (.push b) (.error (.buffer fault)) .ready
  | pushed {b} : Move .ready (.push b) (.ok none) .ready
  | broken {b e} (h : e.isRefusal = false) : Move .ready (.push b) (.error e) .failed
  | finalized {summary} : Move .ready .finalize (.ok (some summary)) .finalized
  | unfinished {e} (h : e.isRefusal = false) : Move .ready .finalize (.error e) .failed

/-- A header is written exactly on the way from unconfigured to ready. -/
def Sound (x : Extraction) : Prop :=
  match x.stage with
  | .unconfigured => x.outlet.draft.headerWritten = false
  | .ready _ => x.outlet.draft.headerWritten = true
  | _ => True

/-- What a call does: it makes a move, and a refusal changes nothing. -/
structure Stepped (x : Extraction) (c : Call) (a : Answer) (x' : Extraction) : Prop where
  move : Move x.state c a x'.state
  sound : x'.Sound
  unchanged : a.isRefusal = true → x' = x

variable {x : Extraction}

/-- An extraction that has not begun is sound. -/
theorem sound_toward (settings : Settings) (destination : Destination) (listening : Bool) :
    (toward settings destination listening).Sound := by
  cases destination <;> rfl

theorem headerWritten_of_ready {w : Windower} (hx : x.Sound) (h : x.stage = .ready w) :
    x.outlet.draft.headerWritten = true := by
  rw [Sound, h] at hx
  exact hx

/-- The draft that a header goes to is without one. -/
theorem headerWritten_of_unconfigured {draft : Draft} (hx : x.Sound)
    (h : x.stage = .unconfigured)
    (hdraft : draft = x.outlet.draft ∨
      ∃ name device, x.destination = .file name ∧ draft = .onto device) :
    draft.headerWritten = false := by
  rcases hdraft with rfl | ⟨name, device, -, rfl⟩
  · rw [Sound, h] at hx
    exact hx
  · rfl

/-! ## Each kind of call -/

/-- A call out of turn is told the state, and changes nothing. -/
theorem call_of_ne_turn {c : Call} (h : x.state ≠ c.turn) :
    x.call c = (.error (.wrongState x.state), x) := by
  rcases c with ⟨l, granted, created⟩ | b | _
  · unfold call configure
    rcases hs : x.stage <;> simp_all [state, Stage.state, Call.turn, Except.map]
  · unfold call push
    rcases hs : x.stage <;> simp_all [state, Stage.state, Call.turn, Except.map]
  · unfold call finalize
    rcases hs : x.stage <;> simp_all [state, Stage.state, Call.turn, Except.map]

/-- Configuring in turn: the layout is invalid, or the file is not created, or the header
goes to the draft that there is or to that of a new file. -/
theorem configure_cases (h : x.stage = .unconfigured) (l : Layout)
    (granted : Bool) (created : Except StorageError Device) :
    (∃ e, x.opening l granted = .error e ∧ x.configure l granted created = (.error e, x)) ∨
      (∃ name cause, x.destination = .file name ∧
        x.configure l granted created = (.error (.device cause), { x with stage := .failed })) ∨
      ∃ windower header draft, x.opening l granted = .ok (windower, header) ∧
        (draft = x.outlet.draft ∨
          ∃ name device, x.destination = .file name ∧ draft = .onto device) ∧
        x.configure l granted created =
          match draft.writeHeader header with
          | (.ok (), draft) =>
            (.ok (), { x with outlet := { x.outlet with draft }, stage := .ready windower })
          | (.error cause, draft) =>
            (.error cause, { x with outlet := { x.outlet with draft }, stage := .failed }) := by
  unfold configure
  rw [h]
  dsimp only
  rcases ho : x.opening l granted with e | ⟨windower, header⟩
  · exact .inl ⟨e, rfl, rfl⟩
  · right
    rcases hd : x.destination with _ | name | device
    · exact .inr ⟨windower, header, x.outlet.draft, rfl, .inl rfl, rfl⟩
    · rcases created with cause | device
      · exact .inl ⟨name, cause, rfl, rfl⟩
      · exact .inr ⟨windower, header, .onto device, rfl, .inr ⟨name, device, rfl, rfl⟩, rfl⟩
    · exact .inr ⟨windower, header, x.outlet.draft, rfl, .inl rfl, rfl⟩

/-- Where there is no file to create, configuring writes the header to the draft that there
is. -/
theorem configure_eq (hs : x.stage = .unconfigured) (hx : ∀ name, x.destination ≠ .file name)
    (l : Layout) (granted : Bool) (created : Except StorageError Device) :
    x.configure l granted created =
      match x.opening l granted with
      | .error cause => (.error cause, x)
      | .ok (windower, header) =>
        match x.outlet.draft.writeHeader header with
        | (.ok (), draft) =>
          (.ok (), { x with outlet := { x.outlet with draft }, stage := .ready windower })
        | (.error cause, draft) =>
          (.error cause, { x with outlet := { x.outlet with draft }, stage := .failed }) := by
  unfold configure
  rw [hs]
  dsimp only
  rcases x.opening l granted with cause | ⟨windower, header⟩
  · rfl
  · rcases hd : x.destination with _ | name | device
    · rfl
    · exact absurd hd (hx name)
    · rfl

/-- Pushing in turn: a buffer that does not fit changes nothing, and otherwise its frames
are added to the open window. -/
theorem push_eq {w : Windower} (hx : x.Sound) (h : x.stage = .ready w) (b : SampleBuffer) :
    x.push b =
      match w.fault? b with
      | some fault => (.error (.buffer fault), x)
      | none =>
        match w.addFrames (Outlet.receive x.settings) (b.frames w.channels) x.outlet with
        | (.ok (), windower, outlet) => (.ok (), { x with outlet, stage := .ready windower })
        | (.error cause, _, outlet) => (.error cause, { x with outlet, stage := .failed }) := by
  have hheader := headerWritten_of_ready hx h
  -- Behind a header no window is answered like a buffer that does not fit, so the answer
  -- tells whether the extraction goes on.
  have hconsume : consume x.settings w b x.outlet =
      w.consume (Outlet.receive x.settings) b x.outlet := by
    cases b <;> rfl
  unfold push
  rw [h]
  dsimp only
  rw [hconsume, Windower.consume_eq]
  rcases hf : w.fault? b with _ | fault
  · obtain ⟨-, herror⟩ := Windower.addFrames_keeps (Outlet.receive_keeps x.settings) w
      (b.frames w.channels) hheader
    dsimp only
    rcases hr : w.addFrames (Outlet.receive x.settings) (b.frames w.channels) x.outlet with
      ⟨cause | _, windower, outlet⟩
    · rw [hr] at herror
      have hcause := herror cause rfl
      cases cause <;> first | rfl | cases hcause
    · rfl
  · simp only [← h]

/-- Finalizing in turn: the last window is not taken, or the count is not, or all is
well. -/
theorem finalize_cases {w : Windower} (h : x.stage = .ready w) :
    (∃ cause windower outlet,
      w.flush (Outlet.receive x.settings) x.outlet = (.error cause, windower, outlet) ∧
        x.finalize = (.error cause, { x with outlet, stage := .failed })) ∨
      ∃ partialWindow windower outlet,
        w.flush (Outlet.receive x.settings) x.outlet = (.ok partialWindow, windower, outlet) ∧
        ((∃ cause draft, outlet.draft.finish = (.error cause, draft) ∧
          x.finalize =
            (.error cause, { x with outlet := { outlet with draft }, stage := .failed })) ∨
        ∃ size draft, outlet.draft.finish = (.ok size, draft) ∧
          let summary : Summary :=
            { windows := outlet.draft.windows, frames := windower.frames, size, partialWindow }
          x.finalize = (.ok summary,
            { x with outlet := { outlet with draft }, stage := .finalized summary })) := by
  unfold finalize
  rw [h]
  dsimp only
  rcases w.flush (Outlet.receive x.settings) x.outlet with
    ⟨cause | partialWindow, windower, outlet⟩
  · exact .inl ⟨cause, windower, outlet, rfl, rfl⟩
  · refine .inr ⟨partialWindow, windower, outlet, rfl, ?_⟩
    dsimp only
    rcases outlet.draft.finish with ⟨cause | size, draft⟩
    · exact .inl ⟨cause, draft, rfl, rfl⟩
    · exact .inr ⟨size, draft, rfl, rfl⟩

/-! ## What a call does -/

theorem stage_eq_unconfigured (h : x.state = .unconfigured) : x.stage = .unconfigured := by
  rcases hs : x.stage <;> simp_all [state, Stage.state]

theorem exists_stage_eq_ready (h : x.state = .ready) : ∃ w, x.stage = .ready w := by
  rcases hs : x.stage <;> simp_all [state, Stage.state]

theorem stepped_configure (hx : x.Sound) (hs : x.state = .unconfigured) (l : Layout)
    (granted : Bool) (created : Except StorageError Device) :
    Stepped x (.configure l granted created) (x.call (.configure l granted created)).1
      (x.call (.configure l granted created)).2 := by
  have hstage := stage_eq_unconfigured hs
  rw [call]
  rcases configure_cases hstage l granted created with
    ⟨e, ho, heq⟩ | ⟨name, cause, -, heq⟩ | ⟨windower, header, draft, ho, hdraft, heq⟩
  · rw [heq]
    exact ⟨by rw [hs]; exact .invalid (isValidation_of_opening ho), hx, fun _ => rfl⟩
  · rw [heq]
    exact ⟨by rw [hs]; exact .unopened, trivial, fun h => by cases h⟩
  · have hheader := headerWritten_of_unconfigured hx hstage hdraft
    obtain ⟨hwritten, hr⟩ := Draft.writeHeader_cases hheader header
    rw [heq]
    rcases hw : draft.writeHeader header with ⟨r, draft'⟩
    rw [hw] at hwritten hr
    rcases hr with rfl | ⟨cause, rfl⟩
    · exact ⟨by rw [hs]; exact .configured, hwritten, fun h => by cases h⟩
    · exact ⟨by rw [hs]; exact .unopened, trivial, fun h => by cases h⟩

theorem stepped_push (hx : x.Sound) (hs : x.state = .ready) (b : SampleBuffer) :
    Stepped x (.push b) (x.call (.push b)).1 (x.call (.push b)).2 := by
  obtain ⟨w, hstage⟩ := exists_stage_eq_ready hs
  have hheader := headerWritten_of_ready hx hstage
  rw [call, push_eq hx hstage]
  rcases hf : w.fault? b with _ | fault
  · obtain ⟨hkeep, herror⟩ := Windower.addFrames_keeps (Outlet.receive_keeps x.settings) w
      (b.frames w.channels) hheader
    dsimp only
    rcases hr : w.addFrames (Outlet.receive x.settings) (b.frames w.channels) x.outlet with
      ⟨cause | _, windower, outlet⟩
    · rw [hr] at herror
      have hcause := herror cause rfl
      refine ⟨by rw [hs]; exact .broken hcause, trivial, fun h => ?_⟩
      exact absurd h (by simp [Answer.isRefusal, Except.map, hcause])
    · rw [hr] at hkeep
      exact ⟨by rw [hs]; exact .pushed, hkeep, fun h => by cases h⟩
  · exact ⟨by rw [hs]; exact .misfit, hx, fun _ => rfl⟩

theorem stepped_finalize (hx : x.Sound) (hs : x.state = .ready) :
    Stepped x .finalize (x.call .finalize).1 (x.call .finalize).2 := by
  obtain ⟨w, hstage⟩ := exists_stage_eq_ready hs
  have hheader := headerWritten_of_ready hx hstage
  obtain ⟨hkeep, herror⟩ := Windower.flush_keeps (Outlet.receive_keeps x.settings) w hheader
  have hfailed : ∀ {e : Error} {x' : Extraction}, e.isRefusal = false →
      x'.stage = .failed → Stepped x .finalize (.error e) x' := by
    intro e x' he hx'
    refine ⟨?_, by rw [Sound, hx']; trivial, fun h => ?_⟩
    · rw [hs, state, hx']
      exact .unfinished he
    · exact absurd h (by simp [Answer.isRefusal, he])
  rw [call]
  rcases finalize_cases hstage with ⟨cause, windower, outlet, hflush, heq⟩ |
    ⟨partialWindow, windower, outlet, hflush, ⟨cause, draft, hfinish, heq⟩ |
      ⟨size, draft, hfinish, heq⟩⟩
  · rw [hflush] at herror
    rw [heq]
    exact hfailed (herror cause rfl) rfl
  · rw [hflush] at hkeep
    rw [heq]
    exact hfailed (Draft.finish_cases hkeep cause (by rw [hfinish])) rfl
  · rw [heq]
    exact ⟨by rw [hs]; exact .finalized, trivial, fun h => by cases h⟩

/-- **One step.**  Every call makes a move of the list, and a refusal changes nothing. -/
theorem stepped_call (hx : x.Sound) (c : Call) : Stepped x c (x.call c).1 (x.call c).2 := by
  by_cases hs : x.state = c.turn
  · cases c with
    | configure l granted created => exact stepped_configure hx hs l granted created
    | push b => exact stepped_push hx hs b
    | finalize => exact stepped_finalize hx hs
  · rw [call_of_ne_turn hs]
    exact ⟨.outOfTurn hs, hx, fun _ => rfl⟩

/-- No call changes the destination. -/
theorem destination_call (x : Extraction) (c : Call) :
    (x.call c).2.destination = x.destination := by
  by_cases hs : x.state = c.turn
  · cases c with
    | configure l granted created =>
      rw [call_configure]
      rcases configure_cases (stage_eq_unconfigured hs) l granted created with
        ⟨e, -, heq⟩ | ⟨name, cause, -, heq⟩ | ⟨windower, header, draft, -, -, heq⟩
      · rw [heq]
      · rw [heq]
      · rw [heq]
        rcases draft.writeHeader header with ⟨cause | _, draft'⟩ <;> rfl
    | push b =>
      obtain ⟨w, hstage⟩ := exists_stage_eq_ready hs
      rw [call_push, push, hstage]
      dsimp only
      rcases consume x.settings w b x.outlet with ⟨cause | _, w', o'⟩
      · cases cause <;> rfl
      · rfl
    | finalize =>
      obtain ⟨w, hstage⟩ := exists_stage_eq_ready hs
      rw [call_finalize]
      rcases finalize_cases hstage with ⟨cause, windower, outlet, -, heq⟩ |
        ⟨partialWindow, windower, outlet, -, ⟨cause, draft, -, heq⟩ | ⟨size, draft, -, heq⟩⟩
      all_goals rw [heq]
  · rw [call_of_ne_turn hs]

/-- Only a call in turn is not refused. -/
theorem state_eq_turn {c : Call} (h : (x.call c).1.isRefusal = false) : x.state = c.turn := by
  by_contra hs
  rw [call_of_ne_turn hs] at h
  cases h

/-! ## Runs -/

theorem sound_after (hx : x.Sound) (calls : List Call) : (x.after calls).Sound := by
  induction calls generalizing x with
  | nil => exact hx
  | cons c calls ih => exact ih (stepped_call hx c).sound

/-- There is no way on from a finalized or failed extraction. -/
theorem Move.isRefusal_of_terminal {state state' : CallState} {c : Call} {a : Answer}
    (h : Move state c a state') (hs : state = .finalized ∨ state = .failed) :
    a.isRefusal = true := by
  rcases hs with rfl | rfl <;> cases h <;> rfl

/-- Once finalized or failed, an extraction stays as it is. -/
theorem after_of_terminal (hx : x.Sound) (h : x.state = .finalized ∨ x.state = .failed)
    (calls : List Call) : x.after calls = x := by
  induction calls with
  | nil => rfl
  | cons c calls ih =>
    -- No move leads on from here but refusals, and these change nothing.
    have hstep := stepped_call hx c
    have hsame : (x.call c).2 = x := hstep.unchanged (hstep.move.isRefusal_of_terminal h)
    show ((x.call c).2).after calls = x
    rw [hsame, ih]

/-- The file that a call asks for, if any. -/
def fileAsked (x : Extraction) : Call → List String
  | .configure l granted _ => (x.fileToCreate l granted).toList
  | .push _ | .finalize => []

/-- The files that calls ask for, in order. -/
def filesAsked (x : Extraction) : List Call → List String
  | [] => []
  | c :: calls => x.fileAsked c ++ filesAsked (x.call c).2 calls

/-- A layout that is refused, or memory that is, asks for no file. -/
theorem fileToCreate_of_isRefusal (hx : x.Sound) {l : Layout}
    {granted : Bool} {created : Except StorageError Device}
    (h : (x.call (.configure l granted created)).1.isRefusal = true) :
    x.fileToCreate l granted = none := by
  by_cases hs : x.state = .unconfigured
  · have hstage := stage_eq_unconfigured hs
    rcases ho : x.opening l granted with e | ⟨windower, header⟩
    · rw [fileToCreate, hstage, ho]
      cases x.destination <;> rfl
    · -- The layout is valid, so what remains to fail is the file or its header.
      exfalso
      rcases configure_cases hstage l granted created with
        ⟨e, he, -⟩ | ⟨name, cause, -, heq⟩ | ⟨windower, header, draft, -, hdraft, heq⟩
      · rw [ho] at he
        cases he
      · rw [call, heq] at h
        cases h
      · have hheader := headerWritten_of_unconfigured hx hstage hdraft
        obtain ⟨-, hr⟩ := Draft.writeHeader_cases hheader header
        rw [call, heq] at h
        rcases hw : draft.writeHeader header with ⟨r, draft'⟩
        rw [hw] at hr h
        rcases hr with rfl | ⟨cause, rfl⟩ <;> cases h
  · rw [fileToCreate]
    rcases hstage : x.stage <;> simp_all [state, Stage.state]

/-- A refused call asks for no file. -/
theorem fileAsked_of_isRefusal (hx : x.Sound) {c : Call} (h : (x.call c).1.isRefusal = true) :
    x.fileAsked c = [] := by
  rcases c with ⟨l, granted, created⟩ | b | _
  · rw [fileAsked, fileToCreate_of_isRefusal hx h]
    rfl
  · rfl
  · rfl

/-- The calls of a run that were not refused, with their answers. -/
def kept (x : Extraction) (calls : List Call) : List (Call × Answer) :=
  (x.transcript calls).filter fun entry => !entry.2.isRefusal

/-- A refused call is not among those kept, and the others go on from the same state. -/
theorem kept_cons_of_refusal (hx : x.Sound) {c : Call} (h : (x.call c).1.isRefusal = true)
    (calls : List Call) : x.kept (c :: calls) = x.kept calls := by
  have hsame : (x.call c).2 = x := (stepped_call hx c).unchanged h
  rw [kept, transcript, hsame, List.filter_cons_of_neg (by simp [h])]
  rfl

/-- Any other call is kept with its answer. -/
theorem kept_cons {c : Call} (h : (x.call c).1.isRefusal = false) (calls : List Call) :
    x.kept (c :: calls) = (c, (x.call c).1) :: (x.call c).2.kept calls := by
  rw [kept, transcript, List.filter_cons_of_pos (by simp [h])]
  rfl

/-- What is kept of a run is kept of its parts. -/
theorem kept_append (x : Extraction) (first second : List Call) :
    x.kept (first ++ second) = x.kept first ++ (x.after first).kept second := by
  rw [kept, transcript_append, List.filter_append]
  rfl

/-- Refused calls may be left out. -/
theorem run_kept (hx : x.Sound) (calls : List Call) :
    x.transcript ((x.kept calls).map (·.1)) = x.kept calls ∧
      x.after ((x.kept calls).map (·.1)) = x.after calls ∧
      x.filesAsked ((x.kept calls).map (·.1)) = x.filesAsked calls := by
  induction calls generalizing x with
  | nil => exact ⟨rfl, rfl, rfl⟩
  | cons c calls ih =>
    have hstep := stepped_call hx c
    obtain ⟨htranscript, hafter, hfiles⟩ := ih hstep.sound
    rcases h : (x.call c).1.isRefusal
    · rw [kept_cons h, List.map_cons, transcript, htranscript, filesAsked, filesAsked, hfiles]
      exact ⟨rfl, hafter, rfl⟩
    · -- A refused call changes nothing, so the rest of the run starts from here.
      have hsame : (x.call c).2 = x := hstep.unchanged h
      have hnone : x.filesAsked (c :: calls) = x.filesAsked calls := by
        rw [filesAsked, fileAsked_of_isRefusal hx h, hsame, List.nil_append]
      rw [hsame] at htranscript hafter hfiles
      rw [kept_cons_of_refusal hx h, hnone]
      exact ⟨htranscript, hafter.trans (by rw [after, after, List.foldl_cons, hsame]), hfiles⟩

/-- **The life of an extraction.**  After any calls to an extraction towards any
destination:

* the next call makes a move of the list, and if it is refused, the extraction stays the
  same with its destination, so that the call may be made again;
* once finalized or failed, the extraction is not changed by any further calls;
* without the refused calls, the others are answered alike, and leave the extraction the
  same: its state, its window count, what its listener saw, and its device with the log
  of all calls made to it;
* without the refused calls, the same files are asked for. -/
theorem refusals_leave_no_trace (settings : Settings) (destination : Destination)
    (listening : Bool) (calls : List Call) :
    let x := toward settings destination listening
    let now := x.after calls
    (∀ c, Move now.state c (now.call c).1 (now.call c).2.state ∧
        ((now.call c).1.isRefusal = true → (now.call c).2 = now)) ∧
      (now.state = .finalized ∨ now.state = .failed →
        ∀ more, x.after (calls ++ more) = now) ∧
      x.transcript ((x.kept calls).map (·.1)) = x.kept calls ∧
      x.after ((x.kept calls).map (·.1)) = now ∧
      x.filesAsked ((x.kept calls).map (·.1)) = x.filesAsked calls := by
  intro x now
  have hx : x.Sound := sound_toward settings destination listening
  have hnow : now.Sound := sound_after hx calls
  refine ⟨fun c => ?_, fun h more => ?_, run_kept hx calls⟩
  · have hstep := stepped_call hnow c
    exact ⟨hstep.move, hstep.unchanged⟩
  · rw [after_append]
    exact after_of_terminal hnow h more

/-- Of eight calls, five are refused: a buffer comes too early, a layout has no channels,
memory is not to be had for another, a buffer has a plane too many, and the end comes twice.
The other three leave the same extraction, and no further buffer changes it. -/
theorem refusals_leave_no_trace_mono :
    let x := toward ⟨Binary.ofNat _ 1, true, .eight, none, .extrema⟩ (.device {}) true
    let samples : List Sample := [0x3f000000, 0x3f800000, 0xbf800000].map (.ofBits _)
    let configure := Call.configure ⟨1, 2⟩ true (.error .noSpace)
    let push := Call.push (.interleaved samples)
    let calls := [push, .configure ⟨0, 2⟩ true (.error .noSpace),
      .configure ⟨1, 2⟩ false (.error .noSpace), configure, .push (.planar [[], []] 0), push,
      .finalize, .finalize]
    x.after [configure, push, .finalize] = x.after calls ∧
      x.after (calls ++ [push]) = x.after calls := by
  intro x samples configure push calls
  have hrun := refusals_leave_no_trace ⟨Binary.ofNat _ 1, true, .eight, none, .extrema⟩
    (.device {}) true calls
  have hkept : (x.kept calls).map (·.1) = [configure, push, .finalize] := by decide +kernel
  have hended : (x.after calls).state = .finalized := by decide +kernel
  refine ⟨?_, hrun.2.1 (.inl hended) [push]⟩
  rw [← hkept]
  exact hrun.2.2.2.1

end Extraction

end Peakfile
