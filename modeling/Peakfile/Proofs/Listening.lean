/-
# What a listener hears

A window is reported under the number of windows written so far, and only then written, so
that a window whose points are not taken is reported all the same.  A receiver is made to
note its answers (`Windower.noting`); the answers of a run tell for each window whether it
was written.  While an extraction works, its listener has heard of all full windows
(`Attending`), and every call, whatever comes of it, keeps the reports with the frames and
with the answers (`Heeds.call`).
-/
import Peakfile.Proofs.Runs

namespace Peakfile

namespace Windower

variable {σ : Type}

/-- A receiver that also notes what it answers. -/
def noting (receive : Receiver σ) : Receiver (σ × List (Except Error Unit)) :=
  fun extrema now =>
    let (answer, s) := receive extrema now.1
    (answer, s, now.2 ++ [answer])

variable (receive : Receiver σ)

/-- Notes change nothing for the frames that are added. -/
theorem addFrames_noting (w : Windower) (frames : List Frame) (s : σ)
    (notes : List (Except Error Unit)) :
    w.addFrames receive frames s =
      let r := w.addFrames (noting receive) frames (s, notes)
      (r.1, r.2.1, r.2.2.1) :=
  addFrames_map (φ := Prod.fst) (D := fun _ => False) (fun _ _ _ => rfl) w frames (s, notes)
    fun _ _ => not_false

/-- Notes change nothing for the last window. -/
theorem flush_noting (w : Windower) (s : σ) (notes : List (Except Error Unit)) :
    w.flush receive s =
      let r := w.flush (noting receive) (s, notes)
      (r.1, r.2.1, r.2.2.1) :=
  flush_map (φ := Prod.fst) (D := fun _ => False) (fun _ _ _ => rfl) w (s, notes)
    fun _ _ => not_false

end Windower

/-! ## Reports of windows -/

namespace Outlet

/-- The reports of windows with the given frames, numbered from zero. -/
def reports (s : Settings) (channels : Nat) (groups : List (List Frame)) : List Observation :=
  groups.mapIdx fun i group => ⟨i, (ChannelExtrema.ofFrames s.anchor channels group).extrema⟩

variable {s : Settings} {channels : Nat}

theorem length_reports (s : Settings) (channels : Nat) (groups : List (List Frame)) :
    (reports s channels groups).length = groups.length := List.length_mapIdx

theorem reports_concat (s : Settings) (channels : Nat) (groups : List (List Frame))
    (group : List Frame) :
    reports s channels (groups ++ [group]) = reports s channels groups ++
      [⟨groups.length, (ChannelExtrema.ofFrames s.anchor channels group).extrema⟩] :=
  List.mapIdx_concat

/-- The listener was told of windows with the given frames, and so many were written. -/
structure Heard (s : Settings) (channels : Nat) (groups : List (List Frame)) (written : Nat)
    (o : Outlet) : Prop where
  observed : o.observed = some (reports s channels groups).toArray
  written : o.draft.windows = written

variable {groups : List (List Frame)} {o : Outlet}

/-- One more window is heard of, and counted if it is written. -/
theorem Heard.receive (h : Heard s channels groups groups.length o) (group : List Frame) :
    let r := Outlet.receive s (ChannelExtrema.ofFrames s.anchor channels group).extrema o
    Heard s channels (groups ++ [group]) (groups.length + if r.1.isOk then 1 else 0) r.2 where
  observed := by
    have hreport : (o.report (ChannelExtrema.ofFrames s.anchor channels group).extrema).observed =
        some (reports s channels (groups ++ [group])).toArray := by
      rw [report, h.observed, h.written, reports_concat]
      simp
    exact hreport
  written := by
    have hcount := o.draft.windows_appendWindow
      (s.encodeWindow (ChannelExtrema.ofFrames s.anchor channels group).extrema)
    rw [h.written] at hcount
    exact hcount

/-- Windows handed over are heard of one after the other, up to the first that is not
written. -/
theorem Heard.handOver (h : Heard s channels groups groups.length o) (more : List (List Frame))
    (notes : List (Except Error Unit)) :
    let r := Windower.handOver (Windower.noting (Outlet.receive s))
      (Windower.bounds s.anchor channels more) (o, notes)
    (r.1 = .ok () ∧ Heard s channels (groups ++ more) (groups ++ more).length r.2.1 ∧
        r.2.2 = notes ++ .replicate more.length (.ok ())) ∨
      ∃ e first refused rest, more = first ++ refused :: rest ∧ r.1 = .error e ∧
        Heard s channels (groups ++ first ++ [refused]) (groups ++ first).length r.2.1 ∧
        r.2.2 = notes ++ .replicate first.length (.ok ()) ++ [.error e] := by
  induction more generalizing groups o notes with
  | nil =>
    refine .inl ⟨rfl, ?_, (List.append_nil _).symm⟩
    rw [List.append_nil]
    exact h
  | cons group more ih =>
    have hone := h.receive group
    dsimp only at hone ⊢
    rw [Windower.bounds, List.map_cons, Windower.handOver, Windower.noting]
    dsimp only
    rcases hr : Outlet.receive s (ChannelExtrema.ofFrames s.anchor channels group).extrema o with
      ⟨e | _, o'⟩
    · rw [hr] at hone
      refine .inr ⟨e, [], group, more, rfl, rfl, ?_, ?_⟩
      · rw [List.append_nil]
        exact hone
      · rw [List.length_nil, List.replicate_zero, List.append_nil]
    · rw [hr] at hone
      have hlength : groups.length + 1 = (groups ++ [group]).length := by simp
      have hsplit : groups ++ group :: more = groups ++ [group] ++ more := by simp
      have hnotes : ∀ k : Nat, notes ++ [Except.ok ()] ++ List.replicate k (Except.ok ()) =
          notes ++ List.replicate (k + 1) (Except.ok () : Except Error Unit) := fun k => by
        rw [List.replicate_succ, List.append_assoc, List.singleton_append]
      rcases ih (hlength ▸ hone) (notes ++ [.ok ()]) with ⟨hok, hheard, heq⟩ |
        ⟨e, first, refused, rest, rfl, herror, hheard, heq⟩
      · refine .inl ⟨hok, ?_, heq.trans (hnotes _)⟩
        rw [hsplit]
        exact hheard
      · refine .inr ⟨e, group :: first, refused, rest, rfl, herror, ?_, ?_⟩
        · have hsplit' : groups ++ group :: first = groups ++ [group] ++ first := by simp
          rw [hsplit']
          exact hheard
        · exact heq.trans (congrArg (· ++ [.error e]) (hnotes first.length))

end Outlet

/-! ## Groups by number -/

/-- Group number `j` of an intake has the frames from `j * window` on, and is a full one
unless the end came. -/
theorem Intake.getElem_groups {window : Nat} (hw : 0 < window) (i : Intake) {j : Nat}
    (h : j < (i.groups window).length) :
    (i.groups window)[j] = (i.frames.drop (j * window)).take window ∧
      j * window < i.frames.length ∧
      ((j + 1) * window ≤ i.frames.length ∨ i.ended = true) := by
  rcases hended : i.ended with _ | _
  · have hgroups : i.groups window = Cut.whole window i.frames := by
      rw [groups, if_neg (by simp [hended])]
    simp only [hgroups] at h ⊢
    obtain ⟨heq, hle⟩ := Cut.getElem_whole h
    refine ⟨heq, ?_, .inl hle⟩
    rw [Nat.succ_mul] at hle
    omega
  · have hgroups : i.groups window = Cut.all window i.frames := by
      rw [groups, if_pos hended]
    simp only [hgroups] at h ⊢
    obtain ⟨heq, hlt⟩ := Cut.getElem_all hw h
    exact ⟨heq, hlt, .inr trivial⟩

/-! ## Answers of windows -/

/-- At most the last window failed, and so all others are written. -/
def Settled (notes : List (Except Error Unit)) : Prop :=
  notes.length = notes.countP Except.isOk + if notes.all Except.isOk then 0 else 1

theorem all_replicate_ok (k : Nat) :
    (List.replicate k (.ok () : Except Error Unit)).all Except.isOk = true := by
  simp [Except.isOk, Except.toBool]

theorem countP_of_all {notes : List (Except Error Unit)} (h : notes.all Except.isOk = true) :
    notes.countP Except.isOk = notes.length :=
  List.countP_eq_length.2 (List.all_eq_true.1 h)

theorem settled_of_all {notes : List (Except Error Unit)} (h : notes.all Except.isOk = true) :
    Settled notes := by
  rw [Settled, countP_of_all h, if_pos h, Nat.add_zero]

theorem settled_concat_error {notes : List (Except Error Unit)}
    (h : notes.all Except.isOk = true) (e : Error) : Settled (notes ++ [.error e]) := by
  have hlast : (notes ++ [Except.error e]).all Except.isOk = false := by
    rw [List.all_append, h]
    rfl
  rw [Settled, hlast, List.countP_append, countP_of_all h, List.length_append]
  rfl

/-! ## Listening while frames come -/

/-- A windower and an outlet have come as far as the frames say: the listener has heard of the
full windows of all frames, all of them are written, and the open window holds what is left. -/
structure Attending (s : Settings) (l : Layout) (window : Nat) (frames : List Frame)
    (w : Windower) (o : Outlet) : Prop where
  window_eq : w.window = window
  held : w.Holds s.anchor l.channels (Cut.rest window frames)
  heard : o.Heard s l.channels (Cut.whole window frames) (Cut.whole window frames).length

namespace Attending

variable {s : Settings} {l : Layout} {window : Nat} {frames more : List Frame} {w : Windower}
  {o : Outlet}

theorem window_pos (h : Attending s l window frames w o) : 0 < window :=
  h.window_eq ▸ Nat.zero_lt_of_lt w.filled_lt

/-- Before the first frame there is nothing to hear of. -/
theorem start (hw : 0 < window) (hsilent : o.observed = some #[]) (hnone : o.draft.windows = 0) :
    Attending s l window [] (.start (.fresh l.channels s.anchor) window hw) o where
  window_eq := rfl
  held := by
    rw [Cut.rest_of_lt (by simpa using hw)]
    exact Windower.holds_start s.anchor l.channels hw
  heard := by
    rw [Cut.whole_of_lt (by simpa using hw)]
    exact ⟨hsilent, hnone⟩

/-- Frames that are added are heard of in full windows, up to the first that is not
written. -/
theorem addFrames (h : Attending s l window frames w o)
    (hmore : ∀ frame ∈ more, frame.length = l.channels) :
    let r := w.addFrames (Windower.noting (Outlet.receive s)) more (o, [])
    (r.1 = .ok () ∧ Attending s l window (frames ++ more) r.2.1 r.2.2.1 ∧
        r.2.2.2.all Except.isOk = true ∧
        (Cut.whole window frames).length + r.2.2.2.length =
          (Cut.whole window (frames ++ more)).length) ∨
      ∃ e groups written, r.1 = .error e ∧ groups <+: Cut.whole window (frames ++ more) ∧
        r.2.2.1.Heard s l.channels groups written ∧ Settled r.2.2.2 ∧
        (Cut.whole window frames).length + r.2.2.2.length = groups.length := by
  obtain ⟨w', heq, hwindow, hok⟩ :=
    Windower.addFrames_cases (Windower.noting (Outlet.receive s)) h.held hmore (o, [])
  rw [h.window_eq] at heq hwindow hok
  -- The full windows of all frames are those before and those that the new frames fill.
  have hwhole := Cut.whole_append h.window_pos frames more
  have hheard := h.heard.handOver (Cut.whole window (Cut.rest window frames ++ more)) []
  dsimp only at hheard ⊢
  rw [heq, hwhole]
  rcases hheard with ⟨hr, hheard, hnotes⟩ |
    ⟨e, first, refused, rest, hsplit, hr, hheard, hnotes⟩
  · rw [List.nil_append] at hnotes
    refine .inl ⟨hr, ⟨hwindow, ?_, ?_⟩, ?_, ?_⟩
    · rw [Cut.rest_append h.window_pos]
      exact (hok hr).1
    · rw [hwhole]
      exact hheard
    · rw [hnotes]
      exact all_replicate_ok _
    · rw [hnotes, List.length_replicate, List.length_append]
  · rw [List.nil_append] at hnotes
    refine .inr ⟨e, _, _, hr, ⟨rest, ?_⟩, hheard, ?_, ?_⟩
    · rw [hsplit]
      simp
    · rw [hnotes]
      exact settled_concat_error (all_replicate_ok _) e
    · rw [hnotes]
      simp only [List.length_append, List.length_replicate, List.length_singleton]
      omega

/-- At the end the window of what is left is heard of, if anything is left. -/
theorem flush (h : Attending s l window frames w o) :
    let r := w.flush (Windower.noting (Outlet.receive s)) (o, [])
    (∃ written, r.2.2.1.Heard s l.channels (Cut.all window frames) written ∧
        (r.1.isOk = true → written = (Cut.all window frames).length)) ∧
      Settled r.2.2.2 ∧ (r.1.isOk = true → r.2.2.2.all Except.isOk = true) ∧
      (Cut.whole window frames).length + r.2.2.2.length = (Cut.all window frames).length := by
  dsimp only
  rw [Windower.flush_eq _ h.held]
  by_cases h0 : Cut.rest window frames = []
  · have hall := Cut.all_of_rest_eq_nil h0
    rw [if_pos h0, hall]
    exact ⟨⟨_, h.heard, fun _ => rfl⟩, settled_of_all rfl, fun _ => rfl, rfl⟩
  · have hall := Cut.all_of_rest_ne_nil h0
    have hone := h.heard.receive (Cut.rest window frames)
    rw [if_neg h0, hall, Windower.noting]
    dsimp only at hone ⊢
    rcases hr : Outlet.receive s
      (ChannelExtrema.ofFrames s.anchor l.channels (Cut.rest window frames)).extrema o with
      ⟨e | _, o'⟩
    · rw [hr] at hone
      refine ⟨⟨_, hone, fun hok => Bool.noConfusion hok⟩, settled_concat_error rfl e,
        fun hok => Bool.noConfusion hok, ?_⟩
      simp only [List.length_append, List.length_nil, List.length_singleton]
    · rw [hr] at hone
      refine ⟨⟨_, hone, fun _ => ?_⟩, settled_of_all rfl, fun _ => rfl, ?_⟩
      · rw [List.length_append]
        rfl
      · simp only [List.length_append, List.length_nil, List.length_singleton]

end Attending

namespace Extraction

/-! ## Answers of a run -/

/-- The answers to the windows that a call makes an extraction write. -/
def receipts (x : Extraction) (c : Call) : List (Except Error Unit) :=
  match x.stage with
  | .ready w =>
    match c with
    | .configure .. => []
    | .push b => (w.consume (Windower.noting (Outlet.receive x.settings)) b (x.outlet, [])).2.2.2
    | .finalize => (w.flush (Windower.noting (Outlet.receive x.settings)) (x.outlet, [])).2.2.2
  | _ => []

/-- The answers to all windows that calls make an extraction write. -/
def receiptsOf (x : Extraction) : List Call → List (Except Error Unit)
  | [] => []
  | c :: calls => x.receipts c ++ receiptsOf (x.call c).2 calls

variable {x : Extraction}

theorem receiptsOf_append (x : Extraction) (first second : List Call) :
    x.receiptsOf (first ++ second) = x.receiptsOf first ++ (x.after first).receiptsOf second := by
  induction first generalizing x with
  | nil => rfl
  | cons c first ih =>
    rw [List.cons_append, receiptsOf, receiptsOf, ih, List.append_assoc]
    rfl

/-- Configuring makes no window be written. -/
theorem receipts_configure (x : Extraction) (l : Layout) (granted : Bool)
    (created : Except StorageError Device) :
    x.receipts (.configure l granted created) = [] := by
  rw [receipts]
  cases x.stage <;> rfl

/-- Where no frames are accepted, nothing is written. -/
theorem receipts_of_not_ready (h : x.state ≠ .ready) (c : Call) : x.receipts c = [] := by
  rw [receipts]
  rcases hs : x.stage with _ | w | summary | _
  · rfl
  · exact absurd (by rw [state, hs]; rfl) h
  · rfl
  · rfl

/-- What a push makes be written. -/
theorem receipts_push {w : Windower} (h : x.stage = .ready w) (b : SampleBuffer) :
    x.receipts (.push b) =
      match w.fault? b with
      | some _ => []
      | none => (w.addFrames (Windower.noting (Outlet.receive x.settings)) (b.frames w.channels)
          (x.outlet, [])).2.2.2 := by
  rw [receipts, h]
  dsimp only
  rw [Windower.consume_eq]
  rcases w.fault? b with _ | fault <;> rfl

/-- The end is not refused while frames are accepted. -/
theorem Move.isRefusal_finalize {a : Answer} {state' : CallState}
    (h : Move .ready .finalize a state') : a.isRefusal = false := by
  cases h with
  | outOfTurn h => exact absurd rfl h
  | finalized => rfl
  | unfinished h => exact h

/-- A buffer that is refused does not fit. -/
theorem fault_of_isRefusal (hx : x.Sound) {w : Windower} (hstage : x.stage = .ready w)
    {b : SampleBuffer} (h : (x.call (.push b)).1.isRefusal = true) :
    ∃ fault, w.fault? b = some fault := by
  rcases hf : w.fault? b with _ | fault
  · exfalso
    obtain ⟨-, herror⟩ := Windower.addFrames_keeps (Outlet.receive_keeps x.settings) w
      (b.frames w.channels) (headerWritten_of_ready hx hstage)
    rw [call_push, push_eq hx hstage, hf] at h
    dsimp only at h
    rcases hr : w.addFrames (Outlet.receive x.settings) (b.frames w.channels) x.outlet with
      ⟨cause | _, w', o'⟩
    · rw [hr] at h herror
      have hcause : cause.isRefusal = true := h
      exact absurd (herror cause rfl) (by simp [hcause])
    · rw [hr] at h
      cases h
  · exact ⟨fault, rfl⟩

/-- A refused call makes nothing be written. -/
theorem receipts_of_isRefusal (hx : x.Sound) {c : Call} (h : (x.call c).1.isRefusal = true) :
    x.receipts c = [] := by
  by_cases hs : x.state = .ready
  · obtain ⟨w, hstage⟩ := exists_stage_eq_ready hs
    cases c with
    | configure l granted created => exact receipts_configure x l granted created
    | push b =>
      obtain ⟨fault, hf⟩ := fault_of_isRefusal hx hstage h
      rw [receipts_push hstage, hf]
    | finalize =>
      have hmove := (stepped_call hx .finalize).move
      rw [hs] at hmove
      exact absurd hmove.isRefusal_finalize (by simp [h])
  · exact receipts_of_not_ready hs c

/-- A buffer is not refused exactly if it fits while frames are accepted. -/
theorem isRefusal_push_iff (hx : x.Sound) (b : SampleBuffer) :
    (x.call (.push b)).1.isRefusal = false ↔
      ∃ w, x.stage = .ready w ∧ b.Fits w.channels := by
  constructor
  · intro h
    obtain ⟨w, hstage⟩ := exists_stage_eq_ready (state_eq_turn h)
    refine ⟨w, hstage, (Windower.fault?_eq_none_iff w b).1 ?_⟩
    rcases hf : w.fault? b with _ | fault
    · rfl
    · rw [call_push, push_eq hx hstage, hf] at h
      cases h
  · rintro ⟨w, hstage, hb⟩
    rcases h : (x.call (.push b)).1.isRefusal
    · rfl
    · obtain ⟨fault, hf⟩ := fault_of_isRefusal hx hstage h
      rw [(Windower.fault?_eq_none_iff w b).2 hb] at hf
      cases hf

/-! ## Reports along a run -/

/-- So many windows were reported: the first of those that were given. -/
def Told (s : Settings) (i : Intake) (count : Nat) (o : Outlet) : Prop :=
  (o.observed = some #[] ∧ count = 0) ∨
    ∃ l window groups, i.layout = some l ∧ s.windowFrames l.rate = .ok window ∧
      groups <+: i.groups window ∧
      o.observed = some (Outlet.reports s l.channels groups).toArray ∧ count = groups.length

/-- The listener of an extraction heard of one window for each answer, and of all windows that
were given as long as nothing failed. -/
structure Heeds (s : Settings) (i : Intake) (answers : List (Except Error Unit))
    (x : Extraction) : Prop where
  settings_eq : x.settings = s
  told : Told s i answers.length x.outlet
  written : x.state ≠ .failed → answers.all Except.isOk = true
  stage : match x.stage with
    | .unconfigured => i = {} ∧ answers = [] ∧ x.outlet.observed = some #[] ∧
        x.outlet.draft.windows = 0
    | .ready w => ∃ l window, i.layout = some l ∧ i.ended = false ∧
        s.windowFrames l.rate = .ok window ∧ Attending s l window i.frames w x.outlet ∧
        answers.length = (Cut.whole window i.frames).length
    | .finalized summary => ∃ l window, i.layout = some l ∧ s.windowFrames l.rate = .ok window ∧
        answers.length = (i.groups window).length ∧ summary.windows = answers.length
    | .failed => True

variable {s : Settings} {i : Intake} {answers : List (Except Error Unit)}

namespace Heeds

theorem ready (h : Heeds s i answers x) {w : Windower} (hx : x.stage = .ready w) :
    ∃ l window, i.layout = some l ∧ i.ended = false ∧ s.windowFrames l.rate = .ok window ∧
      Attending s l window i.frames w x.outlet ∧
      answers.length = (Cut.whole window i.frames).length := by
  have hstage := h.stage
  rw [hx] at hstage
  exact hstage

/-- Before anything is given there is nothing to report. -/
theorem start (s : Settings) (destination : Destination) :
    Heeds s {} [] (toward s destination true) where
  settings_eq := rfl
  told := .inl ⟨rfl, rfl⟩
  written _ := rfl
  stage := by cases destination <;> exact ⟨rfl, rfl, rfl, rfl⟩

/-- A call that configures and is not refused. -/
theorem configure (h : Heeds s i answers x) {l : Layout} {granted : Bool}
    {created : Except StorageError Device}
    (hc : (x.call (.configure l granted created)).1.isRefusal = false) :
    Heeds s (i.add (.configure l granted created)) answers
      (x.call (.configure l granted created)).2 := by
  have hstage : x.stage = .unconfigured := stage_eq_unconfigured (state_eq_turn hc)
  obtain rfl := h.settings_eq
  have hnothing := h.stage
  rw [hstage] at hnothing
  obtain ⟨rfl, rfl, hsilent, hnone⟩ := hnothing
  rw [call_configure] at hc ⊢
  rcases configure_cases hstage l granted created with
    ⟨e, ho, heq⟩ | ⟨name, cause, -, heq⟩ | ⟨w, header, draft, ho, hdraft, heq⟩
  · have hrefused := Error.isRefusal_of_isValidation (isValidation_of_opening ho)
    rw [heq] at hc
    exact absurd hc (by simp [Answer.isRefusal, Except.map, hrefused])
  · rw [heq]
    exact ⟨rfl, .inl ⟨hsilent, rfl⟩, fun _ => rfl, trivial⟩
  · have hempty : (draft.writeHeader header).2.windows = 0 := by
      rw [Draft.windows_writeHeader]
      rcases hdraft with rfl | ⟨name, device, -, rfl⟩
      · exact hnone
      · rfl
    rw [heq]
    rcases hw : draft.writeHeader header with ⟨cause | _, draft'⟩
    · exact ⟨rfl, .inl ⟨hsilent, rfl⟩, fun _ => rfl, trivial⟩
    · obtain ⟨hl, rfl, window, hwindow⟩ := check_of_opening ho
      have hopened := (opening_eq hl hwindow).symm.trans ho
      obtain ⟨rfl, -⟩ := Prod.mk.inj (Except.ok.inj hopened)
      rw [hw] at hempty
      have hnowhole : Cut.whole window ([] : List Frame) = [] :=
        Cut.whole_of_lt (Settings.windowFrames_bounds hwindow).1
      refine ⟨rfl, .inl ⟨hsilent, rfl⟩, fun _ => rfl, l, window, rfl, rfl, hwindow, ?_, ?_⟩
      · exact .start _ hsilent hempty
      · show 0 = (Cut.whole window ([] : List Frame)).length
        rw [hnowhole]
        rfl

/-- A call that pushes and is not refused. -/
theorem push (hx : x.Sound) (h : Heeds s i answers x) {b : SampleBuffer}
    (hc : (x.call (.push b)).1.isRefusal = false) :
    Heeds s (i.add (.push b)) (answers ++ x.receipts (.push b)) (x.call (.push b)).2 ∧
      Settled (x.receipts (.push b)) := by
  obtain ⟨w, hstage, hb⟩ := (isRefusal_push_iff hx b).1 hc
  obtain rfl := h.settings_eq
  obtain ⟨l, window, hl, hended, hwindow, hattending, hcount⟩ := h.ready hstage
  have hchannels := hattending.held.channels_eq
  have hfault : w.fault? b = none := (Windower.fault?_eq_none_iff w b).2 hb
  rw [hchannels] at hb
  have hadd : i.add (.push b) = { i with frames := i.frames ++ b.frames l.channels } := by
    rw [Intake.add, hl]
    rfl
  have hgroups : ({ i with frames := i.frames ++ b.frames l.channels } : Intake).groups window =
      Cut.whole window (i.frames ++ b.frames l.channels) := by
    rw [Intake.groups, if_neg (by simp [hended])]
  have hall := h.written (by rw [state, hstage]; exact fun h => by cases h)
  -- The call adds the frames with a receiver that notes nothing, which comes to the same.
  have hadded := hattending.addFrames
    fun frame hframe => SampleBuffer.length_of_mem_frames hb hframe
  rw [call_push, push_eq hx hstage, receipts_push hstage, hfault, hadd, hchannels]
  dsimp only at hadded ⊢
  rw [Windower.addFrames_noting (Outlet.receive x.settings) w (b.frames l.channels) x.outlet []]
  rcases hr : w.addFrames (Windower.noting (Outlet.receive x.settings)) (b.frames l.channels)
    (x.outlet, []) with ⟨answer, w', o', notes⟩
  rw [hr] at hadded
  rcases hadded with ⟨rfl, hattending', hnotes, hlength⟩ |
    ⟨e, groups, written, rfl, hfirst, hheard, hsettled, hlength⟩
  · dsimp only at hattending' hnotes hlength ⊢
    have htotal : (answers ++ notes).length =
        (Cut.whole window (i.frames ++ b.frames l.channels)).length := by
      rw [List.length_append, hcount, hlength]
    refine ⟨⟨rfl, ?_, fun _ => ?_, l, window, hl, hended, hwindow, hattending', htotal⟩,
      settled_of_all hnotes⟩
    · refine .inr ⟨l, window, _, hl, hwindow, ?_, hattending'.heard.observed, htotal⟩
      rw [hgroups]
    · rw [List.all_append, hall, hnotes]
      rfl
  · dsimp only at hheard hsettled hlength ⊢
    refine ⟨⟨rfl, ?_, fun hfailed => absurd rfl hfailed, trivial⟩, hsettled⟩
    refine .inr ⟨l, window, groups, hl, hwindow, ?_, hheard.observed, ?_⟩
    · rw [hgroups]
      exact hfirst
    · rw [List.length_append, hcount, hlength]

/-- A call that finalizes and is not refused. -/
theorem finalize (h : Heeds s i answers x) (hc : (x.call .finalize).1.isRefusal = false) :
    Heeds s (i.add .finalize) (answers ++ x.receipts .finalize) (x.call .finalize).2 ∧
      Settled (x.receipts .finalize) := by
  obtain ⟨w, hstage⟩ := exists_stage_eq_ready (state_eq_turn hc)
  obtain rfl := h.settings_eq
  obtain ⟨l, window, hl, -, hwindow, hattending, hcount⟩ := h.ready hstage
  have hall := h.written (by rw [state, hstage]; exact fun h => by cases h)
  have hgroups : (i.add .finalize).groups window = Cut.all window i.frames := rfl
  have hreceipts : x.receipts .finalize =
      (w.flush (Windower.noting (Outlet.receive x.settings)) (x.outlet, [])).2.2.2 := by
    rw [receipts, hstage]
  have hflushed := hattending.flush
  have hcases := finalize_cases hstage
  rw [Windower.flush_noting (Outlet.receive x.settings) w x.outlet []] at hcases
  rw [call_finalize, hreceipts]
  dsimp only at hflushed hcases ⊢
  rcases hr : w.flush (Windower.noting (Outlet.receive x.settings)) (x.outlet, []) with
    ⟨answer, w', o', notes⟩
  rw [hr] at hflushed hcases
  obtain ⟨⟨written, hheard, hwritten⟩, hsettled, hnotes, hlength⟩ := hflushed
  have htotal : (answers ++ notes).length = (Cut.all window i.frames).length := by
    rw [List.length_append, hcount, hlength]
  have htold : ∀ o : Outlet, o.observed = o'.observed →
      Told x.settings (i.add .finalize) (answers ++ notes).length o := by
    intro o ho
    exact .inr ⟨l, window, _, hl, hwindow, List.prefix_rfl, ho.trans hheard.observed, htotal⟩
  refine ⟨?_, hsettled⟩
  rcases hcases with ⟨cause, w'', o'', hflush, heq⟩ |
    ⟨partialWindow, w'', o'', hflush, ⟨cause, draft, -, heq⟩ | ⟨size, draft, -, heq⟩⟩
  · obtain ⟨-, -, rfl⟩ : answer = .error cause ∧ w' = w'' ∧ o' = o'' := by simpa using hflush
    rw [heq]
    exact ⟨rfl, htold _ rfl, fun hfailed => absurd rfl hfailed, trivial⟩
  · obtain ⟨-, -, rfl⟩ : answer = .ok partialWindow ∧ w' = w'' ∧ o' = o'' := by simpa using hflush
    rw [heq]
    exact ⟨rfl, htold _ rfl, fun hfailed => absurd rfl hfailed, trivial⟩
  · obtain ⟨rfl, -, rfl⟩ : answer = .ok partialWindow ∧ w' = w'' ∧ o' = o'' := by simpa using hflush
    rw [heq]
    refine ⟨rfl, htold _ rfl, fun _ => ?_, l, window, hl, hwindow, htotal, ?_⟩
    · rw [List.all_append, hall, hnotes rfl]
      rfl
    · show o'.draft.windows = _
      rw [hheard.written, hwritten rfl, htotal]

/-- **One step.**  A call that is not refused keeps the reports with the frames that were given
and with the answers. -/
theorem call (hx : x.Sound) (h : Heeds s i answers x) {c : Call}
    (hc : (x.call c).1.isRefusal = false) :
    Heeds s (i.add c) (answers ++ x.receipts c) (x.call c).2 ∧ Settled (x.receipts c) := by
  cases c with
  | configure l granted created =>
    rw [receipts_configure, List.append_nil]
    exact ⟨h.configure hc, settled_of_all rfl⟩
  | push b => exact h.push hx hc
  | finalize => exact h.finalize hc

/-- At most the last window of a call fails. -/
theorem settled (hx : x.Sound) (h : Heeds s i answers x) (c : Call) : Settled (x.receipts c) := by
  rcases hc : (x.call c).1.isRefusal
  · exact (h.call hx hc).2
  · rw [receipts_of_isRefusal hx hc]
    exact settled_of_all rfl

/-- A run keeps the reports with the frames and with the answers. -/
theorem after (hx : x.Sound) (h : Heeds s i answers x) (calls : List Call) :
    Heeds s ((x.kept calls).foldl (fun i entry => i.add entry.1) i)
      (answers ++ x.receiptsOf calls) (x.after calls) := by
  induction calls generalizing x i answers with
  | nil =>
    rw [receiptsOf, List.append_nil]
    exact h
  | cons c calls ih =>
    have hstep := stepped_call hx c
    rw [receiptsOf, ← List.append_assoc]
    rcases hc : (x.call c).1.isRefusal
    · rw [kept_cons hc]
      exact ih hstep.sound (h.call hx hc).1
    · -- A refused call gives nothing, makes nothing be written and changes nothing.
      have hsame : (x.call c).2 = x := hstep.unchanged hc
      rw [kept_cons_of_refusal hx hc, receipts_of_isRefusal hx hc, List.append_nil]
      show Heeds s _ (answers ++ (x.call c).2.receiptsOf calls) ((x.call c).2.after calls)
      rw [hsame]
      exact ih hx h

/-- As long as nothing failed, all windows that were given are reported and counted. -/
theorem windows_eq (h : Heeds s i answers x) (hx : x.state = .ready ∨ x.state = .finalized) :
    x.windows = answers.length ∧ ∃ l window, i.layout = some l ∧
      s.windowFrames l.rate = .ok window ∧ answers.length = (i.groups window).length := by
  have hstage := h.stage
  rw [windows]
  rcases hs : x.stage with _ | w | summary | _
  · rw [state, hs] at hx
    rcases hx with hx | hx <;> cases hx
  · rw [hs] at hstage
    obtain ⟨l, window, hl, hended, hwindow, hattending, hcount⟩ := hstage
    refine ⟨hattending.heard.written.trans hcount.symm, l, window, hl, hwindow, ?_⟩
    rw [Intake.groups, if_neg (by simp [hended]), hcount]
  · rw [hs] at hstage
    obtain ⟨l, window, hl, hwindow, hcount, hwindows⟩ := hstage
    exact ⟨hwindows, l, window, hl, hwindow, hcount⟩
  · rw [state, hs] at hx
    rcases hx with hx | hx <;> cases hx

/-- A buffer is given exactly if it fits the layout while frames are accepted. -/
theorem push_iff (hx : x.Sound) (h : Heeds s i answers x) (b : SampleBuffer) :
    (x.call (.push b)).1.isRefusal = false ↔
      x.state = .ready ∧ ∃ l, i.layout = some l ∧ b.Fits l.channels := by
  rw [isRefusal_push_iff hx]
  constructor
  · rintro ⟨w, hstage, hb⟩
    obtain ⟨l, window, hl, -, -, hattending, -⟩ := h.ready hstage
    rw [hattending.held.channels_eq] at hb
    exact ⟨by rw [state, hstage]; rfl, l, hl, hb⟩
  · rintro ⟨hready, l, hl, hb⟩
    obtain ⟨w, hstage⟩ := exists_stage_eq_ready hready
    obtain ⟨l', window, hl', -, -, hattending, -⟩ := h.ready hstage
    obtain rfl : l = l' := Option.some.inj (hl.symm.trans hl')
    refine ⟨w, hstage, ?_⟩
    rw [hattending.held.channels_eq]
    exact hb

/-- What was reported, window by window. -/
theorem reports (h : Heeds s i answers x) :
    ∃ log : Array Observation, x.outlet.observed = some log ∧ log.size = answers.length ∧
      ∀ (j : Nat) (hj : j < log.size), ∃ l window, i.layout = some l ∧
        s.windowFrames l.rate = .ok window ∧
        log[j] = ⟨j, (ChannelExtrema.ofFrames s.anchor l.channels
          ((i.frames.drop (j * window)).take window)).extrema⟩ ∧
        j * window < i.frames.length ∧
        ((j + 1) * window ≤ i.frames.length ∨ i.ended = true) := by
  rcases h.told with ⟨hsilent, hnone⟩ |
    ⟨l, window, groups, hl, hwindow, hfirst, hobserved, hcount⟩
  · exact ⟨#[], hsilent, hnone.symm, fun j hj => absurd hj (Nat.not_lt_zero j)⟩
  · have hsize : (Outlet.reports s l.channels groups).toArray.size = groups.length := by
      rw [List.size_toArray, Outlet.length_reports]
    refine ⟨_, hobserved, hsize.trans hcount.symm, fun j hj => ?_⟩
    have hgroup : j < groups.length := hsize ▸ hj
    obtain ⟨heq, hlt, hfull⟩ := Intake.getElem_groups (Settings.windowFrames_bounds hwindow).1 i
      (Nat.lt_of_lt_of_le hgroup hfirst.length_le)
    refine ⟨l, window, hl, hwindow, ?_, hlt, hfull⟩
    rw [← heq, ← hfirst.getElem hgroup]
    simp only [Outlet.reports, List.getElem_toArray, List.getElem_mapIdx]

end Heeds

/-- A run that ends failed has a call that fails it, and nothing changes behind that. -/
theorem exists_failing_call (hx : x.Sound) {calls : List Call} (hstart : x.state ≠ .failed)
    (hend : (x.after calls).state = .failed) :
    ∃ before c rest, calls = before ++ c :: rest ∧ (x.after before).state ≠ .failed ∧
      ((x.after before).call c).2 = x.after calls := by
  induction calls generalizing x with
  | nil => exact absurd hend hstart
  | cons c calls ih =>
    have hsound := (stepped_call hx c).sound
    by_cases hnext : (x.call c).2.state = .failed
    · refine ⟨[], c, calls, rfl, hstart, ?_⟩
      exact (after_of_terminal hsound (.inr hnext) calls).symm
    · obtain ⟨before, c', rest, rfl, hbefore, heq⟩ := ih hsound hnext hend
      exact ⟨c :: before, c', rest, rfl, hbefore, heq⟩

/-- Behind a failure nothing is written. -/
theorem receiptsOf_of_failed (hx : x.Sound) (h : x.state = .failed) (calls : List Call) :
    x.receiptsOf calls = [] := by
  induction calls with
  | nil => rfl
  | cons c calls ih =>
    have hsame : (x.call c).2 = x := after_of_terminal hx (.inr h) [c]
    have hnone : x.receipts c = [] := receipts_of_not_ready (by rw [h]; decide) c
    rw [receiptsOf, hnone, hsame, ih, List.append_nil]

/-- **Every window is heard of once, in order.**  After any calls to an extraction with a
listener, towards any destination, and with devices that may fail at any call:

* report `j` carries the number `j`, and the bounds of the frames from `j * window` on among
  all that were given, a full window of them unless the end came; frames are given by exactly
  the buffers that fit and are pushed while frames are accepted;
* while frames are accepted, and once finalized, there are as many reports as windows are
  counted and as the frames make;
* always there are as many reports as windows were to be written; in a failed run these are
  the windows that were written, and one more exactly if a window was not taken by the call
  that failed, and nothing more is reported. -/
theorem reports_of_calls (s : Settings) (destination : Destination) (calls : List Call) :
    let x := toward s destination true
    let now := x.after calls
    let intake := x.intake calls
    let answers := x.receiptsOf calls
    (∃ log : Array Observation, now.outlet.observed = some log ∧ log.size = answers.length ∧
      ∀ (j : Nat) (hj : j < log.size), ∃ l window, intake.layout = some l ∧
        s.windowFrames l.rate = .ok window ∧
        log[j] = ⟨j, (ChannelExtrema.ofFrames s.anchor l.channels
          ((intake.frames.drop (j * window)).take window)).extrema⟩ ∧
        j * window < intake.frames.length ∧
        ((j + 1) * window ≤ intake.frames.length ∨ intake.ended = true)) ∧
      (∀ b, (now.call (.push b)).1.isRefusal = false ↔
        now.state = .ready ∧ ∃ l, intake.layout = some l ∧ b.Fits l.channels) ∧
      (now.state = .ready ∨ now.state = .finalized →
        now.windows = answers.length ∧ ∃ l window, intake.layout = some l ∧
          s.windowFrames l.rate = .ok window ∧
          answers.length = (intake.groups window).length) ∧
      (now.state = .failed →
        (∃ before c rest, calls = before ++ c :: rest ∧ (x.after before).state ≠ .failed ∧
          ((x.after before).call c).2 = now ∧
          answers.length = answers.countP Except.isOk +
            if ((x.after before).receipts c).all Except.isOk then 0 else 1) ∧
        ∀ more, x.after (calls ++ more) = now) := by
  intro x now intake answers
  have hx : x.Sound := sound_toward s destination true
  have hnow : now.Sound := sound_after hx calls
  have hheeds : Heeds s intake answers now := (Heeds.start s destination).after hx calls
  refine ⟨hheeds.reports, hheeds.push_iff hnow, hheeds.windows_eq, fun hfailed => ⟨?_, ?_⟩⟩
  · have hstart : x.state ≠ .failed := fun hfailed => by cases hfailed
    obtain ⟨before, c, rest, hcalls, hbefore, heq⟩ := exists_failing_call hx hstart hfailed
    have hsound : (x.after before).Sound := sound_after hx before
    have hprevious : Heeds s (x.intake before) (x.receiptsOf before) (x.after before) :=
      (Heeds.start s destination).after hx before
    refine ⟨before, c, rest, hcalls, hbefore, heq, ?_⟩
    -- All windows before the call are written, and behind it there are none.
    have hnone : ((x.after before).call c).2.receiptsOf rest = [] :=
      receiptsOf_of_failed (stepped_call hsound c).sound (by rw [heq]; exact hfailed) rest
    have hanswers : answers = x.receiptsOf before ++ (x.after before).receipts c := by
      show x.receiptsOf calls = _
      rw [hcalls, receiptsOf_append, receiptsOf, hnone, List.append_nil]
    have hsettled := hprevious.settled hsound c
    rw [Settled] at hsettled
    rw [hanswers, List.length_append, List.countP_append, countP_of_all (hprevious.written hbefore),
      Nat.add_assoc, ← hsettled]
  · intro more
    rw [after_append]
    exact after_of_terminal hnow (.inr hfailed) more

/-- One channel and windows of two frames, on a device that refuses its third write call.  The
second window is reported and not written, and a third one is not heard of. -/
theorem reports_of_calls_broken :
    let settings : Settings := ⟨Binary.ofNat _ 1, true, .eight, none, .extrema⟩
    let d : Device := { writeFaults := [(3, .fails "gone")] }
    let x := toward settings (.device d) true
    let samples : List Sample :=
      [0x3f000000, 0x3f800000, 0xbf800000, 0, 0x3f000000, 0].map (.ofBits _)
    let calls := [Call.configure ⟨1, 2⟩ true (.error .noSpace), .push (.interleaved samples)]
    (∃ log, (x.after calls).outlet.observed = some log ∧ log.size = 2) ∧
      (x.after calls).outlet.draft.windows = 1 ∧
      x.after (calls ++ [.push (.interleaved samples)]) = x.after calls := by
  intro settings d x samples calls
  obtain ⟨⟨log, hlog, hsize, -⟩, -, -, hfailed⟩ := reports_of_calls settings (.device d) calls
  have hanswers : (x.receiptsOf calls).length = 2 := by decide +kernel
  have hstate : (x.after calls).state = .failed := by decide +kernel
  -- The facts above are told of the extraction itself, not of its name.
  dsimp only [x] at hanswers hstate ⊢
  exact ⟨⟨log, hlog, hsize.trans hanswers⟩, by decide +kernel, (hfailed hstate).2 _⟩

end Extraction

end Peakfile
