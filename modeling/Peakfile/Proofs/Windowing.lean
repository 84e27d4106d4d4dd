/-
# Windows do not depend on buffers

A windower is run over buffers and flushes in any order.  Both kinds of buffer come down
to their frames, added one by one (`consume_eq`), and added frames hand over the full
groups of all frames since the window was opened (`addFrames_cases`).  A run therefore
hands over what cutting the frames between flushes gives (`Follows.after`).
-/
import Peakfile.Proofs.Stream

namespace Peakfile

/-! ## Planes as frames -/

namespace ChannelExtrema

@[simp] theorem channels_reset (c : ChannelExtrema) : c.reset.channels = c.channels := by
  simp [reset, fresh, channels]

/-- Runs of samples leave the number of channels as it is. -/
theorem channels_addPlanes {c : ChannelExtrema} {planes : List (List Sample)}
    (h : planes.length = c.channels) : (c.addPlanes planes).channels = c.channels := by
  rw [channels, addPlanes, List.length_zipWith, h]
  exact Nat.min_self _

/-- Runs of planes are added as their frames are, one by one. -/
theorem foldl_addFrame_columns (c : ChannelExtrema) {planes : List (List Sample)} {count : Nat}
    (hc : planes.length = c.channels) (hlong : ∀ plane ∈ planes, count ≤ plane.length) :
    (SampleBuffer.columns planes count).foldl addFrame c =
      c.addPlanes (planes.map (·.take count)) := by
  replace hc : planes.length = c.extrema.length := hc
  induction count with
  | zero =>
    have hnone : List.zipWith Extrema.addAll c.extrema (planes.map (·.take 0)) = c.extrema := by
      refine List.ext_getElem (by simp [hc]) fun i _ _ => ?_
      simp [Extrema.addAll]
    simp only [addPlanes, hnone]
    rfl
  | succ count ih =>
    have hi : ∀ plane ∈ planes, count < plane.length := hlong
    -- The last column adds the sample that each plane has next.
    rw [SampleBuffer.columns_succ, List.foldl_append, ih fun plane hp => (hi plane hp).le,
      SampleBuffer.filterMap_getElem?_eq_map hi]
    simp only [addPlanes, addFrame, List.foldl_cons, List.foldl_nil, ChannelExtrema.mk.injEq,
      true_and]
    rw [List.drop_of_length_le (by simp), List.append_nil]
    refine List.ext_getElem (by simp) fun i h _ => ?_
    have hip : i < planes.length := by
      simp only [List.length_zipWith, List.length_map] at h
      omega
    have hlen : count < planes[i].length := hi _ (List.getElem_mem hip)
    simp only [List.getElem_zipWith, List.getElem_map, List.take_add_one,
      List.getElem?_eq_getElem hlen, List.getD_eq_getElem _ _ hlen, Option.toList_some,
      Extrema.addAll_append]
    rfl

end ChannelExtrema

namespace Windower

variable {σ : Type} (receive : Receiver σ)

@[simp] theorem channels_advance (w : Windower) (added : ChannelExtrema) (count : Nat) (s : σ) :
    (advance receive w added count s).2.1.channels = added.channels := by
  unfold advance
  split
  · rfl
  · exact ChannelExtrema.channels_reset _

/-- Frames may be added in two goes, unless the first is stopped. -/
theorem addFrames_append (w : Windower) (first second : List Frame) (s : σ) :
    addFrames receive w (first ++ second) s =
      match addFrames receive w first s with
      | (.ok (), w', s') => addFrames receive w' second s'
      | stopped => stopped := by
  induction first generalizing w s with
  | nil => rfl
  | cons frame first ih =>
    rw [List.cons_append, addFrames, addFrames]
    rcases advance receive w (w.current.addFrame frame) 1 s with ⟨_ | _, w', s'⟩
    · rfl
    · exact ih w' s'

/-- Frames that the open window has room for are counted at once. -/
theorem addFrames_of_le_room (w : Windower) {frames : List Frame} (hne : frames ≠ [])
    (hroom : frames.length ≤ w.room) (s : σ) :
    addFrames receive w frames s =
      advance receive w (frames.foldl ChannelExtrema.addFrame w.current) frames.length s := by
  induction frames generalizing w with
  | nil => exact absurd rfl hne
  | cons frame frames ih =>
    rw [addFrames]
    cases frames with
    | nil =>
      simp only [List.foldl_cons, List.foldl_nil, List.length_singleton]
      rcases advance receive w (w.current.addFrame frame) 1 s with ⟨_ | _, w', s'⟩ <;> rfl
    | cons next frames =>
      -- More than one frame fits, so the first of them does not fill the window.
      have hlt : w.filled + 1 < w.window := by
        simp only [room, List.length_cons] at hroom
        omega
      have hone : advance receive w (w.current.addFrame frame) 1 s =
          (.ok (), ⟨w.current.addFrame frame, w.window, w.filled + 1, hlt, w.frames + 1⟩, s) := by
        rw [advance, dif_pos hlt]
      rw [hone]
      simp only [room, List.length_cons] at hroom
      have hnext := ih ⟨w.current.addFrame frame, w.window, w.filled + 1, hlt, w.frames + 1⟩
        (by simp) (by simp only [room, List.length_cons]; omega)
      simp only [hnext, List.foldl_cons, List.length_cons, advance]
      have hsum : w.filled + 1 + (frames.length + 1) = w.filled + (frames.length + 1 + 1) := by
        omega
      have hframes : w.frames + 1 + (frames.length + 1) = w.frames + (frames.length + 1 + 1) := by
        omega
      simp only [hsum, hframes]
      split
      · rfl
      · rfl

/-- Planes are consumed as their frames are. -/
theorem addPlanes_eq_addFrames (w : Windower) {planes : List (List Sample)} {frames : Nat}
    (hc : planes.length = w.channels) (hlong : ∀ plane ∈ planes, frames ≤ plane.length) (s : σ) :
    addPlanes receive w planes frames s =
      addFrames receive w (SampleBuffer.columns planes frames) s := by
  induction frames using Nat.strong_induction_on generalizing w planes s with
  | _ frames ih =>
    rw [addPlanes]
    by_cases h0 : frames = 0
    · subst h0
      simp [SampleBuffer.columns, addFrames]
    · rw [if_neg h0]
      obtain ⟨run, hrun⟩ : ∃ run, run = min w.room frames := ⟨_, rfl⟩
      have hpos : 0 < run := by
        have := w.room_pos
        omega
      have hcut : frames = run + (frames - run) := by omega
      have hshort : ∀ plane ∈ planes, run ≤ plane.length := fun plane hp =>
        le_trans (by omega) (hlong plane hp)
      have hcolumns : SampleBuffer.columns planes run ≠ [] := by
        rw [← List.length_pos_iff, SampleBuffer.length_columns]
        exact hpos
      -- The run ends with the window at the latest, so its frames are counted at once.
      have hfirst : addFrames receive w (SampleBuffer.columns planes run) s =
          advance receive w (w.current.addPlanes (planes.map (·.take run))) run s := by
        rw [addFrames_of_le_room receive w hcolumns (by simp; omega),
          ChannelExtrema.foldl_addFrame_columns _ hc hshort, SampleBuffer.length_columns]
      conv_rhs => rw [hcut, SampleBuffer.columns_add, addFrames_append, hfirst]
      have hchannels := channels_advance receive w
        (w.current.addPlanes (planes.map (·.take run))) run s
      simp only [← hrun]
      rcases hstep : advance receive w (w.current.addPlanes (planes.map (·.take run))) run s with
        ⟨_ | _, w', s'⟩
      · rw [hstep]
      · rw [hstep] at hchannels ⊢
        refine ih (frames - run) (by omega) w' ?_ ?_ s'
        · rw [hchannels, ChannelExtrema.channels_addPlanes (by rwa [List.length_map]),
            List.length_map]
          exact hc
        · intro dropped hd
          obtain ⟨plane, hp, rfl⟩ := List.mem_map.1 hd
          have := hlong plane hp
          rw [List.length_drop]
          omega

/-! ## Buffers as frames -/

theorem framesOf_eq_map (channels count : Nat) (samples : List Sample) :
    framesOf channels count samples =
      (List.range count).map fun i => (samples.drop (i * channels)).take channels := by
  induction count generalizing samples with
  | zero => rfl
  | succ count ih =>
    rw [framesOf, ih, List.range_succ_eq_map, List.map_cons, List.map_map, Nat.zero_mul,
      List.drop_zero]
    refine congrArg _ (List.map_congr_left fun i _ => ?_)
    show ((samples.drop channels).drop (i * channels)).take channels =
      (samples.drop ((i + 1) * channels)).take channels
    rw [List.drop_drop, Nat.succ_mul, Nat.add_comm]

/-- Let a windower consume a buffer of either kind. -/
def consume (w : Windower) (b : SampleBuffer) (s : σ) : Except Error Unit × Windower × σ :=
  match b with
  | .planar planes frames => w.consumePlanar receive planes frames s
  | .interleaved samples => w.consumeInterleaved receive samples s

/-- Why a buffer of either kind is refused. -/
def fault? (w : Windower) : SampleBuffer → Option BufferError
  | .planar planes frames => w.planarFault? planes frames
  | .interleaved samples => w.interleavedFault? samples

/-- Exactly the buffers that fit are not refused. -/
theorem fault?_eq_none_iff (w : Windower) (b : SampleBuffer) :
    w.fault? b = none ↔ b.Fits w.channels := by
  cases b with
  | planar planes frames =>
    simp only [fault?, planarFault?, SampleBuffer.Fits, shortPlane?]
    by_cases hc : planes.length = w.channels
    · simp only [hc, ne_eq, not_true_eq_false, if_false, Option.map_eq_none_iff,
        List.find?_eq_none, true_and, decide_eq_true_eq, not_lt]
      constructor
      · intro h plane hp
        obtain ⟨i, hi, rfl⟩ := List.getElem_of_mem hp
        exact h (planes[i], i) (List.mem_zipIdx_iff_getElem?.2 (List.getElem?_eq_getElem hi))
      · intro h plane hp
        exact h plane.1 (List.mem_of_getElem? (List.mem_zipIdx_iff_getElem?.1 hp))
    · simp [hc]
  | interleaved samples =>
    simp only [fault?, interleavedFault?, SampleBuffer.Fits, Nat.pos_iff_ne_zero,
      Nat.dvd_iff_mod_eq_zero]
    by_cases h0 : w.channels = 0
    · simp [h0]
    · by_cases hm : samples.length % w.channels = 0 <;> simp [h0, hm]

/-- A buffer that does not fit is refused and changes nothing; from one that fits the
frames are added one by one. -/
theorem consume_eq (w : Windower) (b : SampleBuffer) (s : σ) :
    w.consume receive b s =
      match w.fault? b with
      | some fault => (.error (.buffer fault), w, s)
      | none => addFrames receive w (b.frames w.channels) s := by
  cases b with
  | planar planes frames =>
    rw [consume, consumePlanar, fault?]
    rcases h : w.planarFault? planes frames with _ | fault
    · obtain ⟨hc, hlong⟩ := (fault?_eq_none_iff w (.planar planes frames)).1 h
      exact addPlanes_eq_addFrames receive w hc hlong s
    · rfl
  | interleaved samples =>
    rw [consume, consumeInterleaved, framesOf_eq_map]
    rfl

/-! ## Handing windows over -/

/-- Hand windows to a receiver in order, until it refuses one. -/
def handOver : (windows : List (List Extrema)) → (s : σ) → Except Error Unit × σ
  | [], s => (.ok (), s)
  | window :: rest, s =>
    match receive window s with
    | (.ok (), s') => handOver rest s'
    | stopped => stopped

/-- A receiver that refuses nothing ends where its windows lead it. -/
theorem handOver_of_accepts (h : ∀ window s, (receive window s).1 = .ok ())
    (windows : List (List Extrema)) (s : σ) :
    handOver receive windows s =
      (.ok (), windows.foldl (fun s window => (receive window s).2) s) := by
  induction windows generalizing s with
  | nil => rfl
  | cons window windows ih =>
    have hw := h window s
    rw [handOver]
    rcases hr : receive window s with ⟨r, s'⟩
    rw [hr] at hw
    subst hw
    show handOver receive windows s' = _
    rw [ih, List.foldl_cons, hr]

/-- The open window of a windower holds exactly these frames. -/
structure Holds (w : Windower) (anchor : Anchor) (channels : Nat) (frames : List Frame) :
    Prop where
  current : w.current = .ofFrames anchor channels frames
  filled : w.filled = frames.length

/-- The bounds handed over for each of some groups of frames. -/
def bounds (anchor : Anchor) (channels : Nat) (groups : List (List Frame)) :
    List (List Extrema) :=
  groups.map fun group => (ChannelExtrema.ofFrames anchor channels group).extrema

theorem length_bounds (anchor : Anchor) (channels : Nat) (groups : List (List Frame)) :
    (bounds anchor channels groups).length = groups.length := List.length_map _

variable {anchor : Anchor} {channels : Nat} {held : List Frame} {w : Windower}

theorem Holds.channels_eq (h : w.Holds anchor channels held) : w.channels = channels := by
  rw [Windower.channels, h.current, ChannelExtrema.channels_ofFrames]

theorem Holds.length_lt (h : w.Holds anchor channels held) : held.length < w.window :=
  h.filled ▸ w.filled_lt

/-- Before the first frame nothing is held. -/
theorem holds_start (anchor : Anchor) (channels : Nat) {window : Nat} (hw : 0 < window) :
    (start (.fresh channels anchor) window hw).Holds anchor channels [] where
  current := (ChannelExtrema.ofFrames_nil anchor channels).symm
  filled := rfl

/-- A fresh window holds no frames. -/
theorem holds_reopen (h : w.Holds anchor channels held) :
    w.reopen.Holds anchor channels [] where
  current := by
    rw [reopen, h.current, ChannelExtrema.reset_ofFrames]
  filled := rfl

/-- Frames added to an open window are handed over in full groups, together with those
that it held.  What is left stays in the open window; after a refusal nothing does. -/
theorem addFrames_cases (h : w.Holds anchor channels held) {frames : List Frame}
    (hframes : ∀ frame ∈ frames, frame.length = channels) (s : σ) :
    let handed := handOver receive (bounds anchor channels (Cut.whole w.window (held ++ frames))) s
    ∃ w', addFrames receive w frames s = (handed.1, w', handed.2) ∧ w'.window = w.window ∧
      (handed.1 = .ok () → w'.Holds anchor channels (Cut.rest w.window (held ++ frames)) ∧
        w'.frames = w.frames + frames.length) := by
  -- One frame after the other: it either leaves the window open or is the last of it.
  induction frames generalizing w held s with
  | nil =>
    have hlt := h.length_lt
    rw [List.append_nil, Cut.whole_of_lt hlt, Cut.rest_of_lt hlt]
    exact ⟨w, rfl, rfl, fun _ => ⟨h, rfl⟩⟩
  | cons frame frames ih =>
    have hrest : ∀ f ∈ frames, f.length = channels := fun f hf => hframes f (by simp [hf])
    have hadded : w.current.addFrame frame = .ofFrames anchor channels (held ++ [frame]) := by
      rw [h.current, ChannelExtrema.addFrame_ofFrames (hframes frame (by simp))]
    have hsplit : held ++ frame :: frames = held ++ [frame] ++ frames := by simp
    rw [hsplit, addFrames]
    by_cases hlt : w.filled + 1 < w.window
    · -- The frame leaves the window open.
      rw [advance, dif_pos hlt]
      have hnext : Holds ⟨w.current.addFrame frame, w.window, w.filled + 1, hlt, w.frames + 1⟩
          anchor channels (held ++ [frame]) :=
        ⟨hadded, by simp [h.filled]⟩
      obtain ⟨w', heq, hwindow, hok⟩ := ih hnext hrest s
      refine ⟨w', heq, hwindow, fun hr => ⟨(hok hr).1, ?_⟩⟩
      rw [(hok hr).2, List.length_cons]
      show w.frames + 1 + frames.length = _
      omega
    · -- The frame fills the window, which is handed over first.
      have hfull : (held ++ [frame]).length = w.window := by
        have := w.filled_lt
        rw [List.length_append, List.length_singleton, ← h.filled]
        omega
      have hwindow0 : 0 < w.window := Nat.zero_lt_of_lt w.filled_lt
      rw [advance, dif_neg hlt, close, Cut.whole_group_append hwindow0 hfull,
        Cut.rest_group_append hwindow0 hfull, bounds, List.map_cons, handOver, hadded]
      rcases receive (ChannelExtrema.ofFrames anchor channels (held ++ [frame])).extrema s with
        ⟨_ | _, s'⟩
      · exact ⟨_, rfl, rfl, fun hr => by cases hr⟩
      · have hnext : Holds (reopen ⟨.ofFrames anchor channels (held ++ [frame]), w.window,
            w.filled, w.filled_lt, w.frames + 1⟩) anchor channels [] :=
          ⟨ChannelExtrema.reset_ofFrames _ _ _, rfl⟩
        obtain ⟨w', heq, hwindow, hok⟩ := ih hnext hrest s'
        refine ⟨w', heq, hwindow, fun hr => ⟨(hok hr).1, ?_⟩⟩
        rw [(hok hr).2, List.length_cons]
        show w.frames + 1 + frames.length = _
        omega

/-- The open window is handed over by a flush if it holds any frame. -/
theorem flush_eq (h : w.Holds anchor channels held) (s : σ) :
    w.flush receive s =
      if held = [] then (.ok false, w, s)
      else
        let (r, s') := receive (ChannelExtrema.ofFrames anchor channels held).extrema s
        (r.map fun _ => true, w.reopen, s') := by
  rw [flush, h.filled]
  by_cases h0 : held = []
  · simp [h0]
  · rw [if_neg (by simpa using h0), if_neg h0, close, h.current]
    rcases receive (ChannelExtrema.ofFrames anchor channels held).extrema s with ⟨_ | _, s'⟩ <;>
      rfl

/-! ## Runs -/

/-- A call to a windower. -/
inductive Call where
  | consume (buffer : SampleBuffer)
  | flush

/-- Make a call.  A flush answers whether it handed over a window. -/
def call (w : Windower) (s : σ) : Call → Except Error (Option Bool) × Windower × σ
  | .consume b =>
    let (r, w', s') := w.consume receive b s
    (r.map fun _ => none, w', s')
  | .flush =>
    let (r, w', s') := w.flush receive s
    (r.map some, w', s')

/-- Windower and receiver after calls. -/
def after (w : Windower) (s : σ) (calls : List Call) : Windower × σ :=
  calls.foldl (fun now c => (call receive now.1 now.2 c).2) (w, s)

end Windower

/-- The frames of the buffers that fit, up to each flush. -/
structure Stretches where
  /-- The frames of each stretch that a flush ended, in order. -/
  flushed : List (List Frame) := []
  /-- The frames since the last flush. -/
  running : List Frame := []

namespace Stretches

/-- The stretches after one more call. -/
def add (channels : Nat) (t : Stretches) : Windower.Call → Stretches
  | .consume b =>
    if b.Fits channels then { t with running := t.running ++ b.frames channels } else t
  | .flush => { flushed := t.flushed ++ [t.running] }

/-- The stretches of a sequence of calls. -/
def ofCalls (channels : Nat) (calls : List Windower.Call) : Stretches :=
  calls.foldl (add channels) {}

/-- The groups of frames that make the windows: all groups of the stretches that were
flushed, and the full groups of the one that was not. -/
def windows (window : Nat) (t : Stretches) : List (List Frame) :=
  t.flushed.flatMap (Cut.all window) ++ Cut.whole window t.running

/-- All frames. -/
def frames (t : Stretches) : List Frame := t.flushed.flatten ++ t.running

/-- A flush moves no frames. -/
theorem frames_add_flush (channels : Nat) (t : Stretches) :
    (t.add channels .flush).frames = t.frames := by
  simp [frames, add]

/-- A flush makes a window of the frames left, if there are any. -/
theorem windows_add_flush {window : Nat} (hw : 0 < window) (channels : Nat) (t : Stretches) :
    (t.add channels .flush).windows window =
      t.windows window ++
        if Cut.rest window t.running = [] then [] else [Cut.rest window t.running] := by
  have hnil : Cut.whole window ([] : List Frame) = [] := Cut.whole_of_lt hw
  simp [windows, add, Cut.all, hnil]

/-- Frames that fit make windows together with those left before. -/
theorem windows_add_consume {window channels : Nat} (hw : 0 < window) (t : Stretches)
    {b : SampleBuffer} (hb : b.Fits channels) :
    (t.add channels (.consume b)).windows window =
      t.windows window ++
        Cut.whole window (Cut.rest window t.running ++ b.frames channels) := by
  rw [windows, add, if_pos hb]
  show t.flushed.flatMap (Cut.all window) ++ Cut.whole window (t.running ++ _) = _
  rw [Cut.whole_append hw, windows, List.append_assoc]

end Stretches

namespace Windower

variable {σ : Type} {receive : Receiver σ} {anchor : Anchor} {channels window : Nat}

/-- A windower and its receiver have come as far as the stretches say. -/
structure Follows (receive : Receiver σ) (anchor : Anchor) (channels window : Nat) (origin : σ)
    (t : Stretches) (now : Windower × σ) : Prop where
  window_eq : now.1.window = window
  holds : now.1.Holds anchor channels (Cut.rest window t.running)
  frames_eq : now.1.frames = t.frames.length
  handed : now.2 = (bounds anchor channels (t.windows window)).foldl
    (fun s extrema => (receive extrema s).2) origin

variable {t : Stretches} {now : Windower × σ} {origin : σ}

theorem Follows.window_pos (h : Follows receive anchor channels window origin t now) :
    0 < window :=
  h.window_eq ▸ Nat.zero_lt_of_lt now.1.filled_lt

/-- What a buffer is answered. -/
theorem Follows.answer_consume (h : Follows receive anchor channels window origin t now)
    (hr : ∀ extrema s, (receive extrema s).1 = .ok ()) (b : SampleBuffer) :
    ((call receive now.1 now.2 (.consume b)).1 = .ok none ∧ b.Fits channels) ∨
      ((∃ fault, (call receive now.1 now.2 (.consume b)).1 = .error (.buffer fault)) ∧
        ¬ b.Fits channels) := by
  have hc := h.holds.channels_eq
  have hfit := fault?_eq_none_iff now.1 b
  rw [hc] at hfit
  rw [call, consume_eq]
  rcases hf : now.1.fault? b with _ | fault
  · left
    have hb := hfit.1 hf
    obtain ⟨w', heq, -, -⟩ := addFrames_cases receive h.holds
      (fun frame hframe => SampleBuffer.length_of_mem_frames hb hframe) now.2
    simp only [hc, heq, handOver_of_accepts receive hr]
    exact ⟨rfl, hb⟩
  · right
    rw [hf] at hfit
    exact ⟨⟨fault, rfl⟩, fun hb => by cases hfit.2 hb⟩

/-- What a flush is answered. -/
theorem Follows.answer_flush (h : Follows receive anchor channels window origin t now)
    (hr : ∀ extrema s, (receive extrema s).1 = .ok ()) :
    (call receive now.1 now.2 .flush).1 = .ok (some (decide (t.running.length % window ≠ 0))) := by
  rw [call, flush_eq receive h.holds]
  by_cases h0 : Cut.rest window t.running = []
  · have hmod := (Cut.rest_eq_nil_iff window t.running).1 h0
    simp [h0, hmod, Except.map]
  · have hmod := mt (Cut.rest_eq_nil_iff window t.running).2 h0
    have hok := hr (ChannelExtrema.ofFrames anchor channels (Cut.rest window t.running)).extrema
      now.2
    rcases hre : receive (ChannelExtrema.ofFrames anchor channels
      (Cut.rest window t.running)).extrema now.2 with ⟨r, s'⟩
    rw [hre] at hok
    subst hok
    simp [h0, hmod, Except.map]

/-- Every call keeps windower and receiver with the stretches. -/
theorem Follows.call (h : Follows receive anchor channels window origin t now)
    (hr : ∀ extrema s, (receive extrema s).1 = .ok ()) (c : Call) :
    Follows receive anchor channels window origin (t.add channels c)
      (Windower.call receive now.1 now.2 c).2 := by
  have hw := h.window_pos
  cases c with
  | consume b =>
    -- A buffer that fits adds its frames to the stretch, any other changes neither side.
    have hc := h.holds.channels_eq
    have hfit := fault?_eq_none_iff now.1 b
    rw [hc] at hfit
    rw [Windower.call, consume_eq]
    rcases hf : now.1.fault? b with _ | fault
    · have hb := hfit.1 hf
      obtain ⟨w', heq, hwindow, hok⟩ := addFrames_cases receive h.holds
        (fun frame hframe => SampleBuffer.length_of_mem_frames hb hframe) now.2
      rw [handOver_of_accepts receive hr] at hok heq
      obtain ⟨hholds, hframes⟩ := hok rfl
      simp only [hc, heq]
      refine ⟨hwindow.trans h.window_eq, ?_, ?_, ?_⟩
      · rw [Stretches.add, if_pos hb, Cut.rest_append hw, ← h.window_eq]
        simpa only [h.window_eq] using hholds
      · rw [hframes, h.frames_eq, Stretches.add, if_pos hb]
        simp [Stretches.frames, Nat.add_assoc]
      · rw [Stretches.windows_add_consume hw t hb, h.handed, h.window_eq]
        simp only [bounds, List.map_append, List.foldl_append]
    · rw [hf] at hfit
      rw [Stretches.add, if_neg fun hb => by cases hfit.2 hb]
      exact h
  | flush =>
    -- A flush starts a new stretch, of which nothing is held yet.
    have hnil : Cut.rest window ([] : List Frame) = [] := Cut.rest_of_lt hw
    rw [Windower.call, flush_eq receive h.holds]
    by_cases h0 : Cut.rest window t.running = []
    · rw [if_pos h0]
      refine ⟨h.window_eq, ?_, ?_, ?_⟩
      · show now.1.Holds anchor channels (Cut.rest window [])
        rw [hnil, ← h0]
        exact h.holds
      · rw [Stretches.frames_add_flush, h.frames_eq]
      · rw [Stretches.windows_add_flush hw, if_pos h0, List.append_nil, h.handed]
    · rw [if_neg h0]
      refine ⟨h.window_eq, ?_, ?_, ?_⟩
      · show now.1.reopen.Holds anchor channels (Cut.rest window [])
        rw [hnil]
        exact holds_reopen h.holds
      · rw [Stretches.frames_add_flush, ← h.frames_eq]
        rfl
      · rw [Stretches.windows_add_flush hw, if_neg h0, h.handed]
        simp only [bounds, List.map_append, List.map_cons, List.map_nil, List.foldl_append,
          List.foldl_cons, List.foldl_nil]

/-- A run keeps windower and receiver with the stretches. -/
theorem Follows.after (h : Follows receive anchor channels window origin t now)
    (hr : ∀ extrema s, (receive extrema s).1 = .ok ()) (calls : List Call) :
    Follows receive anchor channels window origin (calls.foldl (Stretches.add channels) t)
      (Windower.after receive now.1 now.2 calls) := by
  induction calls generalizing t now with
  | nil => exact h
  | cons c calls ih => exact ih (h.call hr c)

/-- At the start there is nothing to follow. -/
theorem follows_start (anchor : Anchor) (channels : Nat) (hw : 0 < window) (s : σ) :
    Follows receive anchor channels window s {} (start (.fresh channels anchor) window hw, s) where
  window_eq := rfl
  holds := by
    rw [Cut.rest_of_lt (by simpa using hw)]
    exact holds_start anchor channels hw
  frames_eq := rfl
  handed := by simp [Stretches.windows, Cut.whole_of_lt, hw, bounds]

/-- **Windows do not depend on buffers.**  After any calls to a fresh windower, with a
receiver that refuses nothing:

* the receiver was handed the windows that cutting the frames between flushes gives, in
  order, each with the bounds of its frames channel by channel;
* the open window holds what the last stretch leaves over, and all frames are counted;
* a stretch of `N` frames makes `N / window` windows, and one more if that leaves a rest;
* the next buffer is taken exactly if it fits, and a flush answers whether there is a
  rest. -/
theorem after_start_eq_cut (hr : ∀ extrema s, (receive extrema s).1 = .ok ())
    (anchor : Anchor) (channels : Nat) (hw : 0 < window) (s : σ) (calls : List Call) :
    let now := Windower.after receive (start (.fresh channels anchor) window hw) s calls
    let stretches := Stretches.ofCalls channels calls
    now.2 = (bounds anchor channels (stretches.windows window)).foldl
        (fun s extrema => (receive extrema s).2) s ∧
      now.1.filled = stretches.running.length % window ∧
      now.1.frames = stretches.frames.length ∧
      (∀ stretch ∈ stretches.flushed, (Cut.all window stretch).length =
        stretch.length / window + if stretch.length % window = 0 then 0 else 1) ∧
      (∀ b, (Windower.call receive now.1 now.2 (.consume b)).1 = .ok none ∧ b.Fits channels ∨
        (∃ fault, (Windower.call receive now.1 now.2 (.consume b)).1 = .error (.buffer fault)) ∧
          ¬ b.Fits channels) ∧
      (Windower.call receive now.1 now.2 .flush).1 =
        .ok (some (decide (stretches.running.length % window ≠ 0))) := by
  intro now stretches
  have h : Follows receive anchor channels window s stretches now :=
    (follows_start anchor channels hw s).after hr calls
  refine ⟨h.handed, ?_, h.frames_eq, ?_, h.answer_consume hr, h.answer_flush hr⟩
  · rw [h.holds.filled, Cut.length_rest]
  · intro stretch _
    exact Cut.length_all window stretch

/-- Two channels and windows of two frames.  The second buffer fills the window that the
first left open, a plane too long and a broken frame change nothing, and the flush hands
over a window of one frame. -/
theorem after_start_eq_cut_stereo :
    let sample (bits : Nat) : Sample := .ofBits _ bits
    let (half, one, minusOne) := (sample 0x3f000000, sample 0x3f800000, sample 0xbf800000)
    (Windower.after (fun extrema seen => (.ok (), seen ++ [extrema]))
      (start (.fresh 2 .extrema) 2 (by decide)) []
      [.consume (.interleaved [half, minusOne]), .consume (.planar [[one, half, one], [half, one]] 2),
        .consume (.interleaved [one, one, one]), .flush, .flush]).2 =
      [[⟨half, one⟩, ⟨minusOne, half⟩], [⟨half, half⟩, ⟨one, one⟩]] :=
  (after_start_eq_cut (fun _ _ => rfl) .extrema 2 (by decide) [] _).1.trans (by decide)

end Windower

end Peakfile
