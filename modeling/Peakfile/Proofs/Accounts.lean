/-
# Keeping account of frames

A receiver may refuse any window, and the rest of the buffer is then left alone.  An
`Account` keeps the frames themselves: in groups those that were handed over, be they taken
or refused, and those that no receiver has seen yet.  A windower keeps no frames, but bounds
and two counts, and every call keeps these balanced with the account (`Balanced.call`).

The walk over planes relies on that balance: `walk?` takes it with numbers of which nothing
is known and gives up where one of them would be wrong, and it never does (`walk?_eq`).
-/
import Peakfile.Proofs.Windowing

namespace Peakfile

namespace Windower

/-! ## Accounts -/

/-- The frames of a stream, and the state of the receiver that they led to. -/
structure Account (σ : Type) where
  /-- The groups of frames handed to the receiver, whatever it answered. -/
  handed : List (List Frame) := []
  /-- The frames since then. -/
  held : List Frame := []
  receiver : σ

namespace Account

variable {σ : Type} (receive : Receiver σ) (anchor : Anchor) (channels window : Nat)

/-- All frames. -/
def frames (t : Account σ) : List Frame := t.handed.flatten ++ t.held

/-- Hand over a group of frames by its bounds. -/
def hand (t : Account σ) (group : List Frame) : Except Error Unit × Account σ :=
  let (answer, s) := receive (ChannelExtrema.ofFrames anchor channels group).extrema t.receiver
  (answer, { handed := t.handed ++ [group], receiver := s })

/-- Hand over groups in order, until one is refused. -/
def handAll (t : Account σ) : (groups : List (List Frame)) → Except Error Unit × Account σ
  | [] => (.ok (), t)
  | group :: rest =>
    match t.hand receive anchor channels group with
    | (.ok (), t') => handAll t' rest
    | refused => refused

/-- Add frames: the full groups are handed over and what is left is held, unless a group is
refused. -/
def addFrames (t : Account σ) (frames : List Frame) : Except Error Unit × Account σ :=
  match t.handAll receive anchor channels (Cut.whole window (t.held ++ frames)) with
  | (.ok (), t') => (.ok (), { t' with held := Cut.rest window (t.held ++ frames) })
  | refused => refused

/-- The account after one more call. -/
def add (t : Account σ) : Call → Account σ
  | .consume b =>
    if b.Fits channels then
      (t.addFrames receive anchor channels window (b.frames channels)).2
    else t
  | .flush => if t.held = [] then t else (t.hand receive anchor channels t.held).2

/-- The account of a sequence of calls. -/
def ofCalls (s : σ) (calls : List Call) : Account σ :=
  calls.foldl (add receive anchor channels window) { receiver := s }

variable {window}

/-- Frames that fill no group are held for the next ones. -/
theorem addFrames_append (t : Account σ) (first second : List Frame) :
    t.addFrames receive anchor channels window (first ++ second) =
      { t with held := t.held ++ first }.addFrames receive anchor channels window second := by
  simp only [addFrames, List.append_assoc]
  rcases Cut.whole window (t.held ++ (first ++ second)) with _ | ⟨group, groups⟩
  · rfl
  · rfl

/-- Handing over what is held moves no frames. -/
theorem frames_hand (t : Account σ) :
    (t.hand receive anchor channels t.held).2.frames = t.frames := by
  show (t.handed ++ [t.held]).flatten ++ [] = t.handed.flatten ++ t.held
  rw [List.append_nil, List.flatten_append, List.flatten_singleton]

/-- Groups are all handed over, or they are up to the first that is refused. -/
theorem handAll_cases (t : Account σ) (groups : List (List Frame)) :
    let r := t.handAll receive anchor channels groups
    (r.1 = .ok () ∧ r.2.handed = t.handed ++ groups) ∨
      ∃ e first refused rest before, groups = first ++ refused :: rest ∧
        t.handAll receive anchor channels first = (.ok (), before) ∧
        before.hand receive anchor channels refused = (.error e, r.2) ∧ r.1 = .error e ∧
        r.2.handed = t.handed ++ first ++ [refused] ∧ r.2.held = [] := by
  induction groups generalizing t with
  | nil => exact .inl ⟨rfl, (List.append_nil _).symm⟩
  | cons group groups ih =>
    have hhanded : (t.hand receive anchor channels group).2.handed = t.handed ++ [group] := rfl
    rcases hr : t.hand receive anchor channels group with ⟨e | _, t'⟩
    · refine .inr ⟨e, [], group, groups, t, rfl, rfl, ?_⟩
      simp only [handAll, hr, true_and]
      rw [hr] at hhanded
      refine ⟨hhanded.trans (by rw [List.append_nil]), ?_⟩
      exact (congrArg (·.2.held) hr).symm
    · rw [hr] at hhanded
      have hcons : ∀ more, t.handAll receive anchor channels (group :: more) =
          t'.handAll receive anchor channels more := fun more => by rw [handAll, hr]
      simp only [hcons]
      rcases ih t' with ⟨hok, hall⟩ | ⟨e, first, refused, rest, before, rfl, hfirst, hrefused,
        herror, hall, hheld⟩
      · refine .inl ⟨hok, ?_⟩
        rw [hall, hhanded, List.append_assoc, List.singleton_append]
      · refine .inr ⟨e, group :: first, refused, rest, before, rfl, ?_, hrefused, herror, ?_, hheld⟩
        · rw [hcons, hfirst]
        · rw [hall, hhanded, List.append_assoc t.handed, List.singleton_append]

end Account

/-! ## Balance -/

/-- A windower and its receiver are where the account says. -/
structure Balanced {σ : Type} (anchor : Anchor) (channels window : Nat) (t : Account σ)
    (now : Windower × σ) : Prop where
  window_eq : now.1.window = window
  holds : now.1.Holds anchor channels t.held
  frames_eq : now.1.frames = t.frames.length
  receiver_eq : now.2 = t.receiver

namespace Balanced

variable {σ : Type} (receive : Receiver σ) {anchor : Anchor} {channels window : Nat}
  {t : Account σ} {w : Windower} {s : σ}

theorem window_pos (h : Balanced anchor channels window t (w, s)) : 0 < window :=
  h.window_eq ▸ Nat.zero_lt_of_lt w.filled_lt

/-- Before the first frame there is nothing to account for. -/
theorem start (anchor : Anchor) (channels : Nat) (hw : 0 < window) (s : σ) :
    Balanced anchor channels window { receiver := s }
      (.start (.fresh channels anchor) window hw, s) where
  window_eq := rfl
  holds := holds_start anchor channels hw
  frames_eq := rfl
  receiver_eq := rfl

/-- Closing a window hands over what it holds. -/
theorem close (h : Balanced anchor channels window t (w, s)) :
    ∃ now, w.close receive s = ((t.hand receive anchor channels t.held).1, now) ∧
      Balanced anchor channels window (t.hand receive anchor channels t.held).2 now := by
  have hs : s = t.receiver := h.receiver_eq
  refine ⟨(w.reopen, (receive w.current.extrema s).2), ?_, h.window_eq, holds_reopen h.holds,
    ?_, ?_⟩
  · rw [Windower.close, Account.hand, h.holds.current, hs]
  · rw [Account.frames_hand]
    exact h.frames_eq
  · rw [Account.hand, h.holds.current, hs]

/-- A frame is held, and with the last that there is room for the window is closed. -/
theorem advance (h : Balanced anchor channels window t (w, s)) {frame : Frame}
    (hframe : frame.length = channels) :
    let t' : Account σ := { t with held := t.held ++ [frame] }
    let r := w.advance receive (w.current.addFrame frame) 1 s
    (t'.held.length < window ∧ ∃ now, r = (.ok (), now) ∧ Balanced anchor channels window t' now) ∨
      t'.held.length = window ∧ ∃ now, r = ((t'.hand receive anchor channels t'.held).1, now) ∧
        Balanced anchor channels window (t'.hand receive anchor channels t'.held).2 now := by
  intro t' r
  have hadded : w.current.addFrame frame = .ofFrames anchor channels t'.held := by
    rw [h.holds.current, ChannelExtrema.addFrame_ofFrames hframe]
  have hlength : t'.held.length = w.filled + 1 := by
    rw [List.length_append, List.length_singleton, ← h.holds.filled]
  have hframes : w.frames + 1 = t'.frames.length := by
    have hbefore : w.frames = t.frames.length := h.frames_eq
    simp only [t', Account.frames, List.length_append, List.length_singleton] at hbefore ⊢
    omega
  have hwindow : w.window = window := h.window_eq
  have hroom := w.filled_lt
  by_cases hlt : w.filled + 1 < w.window
  · refine .inl ⟨by omega, _, dif_pos hlt, hwindow, ⟨hadded, hlength.symm⟩, hframes, h.receiver_eq⟩
  · -- The window is full before it is closed, so it is not balanced as a windower yet.
    have hs : s = t.receiver := h.receiver_eq
    refine .inr ⟨by omega, (Windower.reopen ⟨w.current.addFrame frame, w.window, w.filled,
      w.filled_lt, w.frames + 1⟩, _), ?_, hwindow, ⟨?_, rfl⟩, ?_, rfl⟩
    · simp only [r, Windower.advance, dif_neg hlt, Windower.close, Account.hand, hadded, hs, t']
    · rw [Windower.reopen, hadded, ChannelExtrema.reset_ofFrames]
      rfl
    · rw [Account.frames_hand]
      exact hframes

/-- Frames are added alike on both sides. -/
theorem addFrames (h : Balanced anchor channels window t (w, s)) {frames : List Frame}
    (hframes : ∀ frame ∈ frames, frame.length = channels) :
    let r := t.addFrames receive anchor channels window frames
    ∃ now, w.addFrames receive frames s = (r.1, now) ∧
      Balanced anchor channels window r.2 now := by
  dsimp only
  -- One frame after the other: it is held for the next ones, or fills the first group.
  induction frames generalizing t w s with
  | nil =>
    have hlt : t.held.length < window := h.window_eq ▸ h.holds.length_lt
    refine ⟨(w, s), ?_⟩
    simp only [Account.addFrames, List.append_nil, Cut.whole_of_lt hlt, Cut.rest_of_lt hlt]
    exact ⟨rfl, h⟩
  | cons frame frames ih =>
    have hrest : ∀ f ∈ frames, f.length = channels := fun f hf => hframes f (by simp [hf])
    rw [Windower.addFrames, ← List.singleton_append, Account.addFrames_append]
    rcases h.advance receive (hframes frame (by simp)) with
      ⟨-, ⟨w', s'⟩, heq, hnext⟩ | ⟨hfull, ⟨w', s'⟩, heq, hnext⟩
    · rw [heq]
      exact ih hnext hrest
    · -- The group is full: it is handed over, and the others come behind it.
      generalize ({ t with held := t.held ++ [frame] } : Account σ) = t' at hfull heq hnext ⊢
      rw [heq]
      simp only [Account.addFrames, Cut.whole_group_append h.window_pos hfull,
        Cut.rest_group_append h.window_pos hfull, Account.handAll]
      rcases hr : t'.hand receive anchor channels t'.held with ⟨e | _, t''⟩
      · rw [hr] at hnext
        exact ⟨(w', s'), rfl, hnext⟩
      · rw [hr] at hnext
        have hheld : t''.held = [] := (congrArg (·.2.held) hr).symm
        have hothers := ih hnext hrest
        simp only [Account.addFrames, hheld, List.nil_append] at hothers
        exact hothers

/-- A buffer that fits is accounted for by its frames. -/
theorem consume (h : Balanced anchor channels window t (w, s)) {b : SampleBuffer}
    (hb : b.Fits channels) :
    let r := t.addFrames receive anchor channels window (b.frames channels)
    ∃ now, Windower.call receive w s (.consume b) = (r.1.map fun _ => none, now) ∧
      Balanced anchor channels window r.2 now := by
  have hchannels := h.holds.channels_eq
  obtain ⟨now, heq, hnext⟩ := h.addFrames receive
    fun frame hframe => SampleBuffer.length_of_mem_frames hb hframe
  have hfault : w.fault? b = none := (fault?_eq_none_iff w b).2 (hchannels ▸ hb)
  refine ⟨now, ?_, hnext⟩
  simp only [Windower.call, consume_eq, hfault, hchannels, heq]

/-- A buffer that does not fit is refused, and nothing changes. -/
theorem consume_of_not_fits (h : Balanced anchor channels window t (w, s)) {b : SampleBuffer}
    (hb : ¬ b.Fits channels) :
    ∃ fault, Windower.call receive w s (.consume b) = (.error (.buffer fault), w, s) := by
  rcases hf : w.fault? b with _ | fault
  · exact absurd (h.holds.channels_eq ▸ (fault?_eq_none_iff w b).1 hf) hb
  · refine ⟨fault, ?_⟩
    simp only [Windower.call, consume_eq, hf]
    rfl

/-- A flush closes the open window if it holds any frame. -/
theorem flush (h : Balanced anchor channels window t (w, s)) :
    (t.held = [] ∧ Windower.call receive w s .flush = (.ok (some false), w, s)) ∨
      t.held ≠ [] ∧ ∃ now, Windower.call receive w s .flush =
          ((t.hand receive anchor channels t.held).1.map fun _ => some true, now) ∧
        Balanced anchor channels window (t.hand receive anchor channels t.held).2 now := by
  have hfilled := h.holds.filled
  by_cases h0 : t.held = []
  · refine .inl ⟨h0, ?_⟩
    rw [h0, List.length_nil] at hfilled
    simp only [Windower.call, Windower.flush, if_pos hfilled]
    rfl
  · obtain ⟨now, heq, hnext⟩ := h.close receive
    have hne : w.filled ≠ 0 := by
      rw [hfilled]
      exact mt List.length_eq_zero_iff.1 h0
    refine .inr ⟨h0, now, ?_, hnext⟩
    simp only [Windower.call, Windower.flush, if_neg hne, heq]
    rcases (t.hand receive anchor channels t.held).1 with e | _ <;> rfl

/-- **One step.**  Every call keeps windower and receiver balanced with the account. -/
theorem call (h : Balanced anchor channels window t (w, s)) (c : Call) :
    Balanced anchor channels window (t.add receive anchor channels window c)
      (Windower.call receive w s c).2 := by
  cases c with
  | consume b =>
    by_cases hb : b.Fits channels
    · obtain ⟨now, heq, hnext⟩ := h.consume receive hb
      rw [heq, Account.add, if_pos hb]
      exact hnext
    · obtain ⟨fault, heq⟩ := h.consume_of_not_fits receive hb
      rw [heq, Account.add, if_neg hb]
      exact h
  | flush =>
    rcases h.flush receive with ⟨h0, heq⟩ | ⟨h0, now, heq, hnext⟩
    · rw [heq, Account.add, if_pos h0]
      exact h
    · rw [heq, Account.add, if_neg h0]
      exact hnext

/-- A run keeps windower and receiver balanced with the account. -/
theorem after (h : Balanced anchor channels window t (w, s)) (calls : List Call) :
    Balanced anchor channels window
      (calls.foldl (Account.add receive anchor channels window) t)
      (Windower.after receive w s calls) := by
  induction calls generalizing t w s with
  | nil => exact h
  | cons c calls ih => exact ih (h.call receive c)

/-- Frames are all accounted for, or they are up to the end of the group that is refused. -/
theorem frames_addFrames (h : Balanced anchor channels window t (w, s)) (frames : List Frame) :
    let r := t.addFrames receive anchor channels window frames
    (r.1 = .ok () ∧ r.2.frames = t.frames ++ frames) ∨
      ∃ e taken refused before, r.1 = .error e ∧ r.2.handed = t.handed ++ taken ++ [refused] ∧
        r.2.held = [] ∧ refused.length = window ∧
        receive (ChannelExtrema.ofFrames anchor channels refused).extrema before =
          (.error e, r.2.receiver) ∧
        r.2.frames =
          t.frames ++ frames.take ((taken.length + 1) * window - t.held.length) := by
  have hcases := t.handAll_cases receive anchor channels (Cut.whole window (t.held ++ frames))
  dsimp only at hcases ⊢
  rw [Account.addFrames]
  rcases hr : t.handAll receive anchor channels (Cut.whole window (t.held ++ frames)) with
    ⟨answer, t'⟩
  rw [hr] at hcases
  rcases hcases with ⟨rfl, hhanded⟩ | ⟨e, taken, refused, rest, before, hgroups, -, hrefused, rfl,
    hhanded, hheld⟩
  · refine .inl ⟨rfl, ?_⟩
    show t'.handed.flatten ++ Cut.rest window (t.held ++ frames) =
      t.handed.flatten ++ t.held ++ frames
    rw [hhanded, List.flatten_append, List.append_assoc, Cut.flatten_whole_append_rest,
      List.append_assoc]
  · have hprefix : taken ++ [refused] <+: Cut.whole window (t.held ++ frames) :=
      ⟨rest, by rw [hgroups, List.append_assoc, List.singleton_append]⟩
    have hmem : refused ∈ Cut.whole window (t.held ++ frames) := by simp [hgroups]
    obtain ⟨hanswer, rfl⟩ := Prod.mk.inj hrefused
    refine .inr ⟨e, taken, refused, before.receiver, rfl, hhanded, hheld,
      Cut.length_of_mem_whole hmem, Prod.ext hanswer rfl, ?_⟩
    -- What was held is shorter than a group, so the refused group ends among the new frames.
    have hshort : t.held.length ≤ (taken.length + 1) * window := by
      have hlt : t.held.length < window := h.window_eq ▸ h.holds.length_lt
      rw [Nat.succ_mul]
      omega
    rw [Account.frames, Account.frames, hhanded, hheld, List.append_nil, List.append_assoc,
      List.flatten_append, Cut.flatten_eq_take hprefix, List.length_append,
      List.length_singleton, List.take_append, List.take_of_length_le hshort, List.append_assoc]

end Balanced

/-! ## The walk over planes -/

/-- The open window in numbers of which nothing is known. -/
structure Tally where
  current : ChannelExtrema
  filled : Nat
  frames : Nat

/-- The open window in numbers. -/
def tally (w : Windower) : Tally := ⟨w.current, w.filled, w.frames⟩

section Walk

variable {σ : Type} (receive : Receiver σ)

/-- Walk over planes from an offset, in runs that end with the window.  There is no result if
the planes are not as many as the channels, if a window holds more frames than it should, if
a run makes no way, or if one ends behind the end of a plane. -/
def walk? (window : Nat) (planes : List (List Sample)) (count offset : Nat) (k : Tally) (s : σ) :
    Option (Except Error Unit × Tally × σ) :=
  if offset < count then
    if planes.length ≠ k.current.channels ∨ window < k.filled then none
    else
      let run := min (window - k.filled) (count - offset)
      if run = 0 ∨ ∃ plane ∈ planes, plane.length < offset + run then none
      else
        let added := k.current.addPlanes (planes.map fun plane => (plane.drop offset).take run)
        if k.filled + run = window then
          match receive added.extrema s with
          | (.ok (), s') =>
            walk? window planes count (offset + run) ⟨added.reset, 0, k.frames + run⟩ s'
          | (.error e, s') => some (.error e, ⟨added.reset, 0, k.frames + run⟩, s')
        else walk? window planes count (offset + run) ⟨added, k.filled + run, k.frames + run⟩ s
  else some (.ok (), k, s)
termination_by count - offset

/-- A run of the walk makes way, and stays inside the window and the planes. -/
theorem walk?_of_lt {window : Nat} {planes : List (List Sample)} {count offset : Nat} {k : Tally}
    (hlt : offset < count) (hc : planes.length = k.current.channels) (hroom : k.filled < window)
    (hlong : ∀ plane ∈ planes, count ≤ plane.length) (s : σ) :
    ∃ run, run = min (window - k.filled) (count - offset) ∧ 0 < run ∧
      walk? receive window planes count offset k s =
        let added := k.current.addPlanes (planes.map fun plane => (plane.drop offset).take run)
        if k.filled + run = window then
          match receive added.extrema s with
          | (.ok (), s') =>
            walk? receive window planes count (offset + run) ⟨added.reset, 0, k.frames + run⟩ s'
          | (.error e, s') => some (.error e, ⟨added.reset, 0, k.frames + run⟩, s')
        else
          walk? receive window planes count (offset + run) ⟨added, k.filled + run, k.frames + run⟩
            s := by
  have hpos : 0 < min (window - k.filled) (count - offset) := by omega
  have hfit : ¬ (planes.length ≠ k.current.channels ∨ window < k.filled) := by
    rintro (hne | hover)
    · exact hne hc
    · exact absurd hroom (Nat.not_lt.2 hover.le)
  have hway : ¬ (min (window - k.filled) (count - offset) = 0 ∨
      ∃ plane ∈ planes, plane.length < offset + min (window - k.filled) (count - offset)) := by
    rintro (h0 | ⟨plane, hp, hshort⟩)
    · omega
    · have := hlong plane hp
      omega
  refine ⟨_, rfl, hpos, ?_⟩
  rw [walk?, if_pos hlt, if_neg hfit]
  exact if_neg hway

/-- The walk never gives up: it is the one that a windower takes. -/
theorem walk?_eq (w : Windower) {planes : List (List Sample)} {count : Nat} (offset : Nat)
    (hc : planes.length = w.channels) (hlong : ∀ plane ∈ planes, count ≤ plane.length) (s : σ) :
    walk? receive w.window planes count offset w.tally s =
      let r := w.addPlanes receive (planes.map (·.drop offset)) (count - offset) s
      some (r.1, r.2.1.tally, r.2.2) := by
  induction h : count - offset using Nat.strong_induction_on generalizing w offset s with
  | _ left ih =>
    subst h
    by_cases hlt : offset < count
    · have hroom := w.filled_lt
      obtain ⟨run, hrun, hpos, hwalk⟩ := walk?_of_lt receive hlt (k := w.tally) hc hroom hlong s
      -- What the walk takes next are the first samples of what is left of the planes.
      have htaken : (planes.map fun plane => (plane.drop offset).take run) =
          (planes.map (·.drop offset)).map (·.take run) := by
        rw [List.map_map]
        rfl
      have hleft : (planes.map (·.drop offset)).map (·.drop run) =
          planes.map (·.drop (offset + run)) := by
        rw [List.map_map]
        exact List.map_congr_left fun plane _ => List.drop_drop
      replace hrun : min (w.window - w.filled) (count - offset) = run := hrun.symm
      rw [hwalk, addPlanes, if_neg (Nat.sub_ne_zero_of_lt hlt)]
      simp only [room, tally, hrun, htaken, hleft, Nat.sub_sub]
      have hadded : planes.length =
          (w.current.addPlanes ((planes.map (·.drop offset)).map (·.take run))).channels := by
        have hmany : ((planes.map (·.drop offset)).map (·.take run)).length = w.channels := by
          rw [List.length_map, List.length_map, hc]
        exact hc.trans (ChannelExtrema.channels_addPlanes hmany).symm
      generalize w.current.addPlanes ((planes.map (·.drop offset)).map (·.take run)) = added
        at hadded ⊢
      have hnext : ∀ w' : Windower, w'.window = w.window → w'.channels = added.channels →
          ∀ s', walk? receive w.window planes count (offset + run) w'.tally s' =
            let r := w'.addPlanes receive (planes.map (·.drop (offset + run)))
              (count - (offset + run)) s'
            some (r.1, r.2.1.tally, r.2.2) := by
        intro w' hwindow hchannels s'
        have hless : count - (offset + run) < count - offset := by omega
        rw [← hwindow]
        exact ih _ hless w' (offset + run) (hadded.trans hchannels.symm) s' rfl
      by_cases hopen : w.filled + run < w.window
      · rw [if_neg hopen.ne, advance, dif_pos hopen]
        exact hnext ⟨added, w.window, w.filled + run, hopen, w.frames + run⟩ rfl rfl s
      · rw [if_pos (by omega), advance, dif_neg hopen, close]
        rcases receive added.extrema s with ⟨e | _, s'⟩
        · rfl
        · exact hnext (reopen ⟨added, w.window, w.filled, hroom, w.frames + run⟩) rfl
            (ChannelExtrema.channels_reset _) s'
    · rw [walk?, addPlanes, if_neg hlt, if_pos (Nat.sub_eq_zero_of_le (Nat.not_lt.1 hlt))]

end Walk

/-! ## The balance of every run -/

variable {σ : Type} (receive : Receiver σ) {anchor : Anchor} {channels window : Nat}

namespace Balanced

variable {t : Account σ} {w : Windower} {s : σ}

/-- A windower that is to hold no frames has an empty window open. -/
theorem empty (h : Balanced anchor channels window t (w, s)) (hheld : t.held = []) :
    w.filled = 0 ∧ w.current = .fresh channels anchor ∧ w.frames = t.frames.length := by
  refine ⟨?_, ?_, h.frames_eq⟩
  · rw [h.holds.filled, hheld, List.length_nil]
  · rw [h.holds.current, hheld, ChannelExtrema.ofFrames_nil]

/-- A buffer that fits is taken as a whole, or up to the end of a window that is refused. -/
theorem consume_outcome (h : Balanced anchor channels window t (w, s)) {b : SampleBuffer}
    (hb : b.Fits channels) :
    let r := Windower.call receive w s (.consume b)
    let t' := t.add receive anchor channels window (.consume b)
    (r.1 = .ok none ∧ t'.frames = t.frames ++ b.frames channels) ∨
      ∃ e taken refused before, r.1 = .error e ∧ t'.handed = t.handed ++ taken ++ [refused] ∧
        refused.length = window ∧
        receive (ChannelExtrema.ofFrames anchor channels refused).extrema before =
          (.error e, r.2.2) ∧
        t'.frames = t.frames ++
          (b.frames channels).take ((taken.length + 1) * window - t.held.length) ∧
        r.2.1.filled = 0 ∧ r.2.1.current = .fresh channels anchor ∧
        r.2.1.frames = t'.frames.length := by
  obtain ⟨⟨w', s'⟩, heq, hnext⟩ := h.consume receive hb
  dsimp only
  rw [heq, Account.add, if_pos hb]
  rcases h.frames_addFrames receive (b.frames channels) with ⟨hok, hframes⟩ |
    ⟨e, taken, refused, before, herror, hhanded, hheld, hlength, hrefused, hframes⟩
  · exact .inl ⟨by rw [hok]; rfl, hframes⟩
  · refine .inr ⟨e, taken, refused, before, by rw [herror]; rfl, hhanded, hlength, ?_, hframes,
      hnext.empty hheld⟩
    rw [hrefused, ← hnext.receiver_eq]

/-- A flush hands over what is held, if anything is. -/
theorem flush_outcome (h : Balanced anchor channels window t (w, s)) :
    let r := Windower.call receive w s .flush
    let t' := t.add receive anchor channels window .flush
    (t.held = [] ∧ r = (.ok (some false), w, s)) ∨
      t.held ≠ [] ∧ ∃ answer,
        receive (ChannelExtrema.ofFrames anchor channels t.held).extrema s = (answer, r.2.2) ∧
        r.1 = answer.map (fun _ => some true) ∧ t'.handed = t.handed ++ [t.held] ∧
        r.2.1.filled = 0 ∧ r.2.1.current = .fresh channels anchor ∧
        r.2.1.frames = t.frames.length := by
  have hs : s = t.receiver := h.receiver_eq
  rcases h.flush receive with hidle | ⟨hheld, ⟨w', s'⟩, heq, hnext⟩
  · exact .inl hidle
  · obtain ⟨hfilled, hcurrent, hframes⟩ := hnext.empty rfl
    refine .inr ⟨hheld, (t.hand receive anchor channels t.held).1, ?_, ?_, ?_, ?_⟩
    · rw [heq, hnext.receiver_eq, hs]
      rfl
    · rw [heq]
    · rw [Account.add, if_neg hheld]
      rfl
    · rw [heq]
      rw [Account.frames_hand] at hframes
      exact ⟨hfilled, hcurrent, hframes⟩

/-- If the receiver answers no fault of a buffer, such a fault says that one does not fit. -/
theorem fault_iff (h : Balanced anchor channels window t (w, s))
    (hown : ∀ extrema s fault, (receive extrema s).1 ≠ .error (.buffer fault)) (c : Call) :
    (∃ fault, (Windower.call receive w s c).1 = .error (.buffer fault)) ↔
      ∃ b, c = .consume b ∧ ¬ b.Fits channels := by
  constructor
  · rintro ⟨fault, hfault⟩
    cases c with
    | consume b =>
      refine ⟨b, rfl, fun hb => ?_⟩
      rcases h.consume_outcome receive hb with
        ⟨hok, -⟩ | ⟨e, -, refused, before, herror, -, -, hrefused, -⟩
      · rw [hok] at hfault
        cases hfault
      · obtain rfl : e = .buffer fault := Except.error.inj (herror.symm.trans hfault)
        exact hown _ _ fault (congrArg Prod.fst hrefused)
    | flush =>
      exfalso
      rcases h.flush_outcome receive with ⟨-, hidle⟩ | ⟨-, answer, hanswer, hcall, -⟩
      · rw [hidle] at hfault
        cases hfault
      · rw [hcall] at hfault
        rcases answer with e | _
        · obtain rfl : e = .buffer fault := Except.error.inj hfault
          exact hown _ _ fault (congrArg Prod.fst hanswer)
        · cases hfault
  · rintro ⟨b, rfl, hb⟩
    obtain ⟨fault, heq⟩ := h.consume_of_not_fits receive hb
    exact ⟨fault, by rw [heq]⟩

end Balanced

/-- **Every frame is accounted for.**  After any calls to a fresh windower, with a receiver
that may refuse any window:

* the open window is not full, it holds the bounds of exactly the frames since the last
  window was handed over, be it taken or refused, and these and all frames are counted;
* a buffer that fits is taken as a whole, or the receiver refuses a window of it: the
  answer is that of the receiver, all frames up to the end of that window count, none
  behind it does, and the window that is open is empty;
* a buffer that does not fit is refused before the receiver sees anything, and changes
  nothing; if the receiver answers no such fault itself, there is no other occasion for one;
* a flush hands over what is held, if anything is, and leaves an empty window open whatever
  the receiver answers;
* the walk over the planes of a buffer never gives up: the window always has room, every run
  makes way, and none ends behind the end of a plane. -/
theorem balance_of_calls (anchor : Anchor) (channels : Nat)
    (hw : 0 < window) (s : σ) (calls : List Call) :
    let now := Windower.after receive (start (.fresh channels anchor) window hw) s calls
    let t := Account.ofCalls receive anchor channels window s calls
    let next := Windower.call receive now.1 now.2
    let t' := t.add receive anchor channels window
    (now.1.filled < window ∧ now.1.filled = t.held.length ∧
        now.1.current = .ofFrames anchor channels t.held ∧
        now.1.frames = t.frames.length ∧ now.2 = t.receiver) ∧
      (∀ b : SampleBuffer, b.Fits channels →
        ((next (.consume b)).1 = .ok none ∧
            (t' (.consume b)).frames = t.frames ++ b.frames channels) ∨
          ∃ e taken refused before, (next (.consume b)).1 = .error e ∧
            (t' (.consume b)).handed = t.handed ++ taken ++ [refused] ∧
            refused.length = window ∧
            receive (ChannelExtrema.ofFrames anchor channels refused).extrema before =
              (.error e, (next (.consume b)).2.2) ∧
            (t' (.consume b)).frames = t.frames ++
              (b.frames channels).take ((taken.length + 1) * window - t.held.length) ∧
            (next (.consume b)).2.1.filled = 0 ∧
            (next (.consume b)).2.1.current = .fresh channels anchor ∧
            (next (.consume b)).2.1.frames = (t' (.consume b)).frames.length) ∧
      (∀ b : SampleBuffer, ¬ b.Fits channels →
        ∃ fault, next (.consume b) = (.error (.buffer fault), now)) ∧
      ((∀ extrema s fault, (receive extrema s).1 ≠ .error (.buffer fault)) →
        ∀ c, (∃ fault, (next c).1 = .error (.buffer fault)) ↔
          ∃ b, c = .consume b ∧ ¬ b.Fits channels) ∧
      ((t.held = [] ∧ next .flush = (.ok (some false), now)) ∨
        t.held ≠ [] ∧ ∃ answer,
          receive (ChannelExtrema.ofFrames anchor channels t.held).extrema now.2 =
            (answer, (next .flush).2.2) ∧
          (next .flush).1 = answer.map (fun _ => some true) ∧
          (t' .flush).handed = t.handed ++ [t.held] ∧
          (next .flush).2.1.filled = 0 ∧
          (next .flush).2.1.current = .fresh channels anchor ∧
          (next .flush).2.1.frames = t.frames.length) ∧
      ∀ planes count, (SampleBuffer.planar planes count).Fits channels →
        walk? receive window planes count 0 now.1.tally now.2 =
          let r := now.1.consumePlanar receive planes count now.2
          some (r.1, r.2.1.tally, r.2.2) := by
  intro now t next t'
  have h : Balanced anchor channels window t now :=
    (Balanced.start anchor channels hw s).after receive calls
  have hwindow : now.1.window = window := h.window_eq
  have hchannels := h.holds.channels_eq
  refine ⟨⟨hwindow ▸ now.1.filled_lt, h.holds.filled, h.holds.current, h.frames_eq,
    h.receiver_eq⟩, fun b hb => h.consume_outcome receive hb,
    fun b hb => h.consume_of_not_fits receive hb, fun hown c => h.fault_iff receive hown c,
    h.flush_outcome receive, fun planes count hb => ?_⟩
  obtain ⟨hc, hlong⟩ := hb
  have hfault : now.1.planarFault? planes count = none :=
    (fault?_eq_none_iff now.1 (.planar planes count)).2 (hchannels ▸ ⟨hc, hlong⟩)
  have hwalk := walk?_eq receive now.1 0 (hc.trans hchannels.symm) hlong now.2
  have hplanes : planes.map (·.drop 0) = planes := List.map_id _
  rw [hplanes, hwindow, Nat.sub_zero] at hwalk
  rw [hwalk, consumePlanar, hfault]

/-- Two channels and windows of two frames, with a receiver that refuses the first window.
Of five frames in planes two are counted, and one more frame back to back is held alone. -/
theorem balance_of_calls_refused :
    let half : Sample := .ofBits _ 0x3f000000
    let one : Sample := .ofBits _ 0x3f800000
    let receive : Receiver Nat := fun _ seen =>
      (if seen = 0 then .error .tooManyWindows else .ok (), seen + 1)
    let calls : List Call := [.consume (.planar [[one, half, one, half, one],
      [half, half, half, half, half]] 5), .consume (.interleaved [half, one])]
    let now := Windower.after receive (start (.fresh 2 .extrema) 2 (by decide)) 0 calls
    now.1.filled = 1 ∧ now.1.current = ⟨.extrema, [⟨half, half⟩, ⟨one, one⟩]⟩ ∧
      now.1.frames = 3 ∧ now.2 = 1 := by
  intro half one receive calls now
  obtain ⟨⟨-, hfilled, hcurrent, hframes, hseen⟩, -⟩ :=
    balance_of_calls receive .extrema 2 (by decide : 0 < 2) 0 calls
  rw [hfilled, hcurrent, hframes, hseen]
  decide +kernel

end Windower

end Peakfile
