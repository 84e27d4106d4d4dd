/-
# Cutting a stream into windows

A stream of frames arrives in buffers of any size, and windows of a fixed number of
frames are cut from it regardless of where the buffers end.  Planar buffers are
walked in runs that fill the open window, interleaved ones frame by frame.  Every
full window is handed to a receiver, which may refuse it; the window is over either
way, and after a refusal the rest of the buffer is left alone.
-/
import Peakfile.Extrema
import Peakfile.Error

namespace Peakfile

/-- Receives the extrema of each finished window, with a state of its own. -/
abbrev Receiver (σ : Type) := List Extrema → σ → Except Error Unit × σ

/-- The open window of a stream. -/
structure Windower where
  /-- The extrema of the open window. -/
  current : ChannelExtrema
  /-- Frames per window. -/
  window : Nat
  /-- Frames in the open window. -/
  filled : Nat
  filled_lt : filled < window
  /-- Frames since the start of the stream. -/
  frames : Nat

namespace Windower

variable {σ : Type}

/-- Before the first frame. -/
def start (current : ChannelExtrema) (window : Nat) (h : 0 < window) : Windower :=
  ⟨current, window, 0, h, 0⟩

/-- Channels of a frame. -/
def channels (w : Windower) : Nat := w.current.channels

/-- Frames that the open window still takes. -/
def room (w : Windower) : Nat := w.window - w.filled

theorem room_pos (w : Windower) : 0 < w.room := Nat.sub_pos_of_lt w.filled_lt

/-! ## The end of a window -/

/-- Open the next window. -/
def reopen (w : Windower) : Windower :=
  { w with
    current := w.current.reset
    filled := 0
    filled_lt := Nat.lt_of_le_of_lt (Nat.zero_le _) w.filled_lt }

/-- Hand the open window to the receiver and open the next one. -/
def close (receive : Receiver σ) (w : Windower) (s : σ) : Except Error Unit × Windower × σ :=
  let (result, s) := receive w.current.extrema s
  (result, w.reopen, s)

/-- Count frames whose samples have been added, and close the window if they fill it. -/
def advance (receive : Receiver σ) (w : Windower) (added : ChannelExtrema) (count : Nat) (s : σ) :
    Except Error Unit × Windower × σ :=
  if h : w.filled + count < w.window then
    (.ok (), ⟨added, w.window, w.filled + count, h, w.frames + count⟩, s)
  else
    close receive ⟨added, w.window, w.filled, w.filled_lt, w.frames + count⟩ s

/-! ## Planar buffers -/

/-- Add `frames` frames of the planes, in runs that end with the window. -/
def addPlanes (receive : Receiver σ) (w : Windower) (planes : List (List Sample)) (frames : Nat)
    (s : σ) : Except Error Unit × Windower × σ :=
  if frames = 0 then (.ok (), w, s)
  else
    let run := min w.room frames
    match advance receive w (w.current.addPlanes (planes.map (·.take run))) run s with
    | (.ok (), w', s') => addPlanes receive w' (planes.map (·.drop run)) (frames - run) s'
    | stopped => stopped
termination_by frames
decreasing_by
  have := w.room_pos
  omega

/-- The first plane too short for the frames, with its index. -/
def shortPlane? (frames : Nat) (planes : List (List Sample)) : Option (List Sample × Nat) :=
  planes.zipIdx.find? fun plane => plane.1.length < frames

/-- Why a planar buffer is refused. -/
def planarFault? (w : Windower) (planes : List (List Sample)) (frames : Nat) :
    Option BufferError :=
  if planes.length ≠ w.channels then some (.planeCount w.channels planes.length)
  else (shortPlane? frames planes).map fun plane => .shortPlane plane.2 plane.1.length frames

/-- Consume the first `frames` frames of a planar buffer. -/
def consumePlanar (receive : Receiver σ) (w : Windower) (planes : List (List Sample))
    (frames : Nat) (s : σ) : Except Error Unit × Windower × σ :=
  match w.planarFault? planes frames with
  | some fault => (.error (.buffer fault), w, s)
  | none => addPlanes receive w planes frames s

/-! ## Interleaved buffers -/

/-- Add frames one by one. -/
def addFrames (receive : Receiver σ) (w : Windower) : (frames : List (List Sample)) → (s : σ) →
    Except Error Unit × Windower × σ
  | [], s => (.ok (), w, s)
  | frame :: rest, s =>
    match advance receive w (w.current.addFrame frame) 1 s with
    | (.ok (), w', s') => addFrames receive w' rest s'
    | stopped => stopped

/-- The first `count` frames of interleaved samples. -/
def framesOf (channels : Nat) : (count : Nat) → (samples : List Sample) → List (List Sample)
  | 0, _ => []
  | count + 1, samples =>
    samples.take channels :: framesOf channels count (samples.drop channels)

theorem length_framesOf (channels count : Nat) (samples : List Sample) :
    (framesOf channels count samples).length = count := by
  induction count generalizing samples with
  | zero => rfl
  | succ count ih => simp [framesOf, ih]

/-- Cutting into frames loses and moves nothing. -/
theorem flatten_framesOf (channels count : Nat) (samples : List Sample) :
    (framesOf channels count samples).flatten = samples.take (count * channels) := by
  induction count generalizing samples with
  | zero => simp [framesOf]
  | succ count ih =>
    rw [framesOf, List.flatten_cons, ih, Nat.succ_mul, Nat.add_comm, List.take_add]

/-- Why an interleaved buffer is refused. -/
def interleavedFault? (w : Windower) (samples : List Sample) : Option BufferError :=
  if w.channels = 0 then some .noChannels
  else if samples.length % w.channels ≠ 0 then some (.brokenFrame samples.length w.channels)
  else none

/-- Consume an interleaved buffer. -/
def consumeInterleaved (receive : Receiver σ) (w : Windower) (samples : List Sample) (s : σ) :
    Except Error Unit × Windower × σ :=
  match w.interleavedFault? samples with
  | some fault => (.error (.buffer fault), w, s)
  | none => addFrames receive w (framesOf w.channels (samples.length / w.channels) samples) s

/-! ## The end of the stream -/

/-- Close a window that holds any frame; the answer says whether there was one. -/
def flush (receive : Receiver σ) (w : Windower) (s : σ) : Except Error Bool × Windower × σ :=
  if w.filled = 0 then (.ok false, w, s)
  else
    match close receive w s with
    | (.ok (), w', s') => (.ok true, w', s')
    | (.error cause, w', s') => (.error cause, w', s')

end Windower

end Peakfile
