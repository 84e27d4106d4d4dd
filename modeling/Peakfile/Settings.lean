/-
# Settings and stream layouts

The settings say what a peak file should look like, the layout what the audio is.
Together they fix the length of a window in frames.
-/
import Peakfile.Error
import Peakfile.Extrema
import Peakfile.Memory

namespace Peakfile

/-! ## Settings -/

/-- What a peak file should look like. -/
structure Settings where
  /-- Length of a window in seconds. -/
  seconds : Double
  /-- Whether each channel has points of its own. -/
  split : Bool
  depth : Depth
  /-- The file to write, if any. -/
  output : Option String
  anchor : Anchor
  deriving DecidableEq

namespace Settings

/-- Three second windows of all channels together, sixteen bits, and no file. -/
def standard : Settings where
  seconds := Binary.ofNat _ 3
  split := false
  depth := .sixteen
  output := none
  anchor := .extrema

/-- Check the length of a window. -/
def check (s : Settings) : Except Error Unit :=
  if shortestWindow ≤ s.seconds ∧ s.seconds ≤ longestWindow then .ok ()
  else .error (.windowLength s.seconds)

/-- The length of a window in frames: the product of seconds and rate, rounded to
the nearest whole number with ties upwards.  It is neither zero nor more than a
header word holds. -/
def windowFrames (s : Settings) (rate : UInt32) : Except Error Nat :=
  match s.check with
  | .error cause => .error cause
  | .ok () =>
    let frames := ((s.seconds * Binary.ofNat _ rate.toNat).toIntWithin 0 (UInt64.size - 1)).toNat
    if frames = 0 then .error (.emptyWindow s.seconds rate.toNat)
    else if UInt32.size ≤ frames then .error (.layout (.windowTooLong frames))
    else .ok frames

/-- A window holds at least one frame, and a header word holds its length. -/
theorem windowFrames_bounds {s : Settings} {rate : UInt32} {frames : Nat}
    (h : s.windowFrames rate = .ok frames) : 0 < frames ∧ frames < UInt32.size := by
  unfold windowFrames at h
  split at h
  · simp at h
  · dsimp only at h
    split at h
    · simp at h
    · split at h
      · simp at h
      · simp only [Except.ok.injEq] at h
        omega

end Settings

/-! ## Layouts -/

/-- What is known of an audio stream. -/
structure Layout where
  /-- Samples per frame. -/
  channels : Nat
  /-- Frames per second. -/
  rate : UInt32
  deriving DecidableEq

/-- Check that a header can describe the layout. -/
def Layout.check (l : Layout) : Except Error Unit :=
  if l.channels = 0 then .error (.layout .noChannels)
  else if UInt32.size ≤ l.channels then .error (.layout (.tooManyChannels l.channels))
  else if l.rate = 0 then .error (.layout .noRate)
  else .ok ()

namespace ChannelExtrema

/-- Bounds for a number of channels, if memory for them is to be had.  `granted` is what the
system says to the request. -/
def allocate (channels : Nat) (anchor : Anchor) (granted : Bool := true) :
    Except Error ChannelExtrema :=
  if (Request.bounds channels).isMet granted then .ok (fresh channels anchor)
  else .error (.allocation channels)

/-- With memory, as many channels as a header can count have bounds. -/
theorem allocate_granted {channels : Nat} (h : channels < UInt32.size) (anchor : Anchor) :
    allocate channels anchor true = .ok (fresh channels anchor) :=
  if_pos (Request.isMet_true (Request.size_bounds_le h))

/-- Without memory, no channels have bounds. -/
theorem allocate_refused {channels : Nat} (h : 0 < channels) (anchor : Anchor) :
    allocate channels anchor false = .error (.allocation channels) := by
  rw [allocate, Request.isMet_false (Request.size_bounds_ne_zero h)]
  rfl

/-- Bounds that were allocated were granted. -/
theorem granted_of_allocate {channels : Nat} {anchor : Anchor} {granted : Bool}
    {bounds : ChannelExtrema} (hpos : 0 < channels)
    (h : allocate channels anchor granted = .ok bounds) : granted = true := by
  cases granted
  · rw [allocate_refused hpos] at h
    cases h
  · rfl

end ChannelExtrema

end Peakfile
