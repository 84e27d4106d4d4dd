/-
# Extrema

The running extrema of a channel: an interval that grows just enough to hold each
sample.  It starts either inverted, so that the first sample sets both bounds, or
at zero.  A sample that is not a number compares with nothing and changes nothing.
-/
import Peakfile.Depth

namespace Peakfile

/-! ## One channel -/

/-- The bounds of the samples seen so far. -/
structure Extrema where
  lo : Sample
  hi : Sample
  deriving DecidableEq

namespace Extrema

/-- Both bounds at zero. -/
def atZero : Extrema := ⟨Binary.zero false, Binary.zero false⟩

/-- Inverted bounds, which every number narrows. -/
def inverted : Extrema := ⟨Binary.infinity false, Binary.infinity true⟩

/-- Widen the bounds to hold a sample. -/
def add (e : Extrema) (s : Sample) : Extrema where
  lo := if s < e.lo then s else e.lo
  hi := if e.hi < s then s else e.hi

/-- Widen the bounds to hold a list of samples. -/
def addAll (e : Extrema) (samples : List Sample) : Extrema := samples.foldl add e

/-- Whether the bounds are still inverted. -/
def isEmpty (e : Extrema) : Bool := e.hi < e.lo

/-- What is drawn: the bounds, or zero where nothing was seen. -/
def peaks (e : Extrema) : Sample × Sample :=
  if e.isEmpty then (Binary.zero false, Binary.zero false) else (e.lo, e.hi)

/-- Samples may be added in any grouping. -/
theorem addAll_append (e : Extrema) (a b : List Sample) :
    e.addAll (a ++ b) = (e.addAll a).addAll b := by
  simp [addAll]

end Extrema

/-! ## Where a window starts -/

/-- Where the bounds of a window start. -/
inductive Anchor where
  /-- Inverted: the window's own extrema. -/
  | extrema
  /-- At zero: silence is always inside. -/
  | zero
  deriving DecidableEq

namespace Anchor

/-- The bounds a window starts with. -/
def initial : Anchor → Extrema
  | extrema => .inverted
  | zero => .atZero

end Anchor

/-! ## All channels -/

/-- The running extrema of every channel of a stream. -/
structure ChannelExtrema where
  anchor : Anchor
  /-- One interval per channel, in declared order. -/
  extrema : List Extrema
  deriving DecidableEq

namespace ChannelExtrema

/-- Bounds for a number of channels before any sample. -/
def fresh (channels : Nat) (anchor : Anchor) : ChannelExtrema :=
  ⟨anchor, List.replicate channels anchor.initial⟩

/-- The number of channels. -/
def channels (c : ChannelExtrema) : Nat := c.extrema.length

/-- Add a run of samples to one channel, if there is such a channel. -/
def addToChannel? (c : ChannelExtrema) (channel : Nat) (samples : List Sample) :
    Option ChannelExtrema :=
  if channel < c.channels then
    some { c with extrema := c.extrema.modify channel (·.addAll samples) }
  else none

/-- Add one sample to each channel; the shorter of frame and channels decides. -/
def addFrame (c : ChannelExtrema) (frame : List Sample) : ChannelExtrema :=
  { c with extrema := List.zipWith Extrema.add c.extrema frame ++ c.extrema.drop frame.length }

/-- Add one run of samples to each channel. -/
def addPlanes (c : ChannelExtrema) (planes : List (List Sample)) : ChannelExtrema :=
  { c with extrema := List.zipWith Extrema.addAll c.extrema planes }

/-- Start over. -/
def reset (c : ChannelExtrema) : ChannelExtrema := fresh c.channels c.anchor

end ChannelExtrema

end Peakfile
