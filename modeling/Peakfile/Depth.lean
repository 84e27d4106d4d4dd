/-
# Depths and points

A stored value has eight or sixteen bits.  A point is a pair of stored values, the
lower and the upper bound of what a window held: each bound is scaled to the
depth's largest integer, rounded with ties away from zero, and clamped.
-/
import Peakfile.Binary.Arithmetic
import Peakfile.LittleEndian

namespace Peakfile

/-- An audio sample. -/
abbrev Sample := Single

/-! ## Depths -/

/-- The resolution of stored values. -/
inductive Depth where
  | eight
  | sixteen
  deriving DecidableEq

namespace Depth

/-- Bits of a stored value. -/
def bits : Depth → Nat
  | eight => 8
  | sixteen => 16

/-- Bytes of a stored value. -/
def bytes : Depth → Nat
  | eight => 1
  | sixteen => 2

/-- The depth with the given number of bits. -/
def ofBits? : Nat → Option Depth
  | 8 => some eight
  | 16 => some sixteen
  | _ => none

@[simp] theorem ofBits?_bits (d : Depth) : ofBits? d.bits = some d := by cases d <;> rfl

/-- The largest stored value. -/
def top : Depth → Nat
  | eight => 127
  | sixteen => 32767

/-- The largest stored value as a sample: what full volume is scaled to. -/
def fullScale (d : Depth) : Sample := Binary.ofNat _ d.top

/-! ## Stored values -/

/-- The stored value of a sample. -/
def quantize (d : Depth) (s : Sample) : Int :=
  (s * d.fullScale).toIntWithin (-(d.top : Int) - 1) d.top

/-- The bytes of a stored value: two's complement, lowest byte first. -/
def encodeValue (d : Depth) (s : Sample) : List UInt8 :=
  LittleEndian.encode d.bytes (d.quantize s % Int.pow 256 d.bytes).toNat

/-- Bytes of a point. -/
def pointSize (d : Depth) : Nat := 2 * d.bytes

/-- The bytes of a point. -/
def encodePoint (d : Depth) (lo hi : Sample) : List UInt8 := d.encodeValue lo ++ d.encodeValue hi

/-- Every point takes the same room. -/
@[simp] theorem length_encodePoint (d : Depth) (lo hi : Sample) :
    (d.encodePoint lo hi).length = d.pointSize := by
  simp [encodePoint, encodeValue, pointSize, Nat.two_mul]

end Depth

end Peakfile
