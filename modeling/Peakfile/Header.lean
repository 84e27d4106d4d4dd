/-
# The header of a peak file

Five little-endian words, and a sixth when points are kept per channel:

| bytes | word |
|---|---|
| 0 to 3 | version: 1 for one point per window, 2 for one per channel |
| 4 to 7 | flags: the lowest bit set for eight-bit points, all others clear |
| 8 to 11 | sample rate |
| 12 to 15 | window length in frames |
| 16 to 19 | count of windows |
| 20 to 23 | count of channels, in version 2 alone, and never zero |
-/
import Peakfile.Error
import Peakfile.Depth

namespace Peakfile

/-- The header of a peak file. -/
structure Header where
  depth : Depth
  /-- Frames of input per second. -/
  sampleRate : UInt32
  /-- Frames per window. -/
  windowFrames : UInt32
  /-- Windows in the file. -/
  windows : UInt32
  /-- The channel count of a file with points per channel. -/
  channels : Option UInt32
  deriving DecidableEq

namespace Header

/-- Where the count of windows stands. -/
def countOffset : Nat := 16

/-- The format version. -/
def version (h : Header) : Nat := if h.channels.isSome then 2 else 1

/-- The flags word. -/
def flags (h : Header) : Nat :=
  match h.depth with
  | .eight => 1
  | .sixteen => 0

/-- Points kept for each window. -/
def pointsPerWindow (h : Header) : Nat :=
  match h.channels with
  | some channels => channels.toNat
  | none => 1

/-- Bytes of the header. -/
def size (h : Header) : Nat := if h.channels.isSome then 24 else 20

/-- Bytes of the points of one window, in a word of 64 bits. -/
def windowSize (h : Header) : Nat :=
  (UInt64.ofNat h.depth.pointSize * UInt64.ofNat h.pointsPerWindow).toNat

/-- Bytes of all points that the header promises, in a word of 64 bits: where they are more
than it can tell, it tells what is left of them. -/
def payloadSize (h : Header) : Nat := (h.windows.toUInt64 * UInt64.ofNat h.windowSize).toNat

theorem pointsPerWindow_lt (h : Header) : h.pointsPerWindow < UInt32.size := by
  unfold pointsPerWindow
  split
  · exact UInt32.toNat_lt_size _
  · decide

/-- No window has more bytes than the word can tell. -/
theorem windowSize_eq_mul (h : Header) :
    h.windowSize = h.depth.pointSize * h.pointsPerWindow := by
  have hpoints := h.pointsPerWindow_lt
  have hsize : h.depth.pointSize ≤ 4 := by cases h.depth <;> decide
  have hproduct := Nat.mul_le_mul hsize (Nat.le_of_lt hpoints)
  simp only [UInt32.size] at hproduct hpoints
  have hword : h.depth.pointSize < UInt64.size := by simp only [UInt64.size]; omega
  have hword' : h.pointsPerWindow < UInt64.size := by simp only [UInt64.size]; omega
  rw [windowSize, UInt64.toNat_mul, UInt64.toNat_ofNat_of_lt' hword,
    UInt64.toNat_ofNat_of_lt' hword']
  exact Nat.mod_eq_of_lt (by omega)

/-- All points together may have. -/
theorem payloadSize_eq_mod (h : Header) :
    h.payloadSize = h.windows.toNat * h.windowSize % UInt64.size := by
  have hword : h.windowSize < UInt64.size := UInt64.toNat_lt_size _
  rw [payloadSize, UInt64.toNat_mul, UInt64.toNat_ofNat_of_lt' hword]
  rfl

/-- A header that promises `2 ^ 64` bytes tells none. -/
example : (Header.mk .sixteen 1 1 0x80000000 (some 0x80000000)).payloadSize = 0 := by decide

/-- The promise is exact where the word can tell it. -/
theorem payloadSize_of_lt {h : Header} (hlt : h.windows.toNat * h.windowSize < UInt64.size) :
    h.payloadSize = h.windows.toNat * h.windowSize := by
  rw [payloadSize_eq_mod, Nat.mod_eq_of_lt hlt]

/-! ## Writing -/

/-- The words of a header, in order. -/
def words (h : Header) : List Nat :=
  [h.version, h.flags, h.sampleRate.toNat, h.windowFrames.toNat, h.windows.toNat] ++
    h.channels.toList.map UInt32.toNat

/-- The bytes of a header. -/
def encode (h : Header) : List UInt8 := h.words.flatMap (LittleEndian.encode 4)

/-- A header takes the room that its version says. -/
theorem length_encode (h : Header) : h.encode.length = h.size := by
  obtain ⟨depth, rate, frames, windows, channels⟩ := h
  cases channels <;> simp [encode, words, size]

/-! ## Reading -/

/-- The word at an offset. -/
def wordAt (data : List UInt8) (offset : Nat) : UInt32 :=
  UInt32.ofNat (LittleEndian.decode ((data.drop offset).take 4))

/-- The header at the start of the data, and the data after it.  The flags are
judged before the version, and both before the sixth word is read. -/
def decode (data : List UInt8) : Except Error (Header × List UInt8) :=
  if data.length < 20 then .error (.device .endedEarly)
  else
    let flags := (wordAt data 4).toNat
    if 2 ≤ flags then .error (.format (.unknownFlags flags))
    else
      let header : Header :=
        { depth := if flags = 1 then .eight else .sixteen
          sampleRate := wordAt data 8
          windowFrames := wordAt data 12
          windows := wordAt data 16
          channels := none }
      let version := (wordAt data 0).toNat
      if version = 1 then .ok (header, data.drop 20)
      else if version = 2 then
        if data.length < 24 then .error (.device .endedEarly)
        else
          let channels := wordAt data 20
          if channels = 0 then .error (.format .zeroChannels)
          else .ok ({ header with channels := some channels }, data.drop 24)
      else .error (.format (.unsupportedVersion version))

end Header

end Peakfile
