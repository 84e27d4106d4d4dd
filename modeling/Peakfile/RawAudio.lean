/-
# Raw audio

Raw audio is a headerless run of little-endian single precision samples, frame
after frame.  A framer asks a source for bytes and passes on whole frames; bytes of
a frame that is still incomplete wait for the next reading.
-/
import Peakfile.Error
import Peakfile.Depth
import Peakfile.Memory

namespace Peakfile

/-! ## Sources -/

/-- What a read call may do. -/
inductive ReadEvent where
  /-- Give at most so many bytes. -/
  | atMost (count : Nat)
  /-- Give nothing; the call may be repeated. -/
  | interrupted
  | fails (cause : StorageError)
  deriving DecidableEq

/-- Bytes that are handed out by read calls. -/
structure Source where
  data : List UInt8
  /-- The events of the coming calls. -/
  script : List ReadEvent := []
  /-- The most bytes that a call after the script gives. -/
  step : Option Nat := none
  deriving DecidableEq

/-- What a read call answers. -/
inductive ReadReply where
  | gave (bytes : List UInt8)
  | interrupted
  | failed (cause : StorageError)
  deriving DecidableEq

namespace Source

/-- Give at most `count` bytes. -/
def give (s : Source) (count : Nat) : ReadReply × Source :=
  (.gave (s.data.take count), { s with data := s.data.drop count })

/-- One read call for at most `capacity` bytes. -/
def read (s : Source) (capacity : Nat) : ReadReply × Source :=
  match s.script with
  | [] => s.give (min capacity (s.step.getD capacity))
  | event :: script =>
    let s := { s with script }
    match event with
    | .atMost count => s.give (min capacity count)
    | .interrupted => (.interrupted, s)
    | .fails cause => (.failed cause, s)

/-- What a source still has to do: events and bytes. -/
def remaining (s : Source) : Nat := s.script.length + s.data.length

/-- Reading loses no bytes. -/
theorem data_of_gave {s s' : Source} {capacity : Nat} {bytes : List UInt8}
    (h : s.read capacity = (.gave bytes, s')) : s.data = bytes ++ s'.data := by
  unfold read at h
  split at h
  · simp only [give, Prod.mk.injEq, ReadReply.gave.injEq] at h
    obtain ⟨rfl, rfl⟩ := h
    simp
  · dsimp only at h
    split at h <;> simp only [give, Prod.mk.injEq, ReadReply.gave.injEq, reduceCtorEq,
      false_and] at h
    obtain ⟨rfl, rfl⟩ := h
    simp

/-- No call adds to the script. -/
theorem length_script_read (s : Source) (capacity : Nat) :
    (s.read capacity).2.script.length ≤ s.script.length := by
  unfold read
  split
  · simp [give]
  · next h => dsimp only; split <;> simp [give, h]

/-- An interruption leaves less to do. -/
theorem remaining_of_interrupted {s s' : Source} {capacity : Nat}
    (h : s.read capacity = (.interrupted, s')) : s'.remaining < s.remaining := by
  unfold read at h
  split at h
  · simp [give] at h
  · next hs =>
    dsimp only at h
    split at h <;> simp only [give, Prod.mk.injEq, reduceCtorEq, false_and, true_and] at h
    subst h
    simp [remaining, hs]

/-- Bytes that were given are no longer to be given. -/
theorem remaining_add_length_of_gave {s s' : Source} {capacity : Nat} {bytes : List UInt8}
    (h : s.read capacity = (.gave bytes, s')) : s'.remaining + bytes.length ≤ s.remaining := by
  have hd := congrArg List.length (data_of_gave h)
  have hs := length_script_read s capacity
  rw [h] at hs
  simp only [List.length_append] at hd
  simp only [remaining] at *
  omega

end Source

/-! ## Framers -/

/-- Bytes of a sample. -/
def sampleBytes : Nat := 4

/-- Cuts bytes into blocks of whole frames. -/
structure Framer where
  channels : Nat
  channels_pos : 0 < channels
  /-- The most frames of a block. -/
  blockFrames : Nat
  /-- Bytes of an incomplete frame. -/
  pending : List UInt8
  deriving DecidableEq

namespace Framer

/-- Whether there is room for a block: its size is a word of 64 bits, and memory for its bytes
and for the samples in them is to be had.  `granted` is what the system says to a request. -/
def hasRoom (channels blockFrames : Nat) (granted : Request → Bool) : Bool :=
  let frame := sampleBytes * channels
  let block := frame * max blockFrames 1
  let bytes := Request.bytes block
  let samples := Request.samples (block / sampleBytes)
  frame < UInt64.size && block < UInt64.size &&
    bytes.isMet (granted bytes) && samples.isMet (granted samples)

/-- A framer for blocks of at most `blockFrames` frames, at least one. -/
def new (channels blockFrames : Nat) (granted : Request → Bool := Request.isAddressable) :
    Except InputError Framer :=
  if h : channels = 0 then .error .noChannels
  else if hasRoom channels blockFrames granted then
    .ok ⟨channels, Nat.pos_of_ne_zero h, max blockFrames 1, []⟩
  else .error (.blockTooLarge channels blockFrames)

/-- Bytes of a frame. -/
def frameBytes (f : Framer) : Nat := sampleBytes * f.channels

/-- Bytes that a read call may give. -/
def capacity (f : Framer) : Nat := f.frameBytes * f.blockFrames - f.pending.length

/-- The first `count` samples of a run of bytes. -/
def samplesOf : (count : Nat) → (bytes : List UInt8) → List Sample
  | 0, _ => []
  | count + 1, bytes =>
    Binary.ofBits _ (LittleEndian.decode (bytes.take sampleBytes)) ::
      samplesOf count (bytes.drop sampleBytes)

theorem length_samplesOf (count : Nat) (bytes : List UInt8) :
    (samplesOf count bytes).length = count := by
  induction count generalizing bytes with
  | zero => rfl
  | succ count ih => simp [samplesOf, ih]

/-- The next block, `none` at the end of the data.  Data that end inside a frame are
an error.  After an error the framer may be asked again; nothing is lost. -/
def next (f : Framer) (s : Source) : Except InputError (Option (List Sample)) × Framer × Source :=
  match _h : s.read f.capacity with
  | (.interrupted, s') => f.next s'
  | (.failed cause, s') => (.error (.device cause), f, s')
  | (.gave [], s') =>
    if f.pending = [] then (.ok none, f, s')
    else (.error (.trailingBytes f.pending.length), f, s')
  | (.gave (b :: bytes), s') =>
    let held := f.pending ++ b :: bytes
    let frames := held.length / f.frameBytes
    if frames = 0 then { f with pending := held }.next s'
    else
      (.ok (some (samplesOf (frames * f.channels) held)),
        { f with pending := held.drop (frames * f.frameBytes) }, s')
termination_by s.remaining
decreasing_by
  · exact Source.remaining_of_interrupted _h
  · have := Source.remaining_add_length_of_gave _h
    simp only [List.length_cons] at this
    omega

/-- What a framer and its source still hold. -/
def remaining (f : Framer) (s : Source) : Nat := f.pending.length + s.remaining

/-- A block leaves less to do. -/
theorem remaining_of_next {f f' : Framer} {s s' : Source} {block : List Sample}
    (h : f.next s = (.ok (some block), f', s')) : f'.remaining s' < f.remaining s := by
  fun_induction next f s with
  | case1 f s s' hr ih =>
    have := Source.remaining_of_interrupted hr
    have := ih h
    simp only [remaining] at *
    omega
  | case2 => simp at h
  | case3 => simp at h
  | case4 => simp at h
  | case5 f s b bytes s' hr held frames hf ih =>
    have := Source.remaining_add_length_of_gave hr
    have := ih h
    simp only [remaining, held, List.length_append] at *
    omega
  | case6 f s b bytes s' hr held frames hf =>
    have := Source.remaining_add_length_of_gave hr
    have hpos : 0 < f.frameBytes := Nat.mul_pos (by decide) f.channels_pos
    have hle : f.frameBytes ≤ frames * f.frameBytes :=
      Nat.le_mul_of_pos_left _ (Nat.pos_of_ne_zero hf)
    simp only [Prod.mk.injEq] at h
    obtain ⟨_, rfl, rfl⟩ := h
    simp only [remaining, List.length_drop]
    have hh : held.length = f.pending.length + (b :: bytes).length := List.length_append
    have : 0 < (b :: bytes).length := by simp
    omega

end Framer

end Peakfile
