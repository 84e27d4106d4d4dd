/-
# Byte devices

A device writes to a tape, call by call.  It may misbehave: a fault may be set for
a call of a certain number, a call may be limited in size, and the room may run out.
Calls of each kind are numbered from 1, and all of them stand in a log together with
their answers.
-/
import Peakfile.Error
import Peakfile.Tape

namespace Peakfile

/-! ## Devices -/

/-- What a write call may do instead of taking all bytes. -/
inductive WriteFault where
  | fails (reason : String)
  /-- Nothing is taken and the call may be repeated. -/
  | interrupted
  | takesAtMost (count : Nat)
  deriving DecidableEq

/-- What a write call answers. -/
inductive WriteReply where
  | took (count : Nat)
  | interrupted
  | failed (cause : StorageError)
  deriving DecidableEq

/-- A call made to a device, and what came of it: for a write call its answer, for any
other the reason why it failed, if it did. -/
inductive DeviceCall where
  | write (data : List UInt8) (reply : WriteReply)
  | tell (fault : Option StorageError)
  | seek (position : Nat) (fault : Option StorageError)
  | flush (fault : Option StorageError)
  deriving DecidableEq

/-- A device and the faults it will show. -/
structure Device where
  tape : Tape := {}
  /-- Faults by the number of the write call.  The first fault of a number counts. -/
  writeFaults : List (Nat × WriteFault) := []
  /-- Why seek calls and position queries fail, by their number. -/
  seekFaults : List (Nat × String) := []
  /-- Why flushes fail, by their number. -/
  flushFaults : List (Nat × String) := []
  /-- The most bytes that one write call takes. -/
  transfer : Option Nat := none
  /-- The bytes that may still be written. -/
  room : Option Nat := none
  /-- Write calls made. -/
  writes : Nat := 0
  /-- Seek calls and position queries made. -/
  seeks : Nat := 0
  /-- Flushes made. -/
  flushes : Nat := 0
  /-- The calls made, the latest first. -/
  log : List DeviceCall := []
  deriving DecidableEq

namespace Device

/-- The bytes that a device holds. -/
def content (d : Device) : List UInt8 := d.tape.content

/-- Where a device writes next. -/
def position (d : Device) : Nat := d.tape.position

/-! ## Single calls -/

/-- The fault of the next write call. -/
def nextWriteFault (d : Device) : Option WriteFault := d.writeFaults.lookup (d.writes + 1)

/-- The device after a write call was counted. -/
def countWrite (d : Device) : Device := { d with writes := d.writes + 1 }

/-- Take the first `count` bytes, if there is room for them. -/
def take (d : Device) (data : List UInt8) (count : Nat) : WriteReply × Device :=
  if d.room.any (· < count) then (.failed .noSpace, d)
  else
    (.took count,
      { d with tape := d.tape.write (data.take count), room := d.room.map (· - count) })

/-- The most bytes of the data that one call would take. -/
def callLimit (d : Device) (data : List UInt8) : Nat :=
  min data.length (d.transfer.getD data.length)

/-- Note a call in the log. -/
def note (d : Device) (call : DeviceCall) : Device := { d with log := call :: d.log }

/-- What a write call does, before it is noted. -/
def attempt (d : Device) (data : List UInt8) : WriteReply × Device :=
  match d.nextWriteFault with
  | some (.fails reason) => (.failed (.other reason), d.countWrite)
  | some .interrupted => (.interrupted, d.countWrite)
  | some (.takesAtMost count) => d.countWrite.take data (min (d.callLimit data) count)
  | none => d.countWrite.take data (d.callLimit data)

/-- One write call. -/
def write (d : Device) (data : List UInt8) : WriteReply × Device :=
  let (reply, d) := d.attempt data
  (reply, d.note (.write data reply))

/-- Why the next seek call or position query fails, if it does. -/
def nextSeekFault (d : Device) : Option StorageError :=
  (d.seekFaults.lookup (d.seeks + 1)).map .other

/-- The device after a seek call or position query was counted. -/
def countSeek (d : Device) : Device := { d with seeks := d.seeks + 1 }

/-- Ask for the position. -/
def tell (d : Device) : Except StorageError Nat × Device :=
  match d.nextSeekFault with
  | none => (.ok d.position, d.countSeek.note (.tell none))
  | some cause => (.error cause, d.countSeek.note (.tell (some cause)))

/-- Move the position. -/
def seek (d : Device) (position : Nat) : Except StorageError Unit × Device :=
  match d.nextSeekFault with
  | none =>
    (.ok (), { d.countSeek with tape := d.tape.seek position }.note (.seek position none))
  | some cause => (.error cause, d.countSeek.note (.seek position (some cause)))

/-- Why the next flush fails, if it does. -/
def nextFlushFault (d : Device) : Option StorageError :=
  (d.flushFaults.lookup (d.flushes + 1)).map .other

/-- The device after a flush was counted. -/
def countFlush (d : Device) : Device := { d with flushes := d.flushes + 1 }

/-- Let everything taken so far reach its place. -/
def flush (d : Device) : Except StorageError Unit × Device :=
  match d.nextFlushFault with
  | none => (.ok (), d.countFlush.note (.flush none))
  | some cause => (.error cause, d.countFlush.note (.flush (some cause)))

/-! ## Writing everything -/

/-- How many faults are set for write calls still to come. -/
def pendingFaults (d : Device) : Nat := d.writeFaults.countP fun fault => d.writes < fault.1

/-- Taking bytes is not a call of its own. -/
@[simp] theorem pendingFaults_take (d : Device) (data : List UInt8) (count : Nat) :
    (d.take data count).2.pendingFaults = d.pendingFaults := by
  unfold take
  split <;> rfl

/-- Taking bytes is never answered by an interruption. -/
theorem take_ne_interrupted (d : Device) (data : List UInt8) (count : Nat) (d' : Device) :
    d.take data count ≠ (.interrupted, d') := by
  unfold take
  split <;> simp

/-- A call brings no faults. -/
theorem pendingFaults_countWrite (d : Device) :
    d.countWrite.pendingFaults ≤ d.pendingFaults := by
  unfold pendingFaults
  refine List.countP_mono_left fun fault _ h => ?_
  have hlt : d.writes + 1 < fault.1 := of_decide_eq_true h
  exact decide_eq_true (by omega)

/-- A number that is found counts as coming before its call, and not after it. -/
theorem countP_lt_of_lookup {α : Type} (faults : List (Nat × α)) (calls : Nat) (a : α)
    (h : faults.lookup (calls + 1) = some a) :
    (faults.countP fun fault => calls + 1 < fault.1) <
      faults.countP fun fault => calls < fault.1 := by
  induction faults with
  | nil => simp at h
  | cons fault faults ih =>
    simp only [List.countP_cons, decide_eq_true_eq]
    by_cases hc : calls + 1 = fault.1
    · have hle : (faults.countP fun fault => calls + 1 < fault.1) ≤
          faults.countP fun fault => calls < fault.1 :=
        List.countP_mono_left fun fault _ h => by
          simp only [decide_eq_true_eq] at h ⊢
          omega
      rw [if_neg (by omega), if_pos (by omega)]
      omega
    · have hb : (calls + 1 == fault.1) = false := by simpa using hc
      have hrest : faults.lookup (calls + 1) = some a := by
        rcases fault with ⟨number, _⟩
        simpa [List.lookup_cons, hb] using h
      have hlt := ih hrest
      by_cases hf : calls < fault.1
      · rw [if_pos (by omega), if_pos hf]
        omega
      · rw [if_neg (by omega), if_neg hf]
        omega

/-- An interruption uses up a fault. -/
theorem pendingFaults_of_interrupted {d d' : Device} {data : List UInt8}
    (h : d.write data = (.interrupted, d')) : d'.pendingFaults < d.pendingFaults := by
  obtain ⟨hreply, rfl⟩ := Prod.mk.inj h
  have ha : d.attempt data = (.interrupted, (d.attempt data).2) := Prod.ext hreply rfl
  show (d.attempt data).2.pendingFaults < d.pendingFaults
  generalize (d.attempt data).2 = d' at ha
  unfold attempt at ha
  split at ha
  · simp at ha
  · next hf =>
    obtain rfl : d.countWrite = d' := by simpa using ha
    exact countP_lt_of_lookup _ _ _ hf
  · exact absurd ha (take_ne_interrupted _ _ _ _)
  · exact absurd ha (take_ne_interrupted _ _ _ _)

/-- No call adds to the faults still to come. -/
theorem pendingFaults_write (d : Device) (data : List UInt8) :
    (d.write data).2.pendingFaults ≤ d.pendingFaults := by
  show (d.attempt data).2.pendingFaults ≤ d.pendingFaults
  unfold attempt
  split <;> simp [pendingFaults_countWrite]

/-- Write calls until all bytes are taken.  Interruptions are repeated; a call that
takes nothing ends the attempt.  For no bytes no call is made. -/
def writeAll (d : Device) (data : List UInt8) : Except StorageError Unit × Device :=
  if data = [] then (.ok (), d)
  else
    match h : d.write data with
    | (.took 0, d') => (.error .tookNothing, d')
    | (.took (count + 1), d') => d'.writeAll (data.drop (count + 1))
    | (.interrupted, d') => d'.writeAll data
    | (.failed cause, d') => (.error cause, d')
termination_by d.pendingFaults + data.length
decreasing_by
  · have hs := pendingFaults_write d data
    rw [h] at hs
    have hd : 0 < data.length := List.length_pos_iff.2 ‹_›
    simp only [List.length_drop] at *
    omega
  · have := pendingFaults_of_interrupted h
    omega

end Device

end Peakfile
