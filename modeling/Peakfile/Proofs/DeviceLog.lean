/-
# What devices were told

A device notes every call made to it.  `Tape.replay` makes a tape again from such a log,
and a device is `Recorded` if its log gives its tape.  The log then tells what the device
held at every moment, also in the middle of a call to whoever writes to it:

* write calls alone only ever add bytes at the end (`Tape.content_replay_prefix`);
* writing everything takes a prefix of the data, however the calls fare, and all of it
  unless it fails (`Device.wrote_writeAll`);
* a `Reliable` device takes everything in the end.
-/
import Mathlib
import Peakfile.Draft

namespace Peakfile

/-! ## Logs as tapes -/

namespace DeviceCall

/-- What a call does to the tape. -/
def effect : DeviceCall → Tape → Tape
  | write data (.took count), t => t.write (data.take count)
  | seek position none, t => t.seek position
  | _, t => t

/-- Whether a call may change bytes. -/
def isWrite : DeviceCall → Bool
  | write .. => true
  | _ => false

/-- Whether a call asks for the position. -/
def isQuery : DeviceCall → Bool
  | tell _ => true
  | _ => false

/-- The bytes that a call took. -/
def taken : DeviceCall → List UInt8
  | write data (.took count) => data.take count
  | _ => []

/-- The bytes that calls took, in order.  The latest call comes first. -/
def takenBy (calls : List DeviceCall) : List UInt8 := calls.reverse.flatMap taken

theorem takenBy_append (later earlier : List DeviceCall) :
    takenBy (later ++ earlier) = takenBy earlier ++ takenBy later := by
  simp [takenBy]

theorem isQuery_of_isWrite {c : DeviceCall} (h : c.isWrite = true) : c.isQuery = false := by
  cases c <;> first | rfl | cases h

end DeviceCall

namespace Tape

/-- The tape that calls make of an empty one.  The latest call comes first. -/
def replay (log : List DeviceCall) : Tape := log.foldr DeviceCall.effect {}

theorem replay_cons (c : DeviceCall) (log : List DeviceCall) :
    replay (c :: log) = c.effect (replay log) := rfl

/-- At the end of the bytes, a write call adds to them and stays at their end. -/
theorem content_effect_of_isWrite {c : DeviceCall} (hc : c.isWrite = true) {t : Tape}
    (ht : t.position = t.content.length) :
    t.content <+: (c.effect t).content ∧
      (c.effect t).position = (c.effect t).content.length := by
  rcases c with ⟨data, count | _ | cause⟩ | _ | _ | _
  · rw [DeviceCall.effect, content_write, position_write, ht, overwrite_length]
    exact ⟨List.prefix_append _ _, List.length_append.symm⟩
  · exact ⟨List.prefix_rfl, ht⟩
  · exact ⟨List.prefix_rfl, ht⟩
  all_goals cases hc

/-- Write calls alone leave the position at the end. -/
theorem position_replay {log : List DeviceCall} (h : ∀ c ∈ log, c.isWrite = true) :
    (replay log).position = (replay log).content.length := by
  induction log with
  | nil => rfl
  | cons c log ih =>
    have hlog := ih fun c' hc' => h c' (by simp [hc'])
    exact (content_effect_of_isWrite (h c (by simp)) hlog).2

/-- Write calls alone never take bytes back: what there was earlier is still in front. -/
theorem content_replay_prefix {log past : List DeviceCall} (h : ∀ c ∈ log, c.isWrite = true)
    (hpast : past <:+ log) : (replay past).content <+: (replay log).content := by
  induction log with
  | nil => rw [List.suffix_nil.1 hpast]
  | cons c log ih =>
    have hlog : ∀ c' ∈ log, c'.isWrite = true := fun c' hc' => h c' (by simp [hc'])
    rcases List.suffix_cons_iff.1 hpast with rfl | hpast
    · exact List.prefix_rfl
    · have hgrow := content_effect_of_isWrite (h c (by simp)) (position_replay hlog)
      exact (ih hlog hpast).trans hgrow.1

end Tape

namespace Device

/-! ## Single calls -/

/-- A device whose log gives its tape. -/
def Recorded (d : Device) : Prop := d.tape = Tape.replay d.log

/-- A query is noted with its answer. -/
theorem tell_eq (d : Device) :
    d.tell = (d.nextSeekFault.elim (.ok d.position) .error,
      d.countSeek.note (.tell d.nextSeekFault)) := by
  unfold tell
  cases d.nextSeekFault <;> rfl

/-- A move is noted, and keeps the bytes whether or not it succeeds. -/
theorem seek_effect (d : Device) (position : Nat) :
    (∃ fault, (d.seek position).2.log = .seek position fault :: d.log ∧
        (d.seek position).2.tape = (DeviceCall.seek position fault).effect d.tape) ∧
      (d.seek position).2.content = d.content := by
  unfold seek
  cases d.nextSeekFault with
  | none => exact ⟨⟨none, rfl, rfl⟩, Tape.content_seek _ _⟩
  | some cause => exact ⟨⟨some cause, rfl, rfl⟩, rfl⟩

/-- A move that succeeds ends where it was to. -/
theorem position_of_seek {d d' : Device} {position : Nat}
    (h : d.seek position = (.ok (), d')) : d'.position = position := by
  unfold seek at h
  rcases hf : d.nextSeekFault with _ | cause
  · rw [hf] at h
    cases h
    exact Tape.position_seek _ _
  · rw [hf] at h
    cases h

/-- A flush is noted, and keeps the bytes whether or not it succeeds. -/
theorem flush_effect (d : Device) :
    (∃ fault, d.flush.2.log = .flush fault :: d.log) ∧ d.flush.2.tape = d.tape := by
  unfold flush
  cases d.nextFlushFault with
  | none => exact ⟨⟨none, rfl⟩, rfl⟩
  | some cause => exact ⟨⟨some cause, rfl⟩, rfl⟩

/-- A write call is noted with its answer, and does what the note says. -/
theorem write_effect (d : Device) (data : List UInt8) :
    (d.write data).2.log = .write data (d.write data).1 :: d.log ∧
      (d.write data).2.tape = (DeviceCall.write data (d.write data).1).effect d.tape := by
  -- Taking bytes and attempting to write note nothing themselves, so the log has the same
  -- calls until the attempt is noted.
  have htake : ∀ (d : Device) (count : Nat), (d.take data count).2.log = d.log ∧
      (d.take data count).2.tape =
        (DeviceCall.write data (d.take data count).1).effect d.tape := by
    intro d count
    unfold take
    split_ifs <;> exact ⟨rfl, rfl⟩
  have hattempt : (d.attempt data).2.log = d.log ∧ (d.attempt data).2.tape =
      (DeviceCall.write data (d.attempt data).1).effect d.tape := by
    unfold attempt
    split
    · exact ⟨rfl, rfl⟩
    · exact ⟨rfl, rfl⟩
    · exact htake _ _
    · exact htake _ _
  exact ⟨by rw [← hattempt.1]; rfl, hattempt.2⟩

/-! ## What was written -/

/-- One device comes from another by write calls that took the given bytes. -/
structure Wrote (d : Device) (bytes : List UInt8) (d' : Device) : Prop where
  content_eq : d'.content = overwrite d.content d.position bytes
  position_eq : d'.position = d.position + bytes.length
  recorded : d.Recorded → d'.Recorded
  noted : ∃ calls, d'.log = calls ++ d.log ∧ DeviceCall.takenBy calls = bytes ∧
    ∀ c ∈ calls, c.isWrite = true

namespace Wrote

variable {d d' d'' : Device} {first second : List UInt8}

theorem refl (h : d.position ≤ d.content.length) : d.Wrote [] d where
  content_eq := (overwrite_nil h).symm
  position_eq := rfl
  recorded := id
  noted := ⟨[], rfl, rfl, by simp⟩

theorem trans (h₁ : d.Wrote first d') (h₂ : d'.Wrote second d'') :
    d.Wrote (first ++ second) d'' where
  content_eq := by
    rw [h₂.content_eq, h₁.content_eq, h₁.position_eq, overwrite_overwrite]
  position_eq := by
    rw [h₂.position_eq, h₁.position_eq, List.length_append, Nat.add_assoc]
  recorded h := h₂.recorded (h₁.recorded h)
  noted := by
    obtain ⟨calls₁, hlog₁, htaken₁, hwrites₁⟩ := h₁.noted
    obtain ⟨calls₂, hlog₂, htaken₂, hwrites₂⟩ := h₂.noted
    refine ⟨calls₂ ++ calls₁, ?_, ?_, fun c hc => ?_⟩
    · rw [hlog₂, hlog₁, List.append_assoc]
    · rw [DeviceCall.takenBy_append, htaken₁, htaken₂]
    · exact (List.mem_append.1 hc).elim (hwrites₂ c) (hwrites₁ c)

/-- Writing never leaves the bytes. -/
theorem position_le (h : d.Wrote first d') : d'.position ≤ d'.content.length := by
  rw [h.content_eq, h.position_eq, length_overwrite]
  exact Nat.le_max_right _ _

end Wrote

/-- A write call that takes bytes puts them at the position, wherever that is. -/
theorem wrote_of_took {d d' : Device} {data : List UInt8} {count : Nat}
    (hw : d.write data = (.took count, d')) : d.Wrote (data.take count) d' := by
  obtain ⟨hlog, htape⟩ := write_effect d data
  rw [hw] at hlog htape
  refine ⟨?_, ?_, ?_, [.write data (.took count)], hlog, ?_, ?_⟩
  · rw [content, htape]
    exact Tape.content_write _ _
  · rw [position, htape]
    exact Tape.position_write _ _
  · intro hd
    rw [Recorded, hlog, htape, Tape.replay_cons, hd]
  · simp [DeviceCall.takenBy, DeviceCall.taken]
  · simp [DeviceCall.isWrite]

/-- A write call that takes nothing leaves everything to the calls after it. -/
theorem Wrote.of_untaken {d d' d'' : Device} {data bytes : List UInt8} {reply : WriteReply}
    (hw : d.write data = (reply, d')) (hreply : ∀ count, reply ≠ .took count)
    (h : d'.Wrote bytes d'') : d.Wrote bytes d'' := by
  obtain ⟨hlog, htape⟩ := write_effect d data
  rw [hw] at hlog htape
  have hsame : d'.tape = d.tape := by
    rw [htape]
    cases reply with
    | took count => exact absurd rfl (hreply count)
    | interrupted | failed => rfl
  have hnone : (DeviceCall.write data reply).taken = [] := by
    cases reply with
    | took count => exact absurd rfl (hreply count)
    | interrupted | failed => rfl
  obtain ⟨calls, hcalls, htaken, hwrites⟩ := h.noted
  refine ⟨?_, ?_, ?_, calls ++ [.write data reply], ?_, ?_, fun c hc => ?_⟩
  · rw [h.content_eq, content, position, hsame]
    rfl
  · rw [h.position_eq, position, hsame]
    rfl
  · intro hd
    refine h.recorded ?_
    rw [Recorded, hlog, htape, Tape.replay_cons, hd]
  · rw [hcalls, hlog, List.append_assoc]
    rfl
  · rw [DeviceCall.takenBy_append, htaken, DeviceCall.takenBy, List.reverse_singleton,
      List.flatMap_singleton, hnone, List.nil_append]
  · rcases List.mem_append.1 hc with hc | hc
    · exact hwrites c hc
    · rw [List.mem_singleton.1 hc]
      rfl

/-- A write call writes what it takes. -/
theorem wrote_write {d : Device} (h : d.position ≤ d.content.length) (data : List UInt8) :
    match d.write data with
    | (.took count, d') => d.Wrote (data.take count) d'
    | (_, d') => d.Wrote [] d' := by
  -- A call that takes nothing keeps the tape, so its position is still among the bytes.
  have hnone : ∀ reply d', d.write data = (reply, d') → (∀ count, reply ≠ .took count) →
      d.Wrote [] d' := by
    intro reply d' hw hreply
    have htape := (write_effect d data).2
    rw [hw] at htape
    refine .of_untaken hw hreply (.refl ?_)
    cases reply with
    | took count => exact absurd rfl (hreply count)
    | interrupted | failed =>
      rw [position, content, htape]
      exact h
  rcases hw : d.write data with ⟨count | _ | cause, d'⟩
  · exact wrote_of_took hw
  · exact hnone _ _ hw (by simp)
  · exact hnone _ _ hw (by simp)

/-- Writing any bytes begins with a write call. -/
theorem writeAll_eq (d : Device) {data : List UInt8} (h : data ≠ []) :
    d.writeAll data =
      match d.write data with
      | (.took 0, d') => (.error .tookNothing, d')
      | (.took (count + 1), d') => d'.writeAll (data.drop (count + 1))
      | (.interrupted, d') => d'.writeAll data
      | (.failed cause, d') => (.error cause, d') := by
  rw [writeAll, if_neg h]
  split <;> next hw => rw [hw]

/-- **Writing everything.**  Whatever the write calls do, what they take is a prefix of
the data, written in order; it is all of the data unless an error is answered. -/
theorem wrote_writeAll {d : Device} (h : d.position ≤ d.content.length) (data : List UInt8) :
    ∃ taken, taken <+: data ∧ d.Wrote taken (d.writeAll data).2 ∧
      ((d.writeAll data).1 = .ok () → taken = data) := by
  -- The induction is that of the calls: each of them takes from the front of what is left.
  induction d, data using writeAll.induct with
  | case1 d =>
    rw [writeAll, if_pos rfl]
    exact ⟨[], List.prefix_rfl, .refl h, fun _ => rfl⟩
  | case2 d data hne d' hw =>
    have hstep := wrote_write h data
    rw [hw] at hstep
    rw [writeAll_eq d hne, hw]
    exact ⟨[], List.nil_prefix, hstep, fun hok => by cases hok⟩
  | case3 d data hne count d' hw ih =>
    have hstep := wrote_write h data
    rw [hw] at hstep
    rw [writeAll_eq d hne, hw]
    -- The call took the front of the data, and what follows takes from the rest.
    obtain ⟨taken, hprefix, hwrote, hall⟩ := ih hstep.position_le
    have hsplit : data.take (count + 1) ++ data.drop (count + 1) = data := List.take_append_drop ..
    refine ⟨data.take (count + 1) ++ taken, ?_, hstep.trans hwrote, fun hok => ?_⟩
    · conv_rhs => rw [← hsplit]
      exact (List.prefix_append_right_inj _).2 hprefix
    · rw [hall hok, hsplit]
  | case4 d data hne d' hw ih =>
    have hstep := wrote_write h data
    rw [hw] at hstep
    rw [writeAll_eq d hne, hw]
    obtain ⟨taken, hprefix, hwrote, hall⟩ := ih hstep.position_le
    exact ⟨taken, hprefix, hstep.trans hwrote, hall⟩
  | case5 d data hne cause d' hw =>
    have hstep := wrote_write h data
    rw [hw] at hstep
    rw [writeAll_eq d hne, hw]
    exact ⟨[], List.nil_prefix, hstep, fun hok => by cases hok⟩

/-- Where everything is written it stands where the device did, also behind the bytes, where
the gap is filled as soon as there is anything to write. -/
theorem wrote_of_writeAll_ok {d : Device} {data : List UInt8}
    (hdata : d.position ≤ d.content.length ∨ data ≠ []) (hok : (d.writeAll data).1 = .ok ()) :
    d.Wrote data (d.writeAll data).2 := by
  induction d, data using writeAll.induct with
  | case1 d =>
    rw [writeAll, if_pos rfl]
    exact .refl (hdata.resolve_right (· rfl))
  | case3 d data hne count d' hw ih =>
    rw [writeAll_eq d hne, hw] at hok ⊢
    have hstep := wrote_of_took hw
    have hrest := hstep.trans (ih (.inl hstep.position_le) hok)
    rw [List.take_append_drop] at hrest
    exact hrest
  | case4 d data hne d' hw ih =>
    rw [writeAll_eq d hne, hw] at hok ⊢
    exact .of_untaken hw (by simp) (ih (.inr hne) hok)
  | case2 d data hne d' hw | case5 d data hne cause d' hw =>
    rw [writeAll_eq d hne, hw] at hok
    cases hok

/-! ## Overwriting in place -/

/-- One device comes from another by calls that do not ask for the position, and the bytes
that they took stand at an offset. -/
structure Overwrote (offset : Nat) (d : Device) (bytes : List UInt8) (d' : Device) : Prop where
  content_eq : d'.content = overwrite d.content offset bytes
  recorded : d.Recorded → d'.Recorded
  noted : ∃ calls, d'.log = calls ++ d.log ∧ DeviceCall.takenBy calls = bytes ∧
    ∀ c ∈ calls, c.isQuery = false

namespace Overwrote

variable {offset : Nat} {d d' d'' : Device} {bytes : List UInt8}

theorem refl (h : offset ≤ d.content.length) : Overwrote offset d [] d where
  content_eq := (overwrite_nil h).symm
  recorded := id
  noted := ⟨[], rfl, rfl, by simp⟩

/-- A call that takes no bytes and keeps those that are there changes nothing. -/
theorem silent (h : Overwrote offset d bytes d') {c : DeviceCall} (htaken : c.taken = [])
    (hquery : c.isQuery = false) (hlog : d''.log = c :: d'.log)
    (htape : d''.tape = c.effect d'.tape) (hcontent : d''.content = d'.content) :
    Overwrote offset d bytes d'' where
  content_eq := hcontent.trans h.content_eq
  recorded hd := by rw [Recorded, hlog, htape, Tape.replay_cons, h.recorded hd]
  noted := by
    obtain ⟨calls, hcalls, hbytes, hqueries⟩ := h.noted
    refine ⟨c :: calls, by rw [hlog, hcalls]; rfl, ?_, fun c' hc' => ?_⟩
    · rw [← List.singleton_append, DeviceCall.takenBy_append, hbytes]
      simp [DeviceCall.takenBy, htaken]
    · exact (List.mem_cons.1 hc').elim (fun heq => heq ▸ hquery) (hqueries c')

theorem seek (h : Overwrote offset d bytes d') (position : Nat) :
    Overwrote offset d bytes (d'.seek position).2 := by
  obtain ⟨⟨fault, hlog, htape⟩, hcontent⟩ := d'.seek_effect position
  exact h.silent rfl rfl hlog htape hcontent

theorem flush (h : Overwrote offset d bytes d') : Overwrote offset d bytes d'.flush.2 := by
  obtain ⟨⟨fault, hlog⟩, htape⟩ := d'.flush_effect
  exact h.silent rfl rfl hlog htape (congrArg Tape.content htape)

/-- Writing everything at the offset puts a prefix of the data there, and all of it unless
an error is answered. -/
theorem writeAll (h : Overwrote offset d [] d') (hinside : offset ≤ d.content.length)
    (hposition : d'.position = offset) (data : List UInt8) :
    ∃ taken, taken <+: data ∧ Overwrote offset d taken (d'.writeAll data).2 ∧
      ((d'.writeAll data).1 = .ok () → taken = data) := by
  have hcontent : d'.content = d.content := by rw [h.content_eq, overwrite_nil hinside]
  obtain ⟨taken, hprefix, hwrote, hall⟩ :=
    wrote_writeAll (d := d') (by rw [hposition, hcontent]; exact hinside) data
  refine ⟨taken, hprefix, ⟨?_, fun hd => hwrote.recorded (h.recorded hd), ?_⟩, hall⟩
  · rw [hwrote.content_eq, hcontent, hposition]
  · obtain ⟨calls, hcalls, hnone, hqueries⟩ := h.noted
    obtain ⟨writes, hwrites, htaken, honly⟩ := hwrote.noted
    refine ⟨writes ++ calls, by rw [hwrites, hcalls, List.append_assoc], ?_, fun c hc => ?_⟩
    · rw [DeviceCall.takenBy_append, hnone, htaken, List.nil_append]
    · exact (List.mem_append.1 hc).elim (fun hc => DeviceCall.isQuery_of_isWrite (honly c hc))
        (hqueries c)

end Overwrote

/-! ## Bytes in order -/

/-- A device before any call, with nothing on it. -/
structure Blank (d : Device) : Prop where
  content_eq : d.content = []
  position_eq : d.position = 0
  log_eq : d.log = []

/-- A device that was only written to, in order, and now has the given bytes. -/
structure Holds (d : Device) (bytes : List UInt8) : Prop where
  recorded : d.Recorded
  onlyWrites : ∀ c ∈ d.log, c.isWrite = true
  content_eq : d.content = bytes

variable {d : Device} {bytes : List UInt8}

theorem Blank.holds (h : d.Blank) : d.Holds [] where
  recorded := by
    obtain ⟨⟨behind, skip, rest⟩, _⟩ := d
    obtain ⟨hcontent, hposition, hlog⟩ := h
    obtain ⟨hbehind, rfl⟩ := List.append_eq_nil_iff.1 hcontent
    obtain rfl := List.reverse_eq_nil_iff.1 hbehind
    obtain rfl : skip = 0 := by simpa [position, Tape.position] using hposition
    rw [Recorded, hlog]
    rfl
  onlyWrites := by simp [h.log_eq]
  content_eq := h.content_eq

theorem Holds.position_eq (h : d.Holds bytes) : d.position = bytes.length := by
  have hend := Tape.position_replay h.onlyWrites
  rw [← h.recorded] at hend
  rw [← h.content_eq]
  exact hend

/-- Writing everything puts bytes behind those that are there. -/
theorem Holds.writeAll (h : d.Holds bytes) (data : List UInt8) :
    ∃ taken, taken <+: data ∧ (d.writeAll data).2.Holds (bytes ++ taken) ∧
      ((d.writeAll data).1 = .ok () → taken = data) := by
  have hposition : d.position = d.content.length := by rw [h.position_eq, h.content_eq]
  obtain ⟨taken, hprefix, hwrote, hall⟩ := wrote_writeAll hposition.le data
  obtain ⟨calls, hlog, -, hwrites⟩ := hwrote.noted
  refine ⟨taken, hprefix, ⟨hwrote.recorded h.recorded, ?_, ?_⟩, hall⟩
  · intro c hc
    rw [hlog] at hc
    exact (List.mem_append.1 hc).elim (hwrites c) (h.onlyWrites c)
  · rw [hwrote.content_eq, hposition, overwrite_length, h.content_eq]

/-! ## Reliable devices -/

/-- A device that never fails: its write calls may be interrupted, and may take as few
bytes as one at a time. -/
structure Reliable (d : Device) : Prop where
  writeFaults : ∀ fault ∈ d.writeFaults,
    fault.2 = .interrupted ∨ ∃ count, fault.2 = .takesAtMost count ∧ 0 < count
  seekFaults : d.seekFaults = []
  flushFaults : d.flushFaults = []
  transfer : d.transfer ≠ some 0
  room : d.room = none

/-- The next fault of a reliable device, if any. -/
theorem Reliable.nextWriteFault (h : d.Reliable) :
    d.nextWriteFault = none ∨ d.nextWriteFault = some .interrupted ∨
      ∃ count, d.nextWriteFault = some (.takesAtMost count) ∧ 0 < count := by
  rcases hf : d.nextWriteFault with _ | fault
  · exact .inl rfl
  · obtain ⟨before, after, hfaults, -⟩ := List.lookup_eq_some_iff.1 hf
    rcases h.writeFaults (d.writes + 1, fault) (by simp [hfaults]) with rfl | ⟨count, rfl, hcount⟩
    · exact .inr (.inl rfl)
    · exact .inr (.inr ⟨count, rfl, hcount⟩)

/-- Taking bytes leaves a reliable device reliable. -/
theorem Reliable.take (h : d.Reliable) (data : List UInt8) (count : Nat) :
    ∃ d', d.countWrite.take data count = (.took count, d') ∧ d'.Reliable := by
  refine ⟨{ d.countWrite with
    tape := d.tape.write (data.take count)
    room := d.room.map (· - count) }, if_neg ?_, { h with room := ?_ }⟩
  · show ¬ d.room.any (· < count) = true
    simp [h.room]
  · rw [h.room]
    rfl

/-- A write call for any bytes takes some of them, or is to be repeated. -/
theorem Reliable.write (h : d.Reliable) {data : List UInt8} (hne : data ≠ []) :
    ∃ reply d', d.write data = (reply, d') ∧ d'.Reliable ∧
      (reply = .interrupted ∨ ∃ count, reply = .took (count + 1)) := by
  have hlength : 0 < data.length := List.length_pos_iff.2 hne
  have hlimit : 0 < d.callLimit data := by
    unfold callLimit
    rcases ht : d.transfer with _ | _ | most
    · simpa using hlength
    · exact absurd ht h.transfer
    · simp only [Option.getD_some]
      omega
  have htook : ∀ count, 0 < count → d.attempt data = d.countWrite.take data count →
      ∃ reply d', d.write data = (reply, d') ∧ d'.Reliable ∧
        (reply = .interrupted ∨ ∃ count, reply = .took (count + 1)) := by
    intro count hcount hattempt
    obtain ⟨d', htake, hd'⟩ := h.take data count
    refine ⟨.took count, d'.note (.write data (.took count)), ?_, ⟨hd'.1, hd'.2, hd'.3, hd'.4, hd'.5⟩,
      .inr ⟨count - 1, by rw [Nat.sub_add_cancel hcount]⟩⟩
    rw [Device.write, hattempt, htake]
  rcases h.nextWriteFault with hf | hf | ⟨count, hf, hcount⟩
  · exact htook _ hlimit (by rw [attempt, hf])
  · refine ⟨.interrupted, d.countWrite.note (.write data .interrupted), ?_,
      ⟨h.1, h.2, h.3, h.4, h.5⟩, .inl rfl⟩
    rw [Device.write, attempt, hf]
  · exact htook (min (d.callLimit data) count) (by omega) (by rw [attempt, hf])

/-- A reliable device tells its position. -/
theorem Reliable.tell (h : d.Reliable) :
    d.tell = (.ok d.position, d.countSeek.note (.tell none)) ∧
      (d.countSeek.note (.tell none)).Reliable := by
  have hnone : d.nextSeekFault = none := by simp [nextSeekFault, h.seekFaults]
  rw [tell_eq, hnone]
  exact ⟨rfl, ⟨h.1, h.2, h.3, h.4, h.5⟩⟩

/-- A reliable device moves where it is told to. -/
theorem Reliable.seek (h : d.Reliable) (position : Nat) :
    ∃ d', d.seek position = (.ok (), d') ∧ d'.Reliable := by
  have hnone : d.nextSeekFault = none := by simp [nextSeekFault, h.seekFaults]
  unfold Device.seek
  rw [hnone]
  exact ⟨_, rfl, ⟨h.1, h.2, h.3, h.4, h.5⟩⟩

/-- A reliable device is flushed. -/
theorem Reliable.flush (h : d.Reliable) : d.flush.1 = .ok () := by
  have hnone : d.nextFlushFault = none := by simp [nextFlushFault, h.flushFaults]
  unfold Device.flush
  rw [hnone]

/-- A reliable device takes everything. -/
theorem Reliable.writeAll (h : d.Reliable) (data : List UInt8) :
    (d.writeAll data).1 = .ok () ∧ (d.writeAll data).2.Reliable := by
  induction d, data using writeAll.induct with
  | case1 d =>
    rw [Device.writeAll, if_pos rfl]
    exact ⟨rfl, h⟩
  | case3 d data hne count d' hw ih =>
    obtain ⟨reply, d'', hw', hd', -⟩ := h.write hne
    obtain ⟨-, rfl⟩ := Prod.mk.inj (hw.symm.trans hw')
    rw [writeAll_eq d hne, hw]
    exact ih hd'
  | case4 d data hne d' hw ih =>
    obtain ⟨reply, d'', hw', hd', -⟩ := h.write hne
    obtain ⟨-, rfl⟩ := Prod.mk.inj (hw.symm.trans hw')
    rw [writeAll_eq d hne, hw]
    exact ih hd'
  | case2 d data hne d' hw | case5 d data hne cause d' hw =>
    -- Neither taking nothing nor failing is what a reliable device answers.
    exfalso
    obtain ⟨reply, d'', hw', -, hreply⟩ := h.write hne
    obtain ⟨rfl, -⟩ := Prod.mk.inj (hw.symm.trans hw')
    rcases hreply with hreply | ⟨count, hreply⟩ <;> cases hreply

end Device

end Peakfile
