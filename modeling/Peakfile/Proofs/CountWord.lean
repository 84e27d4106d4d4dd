/-
# The count of an unfinished file

A header counts no windows until the count is put in its place, which is the last thing
that happens to a file.  A file can therefore show a count only once its device took bytes
of it: those bytes stand in front, and zeros behind them (`Header.countBytes_overwrite`).
Moving back and flushing come after that and may fail, and so may a later byte of the
count.  Then the file shows a count although it was never finished
(`Extraction.count_of_failed_flush`).
-/
import Peakfile.Proofs.Runs

namespace Peakfile

/-! ## The bytes of the count -/

namespace Header

/-- The bytes that stand where a header has its count, as far as there are any. -/
def countBytes (content : List UInt8) : List UInt8 := (content.drop countOffset).take 4

/-- A header shows its own count. -/
theorem countBytes_encode (h : Header) (payload : List UInt8) :
    countBytes (h.encode ++ payload) = LittleEndian.encode 4 h.windows.toNat := by
  have hoffset : countOffset = ([h.version, h.flags, h.sampleRate.toNat,
      h.windowFrames.toNat].flatMap (LittleEndian.encode 4)).length := by
    simp [countOffset]
  rw [countBytes, encode_eq, List.append_assoc, List.append_assoc, hoffset, List.drop_left,
    List.take_left' (LittleEndian.length_encode 4 _)]

/-- Bytes in front of others show no more of the count than these do. -/
theorem countBytes_mono {part content : List UInt8} (h : part <+: content) :
    countBytes part <+: countBytes content :=
  (h.drop countOffset).take 4

/-- A count that was overwritten in part shows the new bytes in front of the old ones. -/
theorem countBytes_overwrite {content taken : List UInt8} (h : countOffset ≤ content.length)
    (htaken : taken.length ≤ 4) :
    countBytes (overwrite content countOffset taken) =
      taken ++ (countBytes content).drop taken.length := by
  have hfront : (content.take countOffset).length = countOffset := by
    rw [List.length_take]
    omega
  have hzeros : countOffset - content.length = 0 := Nat.sub_eq_zero_of_le h
  rw [countBytes, overwrite, hzeros, List.replicate_zero, List.append_nil, List.append_assoc,
    List.drop_left' hfront, List.take_append, List.take_of_length_le htaken, countBytes,
    List.drop_take, List.drop_drop]

end Header

/-- Without windows, all bytes of the count that there are to be are zeros. -/
theorem Intake.countBytes_content (s : Settings) (i : Intake) :
    ∀ b ∈ Header.countBytes (i.content s), b = 0 := by
  intro b hb
  rw [content] at hb
  split at hb
  · simp [Header.countBytes] at hb
  · split at hb
    · simp [Header.countBytes] at hb
    · rw [Settings.content, Header.countBytes_encode] at hb
      have hzeros : LittleEndian.encode 4 (UInt32.ofNat 0).toNat = List.replicate 4 0 := rfl
      rw [hzeros] at hb
      exact List.eq_of_mem_replicate hb

/-! ## Bytes taken for the count -/

namespace Device

/-- The bytes that a device took since it was last asked for its position, and none if it
never was. -/
def takenSinceQuery (d : Device) : List UInt8 :=
  if d.log.any DeviceCall.isQuery then
    DeviceCall.takenBy (d.log.takeWhile fun c => !c.isQuery)
  else []

/-- A device that was only written to was never asked. -/
theorem takenSinceQuery_of_onlyWrites {d : Device} (h : ∀ c ∈ d.log, c.isWrite = true) :
    d.takenSinceQuery = [] := by
  have hnone : ¬ d.log.any DeviceCall.isQuery = true := by
    intro hany
    obtain ⟨c, hc, hquery⟩ := List.any_eq_true.1 hany
    rw [DeviceCall.isQuery_of_isWrite (h c hc)] at hquery
    cases hquery
  rw [takenSinceQuery, if_neg hnone]

/-- What a device took since it was asked is what the calls after the query took. -/
theorem takenSinceQuery_of_log {d : Device} {calls earlier : List DeviceCall}
    {fault : Option StorageError} (hlog : d.log = calls ++ .tell fault :: earlier)
    (h : ∀ c ∈ calls, c.isQuery = false) : d.takenSinceQuery = DeviceCall.takenBy calls := by
  have hany : d.log.any DeviceCall.isQuery = true := by
    rw [List.any_eq_true, hlog]
    exact ⟨.tell fault, by simp, rfl⟩
  have hcalls : ∀ c ∈ calls, (!c.isQuery) = true := by
    intro c hc
    rw [h c hc]
    rfl
  rw [takenSinceQuery, if_pos hany, hlog, List.takeWhile_append_of_pos hcalls,
    List.takeWhile_cons_of_neg (by simp [DeviceCall.isQuery]), List.append_nil]

end Device

namespace Extraction

variable {s : Settings} {i : Intake} {x : Extraction}

/-- The device has a prefix of what it should have and was never asked for its position, or
it has all of that, with the bytes of the count that it took since it was asked. -/
theorem Tracks.content (h : Tracks s i x) :
    ∃ device, x.outlet.draft.device = some device ∧
      (device.content <+: i.content s ∧ device.takenSinceQuery = [] ∨
        i.ended = true ∧ device.takenSinceQuery <+: LittleEndian.encode 4 x.outlet.draft.windows ∧
          Header.countOffset ≤ (i.content s).length ∧ device.content =
            overwrite (i.content s) Header.countOffset device.takenSinceQuery) := by
  rcases h.short_or_patched with ⟨d, part, hd, hpart, hholds⟩ |
    ⟨hended, d, written, fault, calls, hd, -, hlog, -, -, hqueries, hprefix, hlength, hcontent⟩
  · refine ⟨d, hd, .inl ⟨?_, Device.takenSinceQuery_of_onlyWrites hholds.onlyWrites⟩⟩
    rw [hholds.content_eq]
    exact hpart
  · have htaken := Device.takenSinceQuery_of_log hlog hqueries
    refine ⟨d, hd, .inr ⟨hended, ?_, hlength, ?_⟩⟩
    · rw [htaken]
      exact hprefix
    · rw [htaken]
      exact hcontent

/-- **The count of an unfinished file.**  After any calls to an extraction towards a blank
device that may fail at any call made to it:

* the bytes of the count, as far as there are any, are zeros exactly if the device took
  nothing but zeros since it was asked for its position;
* what it took since then is the front of the count of windows;
* it was asked only by a call that finalizes, so that no count shows before. -/
theorem countBytes_eq_zero_iff (s : Settings) {d : Device} (hd : d.Blank) (listening : Bool)
    (calls : List Call) :
    let x := toward s (.device d) listening
    let now := x.after calls
    ∃ device, now.outlet.draft.device = some device ∧
      ((∀ b ∈ Header.countBytes device.content, b = 0) ↔ ∀ b ∈ device.takenSinceQuery, b = 0) ∧
      device.takenSinceQuery <+: LittleEndian.encode 4 now.outlet.draft.windows ∧
      (device.takenSinceQuery ≠ [] → (x.intake calls).ended = true) := by
  intro x now
  have hx : x.Sound := sound_toward s (.device d) listening
  have htracks : Tracks s (x.intake calls) now := by
    refine Tracks.after hx ?_ calls
    exact ⟨rfl, d, listening, hd, rfl⟩
  have hzeros := (x.intake calls).countBytes_content s
  obtain ⟨device, hdevice, ⟨hfront, hnone⟩ | ⟨hended, htaken, hoffset, hcontent⟩⟩ :=
    htracks.content
  · -- Nothing was taken since the query, and what is there shows no count.
    refine ⟨device, hdevice, ?_, ?_, fun hne => absurd hnone hne⟩
    · rw [hnone]
      constructor
      · intro _ b hb
        cases hb
      · intro _ b hb
        exact hzeros b ((Header.countBytes_mono hfront).subset hb)
    · rw [hnone]
      exact List.nil_prefix
  · -- The bytes taken stand in front of zeros.
    refine ⟨device, hdevice, ?_, htaken, fun _ => hended⟩
    have hlength : device.takenSinceQuery.length ≤ 4 := by
      have hle := htaken.length_le
      rw [LittleEndian.length_encode] at hle
      exact hle
    rw [hcontent, Header.countBytes_overwrite hoffset hlength]
    constructor
    · intro h b hb
      exact h b (List.mem_append_left _ hb)
    · intro h b hb
      rcases List.mem_append.1 hb with hb | hb
      · exact h b hb
      · exact hzeros b (List.mem_of_mem_drop hb)

/-- One channel and a window of one frame, on a device that takes one byte of the count and
fails at the next.  The file was not finished, and shows the count. -/
theorem countBytes_eq_zero_iff_torn :
    let settings : Settings := ⟨Binary.ofNat _ 1, false, .eight, none, .extrema⟩
    let d : Device := { writeFaults := [(3, .takesAtMost 1), (4, .fails "gone")] }
    let half : Sample := .ofBits _ 0x3f000000
    let calls :=
      [Call.configure ⟨1, 1⟩ true (.error .noSpace), .push (.interleaved [half]), .finalize]
    let now := (toward settings (.device d) false).after calls
    now.state = .failed ∧ ∃ device, now.outlet.draft.device = some device ∧
      ¬ ∀ b ∈ Header.countBytes device.content, b = 0 := by
  intro settings d half calls
  have hfailed : ((toward settings (.device d) false).after calls).state = .failed := by
    decide +kernel
  have htaken : ((toward settings (.device d) false).after calls).outlet.draft.device.map
      Device.takenSinceQuery = some [1] := by
    decide +kernel
  obtain ⟨device, hdevice, hiff, -⟩ :=
    countBytes_eq_zero_iff settings (d := d) ⟨rfl, rfl, rfl⟩ false calls
  have hone : device.takenSinceQuery = [1] := by
    rw [hdevice] at htaken
    exact Option.some.inj htaken
  refine ⟨hfailed, device, hdevice, fun hzero => ?_⟩
  have h := hiff.1 hzero
  rw [hone] at h
  exact absurd (h 1 (by simp)) (by decide)

/-- One channel and two windows of one frame, on a device that fails when it is flushed.
Finalizing fails and the extraction with it, but the header of the file counts the windows,
and the file looks finished. -/
theorem count_of_failed_flush :
    let settings : Settings := ⟨Binary.ofNat _ 1, false, .eight, none, .extrema⟩
    let d : Device := { flushFaults := [(1, "gone")] }
    let half : Sample := .ofBits _ 0x3f000000
    let x := (toward settings (.device d) false).after
      [.configure ⟨1, 1⟩ true (.error .noSpace), .push (.interleaved [half, half])]
    (x.call .finalize).1 = .error (.device (.other "gone")) ∧
      (x.call .finalize).2.state = .failed ∧
      (x.call .finalize).2.outlet.draft.device.map (Header.countBytes ·.content) =
        some [2, 0, 0, 0] := by
  decide +kernel

end Extraction

end Peakfile
