/-
# Which files are complete

A header tells how many bytes come behind it, and it is the same header however many do
(`Header.decode_append`).  Of the files that begin with the bytes of one header only those of
one size are complete.  So bytes cut off a complete file, or added to it, are noticed: what is
left has no header, or one that promises another size (`Command.inspect_detects_size`).
-/
import Peakfile.Proofs.ReadingBack

namespace Peakfile

/-! ## Headers in front of more or fewer bytes -/

namespace Header

variable {header : Header} {bytes other payload : List UInt8}

/-- More bytes behind a header are more bytes behind it, and nothing else. -/
theorem decode_append (h : decode bytes = .ok (header, payload)) (more : List UInt8) :
    decode (bytes ++ more) = .ok (header, payload ++ more) := by
  obtain ⟨hchannels, rfl⟩ := eq_encode_of_decode h
  rw [List.append_assoc]
  exact decode_encode_append hchannels _

/-- The bytes that a header was read from are no fewer than it takes. -/
theorem length_of_decode (h : decode bytes = .ok (header, payload)) :
    bytes.length = header.size + payload.length := by
  obtain ⟨-, rfl⟩ := eq_encode_of_decode h
  rw [List.length_append, length_encode]

/-- A header is read from the front of some bytes unless this is cut inside the header. -/
theorem decode_of_prefix (h : decode bytes = .ok (header, payload)) (hfront : other <+: bytes) :
    (other.length < header.size ∧ ∃ e, decode other = .error e) ∨
      (header.size ≤ other.length ∧ ∃ rest, decode other = .ok (header, rest)) := by
  obtain ⟨more, rfl⟩ := hfront
  rcases hother : decode other with e | ⟨header', rest⟩
  · left
    refine ⟨?_, e, rfl⟩
    by_contra hlong
    -- Otherwise the header stands in the front, from where it is read.
    obtain ⟨hchannels, hbytes⟩ := eq_encode_of_decode h
    have hfront : header.encode <+: other := by
      refine List.prefix_of_prefix_length_le (hbytes ▸ List.prefix_append _ _)
        (List.prefix_append other more) ?_
      rw [length_encode]
      exact Nat.not_lt.1 hlong
    obtain ⟨rest, rfl⟩ := hfront
    rw [decode_encode_append hchannels rest] at hother
    cases hother
  · right
    obtain ⟨rfl, -⟩ := Prod.mk.inj (Except.ok.inj ((decode_append hother more).symm.trans h))
    have hlength := length_of_decode hother
    exact ⟨by omega, rest, rfl⟩

end Header

/-! ## Reports -/

namespace Report

variable {bytes other : List UInt8} {r r' : Report}

/-- A report is on a header and on the bytes behind it. -/
theorem ofBytes_eq_ok_iff :
    ofBytes bytes = .ok r ↔
      ∃ payload, Header.decode bytes = .ok (r.header, payload) ∧ r.held = payload.length := by
  constructor
  · intro h
    rcases hread : Header.decode bytes with e | ⟨header, payload⟩
    · rw [ofBytes, hread] at h
      cases h
    · rw [ofBytes_of_decode hread] at h
      obtain rfl := Except.ok.inj h
      exact ⟨payload, rfl, rfl⟩
  · rintro ⟨payload, hread, hheld⟩
    rw [ofBytes_of_decode hread, ← hheld]

/-- There is no report on bytes that are not read, for the same reason. -/
theorem ofBytes_eq_error_iff {e : Error} :
    ofBytes bytes = .error e ↔ Header.decode bytes = .error e := by
  rcases hread : Header.decode bytes with e' | ⟨header, payload⟩
  · rw [ofBytes, hread]
    simp only [Except.error.injEq]
  · rw [ofBytes_of_decode hread]
    simp only [reduceCtorEq]

/-- Nothing is left out between the header and the bytes that a report counts. -/
theorem length_of_ofBytes (h : ofBytes bytes = .ok r) :
    bytes.length = r.header.size + r.held := by
  obtain ⟨payload, hread, hheld⟩ := ofBytes_eq_ok_iff.1 h
  rw [Header.length_of_decode hread, hheld]

/-- **Complete files have one size**: that which the header promises. -/
theorem isComplete_iff (h : ofBytes bytes = .ok r) :
    r.isComplete = true ↔ bytes.length = r.header.size + r.header.payloadSize := by
  rw [isComplete, decide_eq_true_eq, length_of_ofBytes h, Nat.add_left_cancel_iff]

/-- It is the size of all points, where a word of 64 bits can tell it. -/
theorem isComplete_iff_of_lt (h : ofBytes bytes = .ok r)
    (hlt : r.header.windows.toNat * r.header.windowSize < UInt64.size) :
    r.isComplete = true ↔
      bytes.length = r.header.size +
        r.header.windows.toNat * r.header.pointsPerWindow * 2 * r.header.depth.bytes := by
  have hpromised : r.header.payloadSize =
      r.header.windows.toNat * r.header.pointsPerWindow * 2 * r.header.depth.bytes := by
    rw [Header.payloadSize_of_lt hlt, Header.windowSize_eq_mul, Depth.pointSize]
    ring
  rw [isComplete_iff h, hpromised]

/-- Bytes that go on from others have the same header, and as many bytes more behind it. -/
theorem ofBytes_append (h : ofBytes bytes = .ok r) (more : List UInt8) :
    ofBytes (bytes ++ more) = .ok { r with held := r.held + more.length } := by
  obtain ⟨payload, hread, hheld⟩ := ofBytes_eq_ok_iff.1 h
  refine ofBytes_eq_ok_iff.2 ⟨payload ++ more, Header.decode_append hread more, ?_⟩
  rw [List.length_append, hheld]

/-- What is cut off, or added, shows in the report: there is none if the cut went through the
header, and otherwise it is on the same header with another number of bytes behind it. -/
theorem ofBytes_of_cut (h : ofBytes bytes = .ok r) (hne : other ≠ bytes)
    (hcut : other <+: bytes ∨ bytes <+: other) :
    (other.length < r.header.size ∧ ∃ e, ofBytes other = .error e) ∨
      ∃ r', ofBytes other = .ok r' ∧ r'.header = r.header ∧ r'.held ≠ r.held := by
  have hmore : ∀ {front whole : List UInt8}, front <+: whole → front ≠ whole →
      ∃ more, more ≠ [] ∧ front ++ more = whole := by
    rintro front whole ⟨more, rfl⟩ hne
    exact ⟨more, fun hnil => hne (by rw [hnil, List.append_nil]), rfl⟩
  rcases hcut with hfront | hfront
  · obtain ⟨payload, hread, -⟩ := ofBytes_eq_ok_iff.1 h
    rcases Header.decode_of_prefix hread hfront with ⟨hshort, e, he⟩ | ⟨-, rest, hrest⟩
    · exact .inl ⟨hshort, e, ofBytes_eq_error_iff.2 he⟩
    · obtain ⟨more, hnil, rfl⟩ := hmore hfront hne
      have hother := ofBytes_of_decode hrest
      have hwhole := ofBytes_append hother more
      rw [h] at hwhole
      have hpos := List.length_pos_iff.2 hnil
      refine .inr ⟨_, hother, rfl, ?_⟩
      rw [Except.ok.inj hwhole]
      show rest.length ≠ rest.length + more.length
      omega
  · obtain ⟨more, hnil, rfl⟩ := hmore hfront hne.symm
    have hpos := List.length_pos_iff.2 hnil
    refine .inr ⟨_, ofBytes_append h more, rfl, ?_⟩
    show r.held + more.length ≠ r.held
    omega

/-- Two reports on one header that count different numbers of bytes are not both of complete
files. -/
theorem isComplete_eq_false (hheader : r'.header = r.header) (hheld : r'.held ≠ r.held)
    (h : r.isComplete = true) : r'.isComplete = false := by
  rw [isComplete, decide_eq_true_eq] at h
  rw [isComplete, decide_eq_false_iff_not, hheader, ← h]
  exact hheld

end Report

/-! ## Inspecting files -/

namespace Command

variable {t : FileTree} {name : String} {bytes : List UInt8}

/-- Inspecting a file is answered by the report on its bytes. -/
theorem inspect_eq_ok_iff (h : t.contentOf name = .ok bytes) (input : List UInt8)
    {report : Report} :
    ((inspect (FileTree.access input) name).run t).1 = .ok report ↔
      Report.ofBytes bytes = .ok report := by
  rw [run_inspect h]
  rcases Report.ofBytes bytes with cause | found
  · exact ⟨nofun, nofun⟩
  · simp only [Except.ok.injEq]

/-- Inspecting a file fails for a header that is not read, and for nothing else. -/
theorem inspect_fails_iff (h : t.contentOf name = .ok bytes) (input : List UInt8) :
    (∃ failure, ((inspect (FileTree.access input) name).run t).1 = .error failure) ↔
      ∃ e, Header.decode bytes = .error e := by
  simp only [← Report.ofBytes_eq_error_iff, run_inspect h]
  rcases Report.ofBytes bytes with cause | report
  · exact ⟨fun _ => ⟨cause, rfl⟩, fun _ => ⟨_, rfl⟩⟩
  · exact ⟨nofun, nofun⟩

/-- **Every wrong size is noticed.**  Of a file that can be read, with any bytes in it:

* inspecting it fails exactly if its bytes are not read as a header and others behind it;
* otherwise the report counts the bytes that the header leaves, which are never fewer than
  none, and calls the file complete exactly if it has the size that the header promises, which
  is that of all points where a word of 64 bits can tell it;
* any file with bytes cut off or added has a header that is cut, or is reported with the same
  header and another count; it is not complete if the first one is. -/
theorem inspect_detects_size (h : t.contentOf name = .ok bytes) (input : List UInt8) :
    let look (t : FileTree) (name : String) := ((inspect (FileTree.access input) name).run t).1
    ((∃ failure, look t name = .error failure) ↔ ∃ e, Header.decode bytes = .error e) ∧
      (∀ header payload, Header.decode bytes = .ok (header, payload) →
        ∃ report, look t name = .ok report ∧ report.header = header ∧
          header.size ≤ bytes.length ∧ report.held = bytes.length - header.size ∧
          (report.isComplete = true ↔ bytes.length = header.size + header.payloadSize) ∧
          (header.windows.toNat * header.windowSize < UInt64.size →
            (report.isComplete = true ↔ bytes.length = header.size +
              header.windows.toNat * header.pointsPerWindow * 2 * header.depth.bytes))) ∧
      ∀ report, look t name = .ok report →
        ∀ (t' : FileTree) (name' : String) (other : List UInt8),
          t'.contentOf name' = .ok other → other ≠ bytes →
          (other <+: bytes ∨ bytes <+: other) →
            (other.length < report.header.size ∧ ∃ failure, look t' name' = .error failure) ∨
              ∃ report', look t' name' = .ok report' ∧ report'.header = report.header ∧
                report'.held ≠ report.held ∧
                (report.isComplete = true → report'.isComplete = false) := by
  intro look
  refine ⟨inspect_fails_iff h input, fun header payload hread => ?_,
    fun report hok t' name' other h' hne hcut => ?_⟩
  · have hreport := Report.ofBytes_of_decode hread
    have hlength := Header.length_of_decode hread
    refine ⟨_, (inspect_eq_ok_iff h input).2 hreport, rfl, by omega, ?_,
      Report.isComplete_iff hreport, Report.isComplete_iff_of_lt hreport⟩
    rw [hlength, Nat.add_sub_cancel_left]
  · have hreport := (inspect_eq_ok_iff h input).1 hok
    rcases Report.ofBytes_of_cut hreport hne hcut with
      ⟨hshort, e, he⟩ | ⟨report', hother, hheader, hheld⟩
    · have hread := Report.ofBytes_eq_error_iff.1 he
      exact .inl ⟨hshort, (inspect_fails_iff h' input).2 ⟨e, hread⟩⟩
    · exact .inr ⟨report', (inspect_eq_ok_iff h' input).2 hother, hheader, hheld,
        Report.isComplete_eq_false hheader hheld⟩

/-- A file of two windows with points for two channels is complete, and without its last byte
it is not. -/
theorem inspect_detects_size_truncated :
    let header : Header := ⟨.eight, 8000, 80, 2, some 2⟩
    let whole := header.encode ++ [0xff, 1, 0xfe, 2, 0xfd, 3, 0xfc, 4]
    let tree (bytes : List UInt8) := FileTree.empty.put ["a"] (.file bytes)
    let look (bytes : List UInt8) := ((inspect (FileTree.access []) "a").run (tree bytes)).1
    (∃ report, look whole = .ok report ∧ report.held = 8 ∧ report.isComplete = true) ∧
      ∃ report, look whole.dropLast = .ok report ∧ report.isComplete = false := by
  intro header whole tree look
  have hwhole : (tree whole).contentOf "a" = .ok whole := by decide +kernel
  have hpart : (tree whole.dropLast).contentOf "a" = .ok whole.dropLast := by decide +kernel
  have hread : Header.decode whole = .ok (header, [0xff, 1, 0xfe, 2, 0xfd, 3, 0xfc, 4]) := by
    decide +kernel
  obtain ⟨-, hreported, hcut⟩ := inspect_detects_size hwhole []
  obtain ⟨report, hok, hheader, -, hheld, -, hcomplete⟩ := hreported header _ hread
  have hsize := (hcomplete (by decide)).2 (by decide +kernel)
  refine ⟨⟨report, hok, hheld, hsize⟩, ?_⟩
  rcases hcut report hok (tree whole.dropLast) "a" whole.dropLast hpart (by decide +kernel)
      (.inl (List.dropLast_prefix whole)) with
    ⟨hshort, -⟩ | ⟨report', hok', -, -, hpartial⟩
  · rw [hheader] at hshort
    exact absurd hshort (by decide +kernel)
  · exact ⟨report', hok', hpartial hsize⟩

end Command

end Peakfile
