/-
# Reports on peak files

A report compares what the header of a peak file promises with what the file holds.
-/
import Peakfile.Header
import Peakfile.Json.Record
import Peakfile.Binary.Arithmetic

namespace Peakfile

/-- What is known of a peak file. -/
structure Report where
  header : Header
  /-- Bytes after the header. -/
  held : Nat
  deriving DecidableEq

namespace Report

/-- Whether the file holds exactly the promised points. -/
def isComplete (r : Report) : Bool := r.held = r.header.payloadSize

/-- The time that the windows cover, in seconds; none without a rate.  Each of the
two operations is rounded. -/
def seconds (r : Report) : Double :=
  if r.header.sampleRate = 0 then Binary.zero false
  else
    Binary.ofNat _ r.header.windows.toNat * Binary.ofNat _ r.header.windowFrames.toNat /
      Binary.ofNat _ r.header.sampleRate.toNat

/-- The report on a file with the given bytes. -/
def ofBytes (bytes : List UInt8) : Except Error Report :=
  match Header.decode bytes with
  | .error cause => .error cause
  | .ok (header, _) => .ok ⟨header, bytes.length - header.size⟩

/-! ## The text of a report -/

/-- The members of a report. -/
def members (r : Report) : List (String × Json.Scalar) :=
  [("version", .whole r.header.version),
    ("bits", .whole r.header.depth.bits),
    ("sample_rate", .whole r.header.sampleRate.toNat),
    ("samples_per_pixel", .whole r.header.windowFrames.toNat),
    ("data_points", .whole r.header.windows.toNat),
    ("channels", .whole r.header.pointsPerWindow),
    ("data_bytes", .whole r.held),
    ("expected_data_bytes", .whole r.header.payloadSize),
    ("duration_secs", .number r.seconds),
    ("complete", .boolean r.isComplete)]

/-- A line of the report for people: a label and what it says, in two columns. -/
def line (label value : String) : String :=
  label ++ String.ofList (List.replicate (19 - label.length) ' ') ++ value ++ "\n"

/-- The report for people. -/
def describe (r : Report) (name : String) : String :=
  let h := r.header
  line "File:" name ++
  line "Version:" (toString h.version) ++
  line "Bits:" (toString h.depth.bits) ++
  line "Sample rate:" s!"{h.sampleRate.toNat} Hz" ++
  line "Samples per pixel:" (toString h.windowFrames.toNat) ++
  line "Data points:" (toString h.windows.toNat) ++
  line "Channels:" (toString h.pointsPerWindow) ++
  line "Duration:" (r.seconds.fixed 2 ++ "s") ++
  line "Payload:" (s!"{r.held} / {h.payloadSize} bytes" ++
    if r.isComplete then "" else " (INCOMPLETE)")

end Report

end Peakfile
