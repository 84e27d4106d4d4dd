/-
# Diagnostic views

One-line views of drafts, destinations and extractions, as diagnostics show them.
-/
import Peakfile.Extraction

namespace Peakfile

namespace View

/-- A named record. -/
def record (name : String) (members : List (String × String)) : String :=
  name ++ " \x7b " ++ ", ".intercalate (members.map fun m => m.1 ++ ": " ++ m.2) ++ " \x7d"

/-- A value that may be missing. -/
def optional : Option String → String
  | none => "None"
  | some view => "Some(" ++ view ++ ")"

end View

/-- The view of a draft. -/
def Draft.view (d : Draft) : String :=
  View.record "WaveformWriter"
    [("enabled", toString d.device.isSome),
      ("header_written", toString d.headerWritten),
      ("blocks", toString d.windows),
      ("bytes_written", toString d.size)]

/-- The view of a destination. -/
def Destination.view : Destination → String
  | nowhere => "Discard"
  | file name => "File(" ++ Text.quoted name ++ ")"
  | device _ => "Stream(..)"

/-- The view of a depth. -/
def Depth.view : Depth → String
  | eight => "Eight"
  | sixteen => "Sixteen"

/-- The view of an anchor. -/
def Anchor.view : Anchor → String
  | extrema => "Extrema"
  | zero => "ZeroAnchored"

/-- The view of settings. -/
def Settings.view (s : Settings) : String :=
  View.record "WaveformConfig"
    [("window_secs", s.seconds.text .diagnostic),
      ("split_channels", toString s.split),
      ("bits", s.depth.view),
      ("output", View.optional (s.output.map Text.quoted)),
      ("reset_policy", s.anchor.view)]

/-- The view of a stage. -/
def Stage.view : Stage → String
  | unconfigured => "Unconfigured"
  | ready _ => "Ready"
  | finalized _ => "Finalized"
  | failed => "Failed"

/-- The view of an extraction. -/
def Extraction.view (x : Extraction) : String :=
  View.record "Pipeline"
    [("config", x.settings.view),
      ("state", x.stage.view),
      ("windows", toString x.windows)]

end Peakfile
