/-
# Running commands
-/
import Peakfile.Command.Generate
import Peakfile.Report

namespace Peakfile

namespace Command

/-! ## Versions and help -/

/-- The version of the program. -/
def programVersion : String := "0.1.0"

/-- The day on which the program was built. -/
def buildDate : String := "2023-11-14"

/-- The line that names the version. -/
def versionLine : String := s!"waveformdata {programVersion} (built {buildDate})\n"

/-- The text of the help. -/
def helpText : String :=
  "Generate peaks.js compatible binary waveform data from raw audio streams\n\n" ++
  "Usage: waveformdata [OPTIONS] [COMMAND]\n\n" ++
  "Commands:\n" ++
  "  generate  Generate a waveform data file from raw f32le audio\n" ++
  "  inspect   Print the header of a waveform data file\n" ++
  "  help      Print this message\n\n" ++
  "Options:\n" ++
  "  -V, --version  Show version and build date\n" ++
  "  -h, --help     Print help\n"

/-- The text for a command line that makes no sense. -/
def misuseText : String :=
  "error: invalid command line\n\nFor more information, try '--help'.\n"

variable {m : Type → Type} [Monad m]

/-! ## Looking at a peak file -/

/-- The report on a peak file. -/
def inspect (files : FileAccess m) (name : String) : m (Except Failure Report) := do
  match ← files.probe name with
  | .error cause => return .error ⟨some s!"Failed to open {name}", .storage cause⟩
  | .ok () =>
    let report : Except Error Report := match ← files.read name with
      | .error cause => .error (.device cause)
      | .ok bytes => Report.ofBytes bytes
    match report with
    | .error cause =>
      return .error ⟨some s!"Failed to parse header of {name}", .extraction cause⟩
    | .ok report => return .ok report

/-- What is printed of a report. -/
def printed (report : Report) (name : String) (json : Bool) : String :=
  if json then Json.writeLines report.members ++ "\n" else report.describe name

/-! ## All commands -/

/-- What a run of the program leaves behind, files apart. -/
structure Outcome where
  code : Nat
  out : String
  err : String
  deriving DecidableEq

namespace Outcome

/-- The outcome of a command that printed something or failed. -/
def ofResult : Except Failure String → Outcome
  | .ok text => ⟨0, text, ""⟩
  | .error failure => ⟨1, "", failure.report ++ "\n"⟩

end Outcome

/-- Run a command line.  `memory` is what the system says to requests for memory. -/
def run (files : FileAccess m) (arguments : List String)
    (memory : Request → Bool := Request.isAddressable) : m Outcome :=
  match read arguments with
  | .error .help => pure ⟨0, helpText, ""⟩
  | .error .misuse => pure ⟨2, "", misuseText⟩
  | .ok .version => pure ⟨0, versionLine, ""⟩
  | .ok (.generate rate channels wishes) => do
    return .ofResult (← generate files memory rate channels wishes)
  | .ok (.inspect name json) => do
    return .ofResult ((← inspect files name).map fun report => printed report name json)

end Command

end Peakfile
