/-
# Making a peak file

The settings come from a file and from the command line, which has the last word.
The input is opened before the output is touched.
-/
import Peakfile.Command.Access
import Peakfile.Command.Arguments
import Peakfile.Command.Failure
import Peakfile.Settings.File

namespace Peakfile

namespace Command

/-! ## Settings -/

/-- Settings with the wishes of a command line over them. -/
def Wishes.over (w : Wishes) (s : Settings) : Except Error Settings :=
  let depth : Except Error Depth := match w.bits with
    | none => .ok s.depth
    | some bits =>
      match Depth.ofBits? bits with
      | some depth => .ok depth
      | none => .error (.depth bits)
  match depth with
  | .error cause => .error cause
  | .ok depth =>
    let wished : Settings :=
      { seconds := w.seconds.getD s.seconds
        split := s.split || w.split
        depth
        output := w.output <|> s.output
        anchor := if w.zeroAnchored then .zero else s.anchor }
    wished.check.map fun _ => wished

variable {m : Type → Type} [Monad m]

/-- The settings to start from: those of the settings file, or the standard. -/
def baseSettings (files : FileAccess m) (w : Wishes) : m (Except Failure Settings) :=
  match w.settings with
  | none => pure (.ok .standard)
  | some name => do
    match Settings.ofReading (← files.read name) with
    | .error cause => return .error ⟨some s!"Failed to load config {name}", .extraction cause⟩
    | .ok settings => return .ok settings

/-! ## Input and output -/

/-- Whether the input is standard input. -/
def Wishes.fromStandardInput (w : Wishes) : Bool := w.input = "-"

/-- Open the input. -/
def openInput (files : FileAccess m) (w : Wishes) : m (Except Failure Unit) :=
  if w.fromStandardInput then pure (.ok ())
  else do
    match ← files.probe w.input with
    | .error cause => return .error ⟨some s!"Failed to open input {w.input}", .storage cause⟩
    | .ok () => return .ok ()

/-- The input as a source of bytes.  Input that cannot be read is a source that
refuses. -/
def source (files : FileAccess m) (w : Wishes) : m Source :=
  if w.fromStandardInput then do return { data := ← files.standardInput }
  else do
    match ← files.read w.input with
    | .ok data => return { data }
    | .error cause => return { data := [], script := [.fails cause] }

/-- Configure an extraction, and make its file on the way.  `granted` is what the system says
to the request for the bounds of the channels.  A file that was made takes all that is written
to it. -/
def configure (files : FileAccess m) (x : Extraction) (l : Layout) (granted : Bool := true) :
    m (Except Failure Unit × Extraction) := do
  let created ← match x.fileToCreate l granted with
    | none => pure (.ok ())
    | some name => files.create name
  match x.configure l granted (created.map fun _ => {}) with
  | (.ok (), x) => return (.ok (), x)
  | (.error cause, x) =>
    return (.error ⟨some "Failed to set up waveform output", .extraction cause⟩, x)

/-- Fill the file that an extraction has made, if any. -/
def close (files : FileAccess m) (x : Extraction) : m Unit :=
  match x.fileContent with
  | none => pure ()
  | some (name, content) => files.fill name content

/-! ## The whole work -/

/-- The line printed at the end. -/
def summaryLine (s : Summary) (rate : UInt32) (output : Option String) : String :=
  let seconds : Double := Binary.ofNat _ s.frames / Binary.ofNat _ rate.toNat
  let extent := s!"{s.windows} data points ({seconds.fixed 2}s of audio)"
  match output with
  | some name => s!"Wrote {extent} to {name}\n"
  | none => s!"Computed {extent}, no output file\n"

/-- Feed an extraction with all input and finish it. -/
def extract (x : Extraction) (framer : Framer) (s : Source) :
    Except Failure Summary × Extraction :=
  match x.feed framer s with
  | (.error cause, x) => (.error (.plain (.ofFeed cause)), x)
  | (.ok (), x) =>
    match x.finalize with
    | (.error cause, x) => (.error (.plain (.extraction cause)), x)
    | (.ok summary, x) => (.ok summary, x)

/-- Read the input in blocks and turn it into peaks.  `memory` is what the system says to
requests. -/
def readAndExtract (files : FileAccess m) (memory : Request → Bool) (channels : Nat) (w : Wishes)
    (x : Extraction) : m (Except Failure Summary × Extraction) :=
  match Framer.new channels w.blockFrames memory with
  | .error cause => pure (.error (.plain (.input cause)), x)
  | .ok framer => do return extract x framer (← source files w)

/-- Make a peak file with the given settings. -/
def generateWith (files : FileAccess m) (memory : Request → Bool) (rate : UInt32) (channels : Nat)
    (w : Wishes) (settings : Settings) : m (Except Failure String) := do
  match ← openInput files w with
  | .error failure => return .error failure
  | .ok () =>
    match ← configure files (.new settings false) ⟨channels, rate⟩ (memory (.bounds channels)) with
    | (.error failure, _) => return .error failure
    | (.ok (), x) =>
      let (result, x) ← readAndExtract files memory channels w x
      close files x
      return result.map fun summary => summaryLine summary rate settings.output

/-- Make a peak file.  The answer is what is printed. -/
def generate (files : FileAccess m) (memory : Request → Bool) (rate : UInt32) (channels : Nat)
    (w : Wishes) : m (Except Failure String) := do
  match ← baseSettings files w with
  | .error failure => return .error failure
  | .ok base =>
    match w.over base with
    | .error cause => return .error (.plain (.extraction cause))
    | .ok settings => generateWith files memory rate channels w settings

end Command

end Peakfile
