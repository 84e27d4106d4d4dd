/-
# Extraction

An extraction turns one audio stream into one peak file.  It is configured once the
layout of the stream is known, fed with sample buffers, and finalized.  A failure of
the device, or more windows than a header can count, ends it for good; a refused
layout or buffer, and a call out of turn, change nothing.
-/
import Peakfile.Settings
import Peakfile.Windower
import Peakfile.Draft

namespace Peakfile

/-! ## Points of a window -/

namespace Settings

/-- The mean of samples: their sum from zero in order, each partial sum rounded,
divided by their number. -/
def mean (samples : List Sample) : Sample :=
  samples.foldl (· + ·) (Binary.zero false) / Binary.ofNat _ samples.length

/-- The points of a finished window: one for each channel, or the one between the
means of the channels' bounds. -/
def encodeWindow (s : Settings) (channels : List Extrema) : List UInt8 :=
  let peaks := channels.map Extrema.peaks
  if s.split then peaks.flatMap fun peak => s.depth.encodePoint peak.1 peak.2
  else s.depth.encodePoint (mean (peaks.map Prod.fst)) (mean (peaks.map Prod.snd))

/-- The header for a layout, before any window. -/
def header (s : Settings) (l : Layout) (windowFrames : Nat) : Header where
  depth := s.depth
  sampleRate := l.rate
  windowFrames := UInt32.ofNat windowFrames
  windows := 0
  channels := if s.split then some (UInt32.ofNat l.channels) else none

end Settings

/-! ## What leaves an extraction -/

/-- A finished window as a listener sees it. -/
structure Observation where
  index : Nat
  extrema : List Extrema
  deriving DecidableEq

/-- What has left an extraction: the draft of the file, and what the listener saw. -/
structure Outlet where
  draft : Draft
  /-- The windows reported to the listener, if there is one. -/
  observed : Option (Array Observation)
  deriving DecidableEq

namespace Outlet

/-- Tell the listener of a window. -/
def report (o : Outlet) (channels : List Extrema) : Outlet :=
  { o with observed := o.observed.map (·.push ⟨o.draft.windows, channels⟩) }

/-- Receive a finished window: report it, then write its points. -/
def receive (s : Settings) : Receiver Outlet := fun channels o =>
  let (result, draft) := o.draft.appendWindow (s.encodeWindow channels)
  (result, { o.report channels with draft })

end Outlet

/-! ## Extractions -/

/-- Where a peak file goes. -/
inductive Destination where
  | nowhere
  | file (name : String)
  | device (device : Device)
  deriving DecidableEq

/-- The totals of a finished extraction. -/
structure Summary where
  windows : Nat
  frames : Nat
  /-- Bytes of the file, zero without one. -/
  size : Nat
  /-- Whether the last window was not a full one. -/
  partialWindow : Bool
  deriving DecidableEq

/-- Where an extraction stands. -/
inductive Stage where
  | unconfigured
  | ready (windower : Windower)
  | finalized (summary : Summary)
  | failed

/-- The state that a stage is in. -/
def Stage.state : Stage → CallState
  | unconfigured => .unconfigured
  | ready _ => .ready
  | finalized _ => .finalized
  | failed => .failed

/-- A buffer of samples. -/
inductive SampleBuffer where
  /-- One run of samples per channel, of which the first `frames` count. -/
  | planar (planes : List (List Sample)) (frames : Nat)
  /-- Frames back to back. -/
  | interleaved (samples : List Sample)
  deriving DecidableEq

/-- The extraction of one stream. -/
structure Extraction where
  settings : Settings
  destination : Destination
  outlet : Outlet
  stage : Stage

namespace Extraction

/-- An extraction to a destination of its own. -/
def toward (settings : Settings) (destination : Destination) (listening : Bool) : Extraction where
  settings
  destination
  outlet :=
    { draft := match destination with
        | .device device => .onto device
        | _ => .discarding
      observed := if listening then some #[] else none }
  stage := .unconfigured

/-- An extraction to the file named in the settings, or nowhere. -/
def new (settings : Settings) (listening : Bool) : Extraction :=
  toward settings (settings.output.elim .nowhere .file) listening

/-- The state of an extraction. -/
def state (x : Extraction) : CallState := x.stage.state

/-- Windows written so far; none once an extraction has failed. -/
def windows (x : Extraction) : Nat :=
  match x.stage with
  | .ready _ => x.outlet.draft.windows
  | .finalized summary => summary.windows
  | _ => 0

/-- The length of a window in frames, while frames are accepted. -/
def windowFrames? (x : Extraction) : Option Nat :=
  match x.stage with
  | .ready windower => some windower.window
  | _ => none

/-! ## Configuring -/

/-- The opening of an extraction: its first window and the header of its file.  `granted` is
what the system says to the request for the bounds of the channels. -/
def opening (x : Extraction) (l : Layout) (granted : Bool) : Except Error (Windower × Header) :=
  match l.check with
  | .error cause => .error cause
  | .ok () =>
    match h : x.settings.windowFrames l.rate with
    | .error cause => .error cause
    | .ok frames =>
      match ChannelExtrema.allocate l.channels x.settings.anchor granted with
      | .error cause => .error cause
      | .ok current =>
        .ok (.start current frames (Settings.windowFrames_bounds h).1,
          x.settings.header l frames)

/-- The file that configuring would create. -/
def fileToCreate (x : Extraction) (l : Layout) (granted : Bool) : Option String :=
  match x.stage, x.destination, x.opening l granted with
  | .unconfigured, .file name, .ok _ => some name
  | _, _, _ => none

/-- Fix the layout of the stream and write the header.  `granted` says whether memory for the
channels is to be had, and `created` how creating the file went, where there is a file to
create: it is refused, or a device to write to. -/
def configure (x : Extraction) (l : Layout) (granted : Bool)
    (created : Except StorageError Device) : Except Error Unit × Extraction :=
  match x.stage with
  | .unconfigured =>
    match x.opening l granted with
    | .error cause => (.error cause, x)
    | .ok (windower, header) =>
      let draft : Except Error Draft := match x.destination, created with
        | .file _, .error cause => .error (.device cause)
        | .file _, .ok device => .ok (.onto device)
        | _, _ => .ok x.outlet.draft
      match draft with
      | .error cause => (.error cause, { x with stage := .failed })
      | .ok draft =>
        match draft.writeHeader header with
        | (.ok (), draft) =>
          (.ok (), { x with outlet := { x.outlet with draft }, stage := .ready windower })
        | (.error cause, draft) =>
          (.error cause, { x with outlet := { x.outlet with draft }, stage := .failed })
  | stage => (.error (.wrongState stage.state), x)

/-! ## Feeding -/

/-- Let a windower consume a buffer. -/
def consume (s : Settings) (w : Windower) (buffer : SampleBuffer) (o : Outlet) :
    Except Error Unit × Windower × Outlet :=
  match buffer with
  | .planar planes frames => w.consumePlanar (Outlet.receive s) planes frames o
  | .interleaved samples => w.consumeInterleaved (Outlet.receive s) samples o

/-- Consume a buffer.  A refused buffer changes nothing; any other failure is the
end. -/
def push (x : Extraction) (buffer : SampleBuffer) : Except Error Unit × Extraction :=
  match x.stage with
  | .ready windower =>
    match consume x.settings windower buffer x.outlet with
    | (.ok (), windower, outlet) => (.ok (), { x with outlet, stage := .ready windower })
    | (.error (.buffer fault), windower, outlet) =>
      (.error (.buffer fault), { x with outlet, stage := .ready windower })
    | (.error cause, _, outlet) => (.error cause, { x with outlet, stage := .failed })
  | stage => (.error (.wrongState stage.state), x)

/-! ## Finalizing -/

/-- Close the last window, put the count into the header, and report the totals. -/
def finalize (x : Extraction) : Except Error Summary × Extraction :=
  match x.stage with
  | .ready windower =>
    match windower.flush (Outlet.receive x.settings) x.outlet with
    | (.error cause, _, outlet) => (.error cause, { x with outlet, stage := .failed })
    | (.ok partialWindow, windower, outlet) =>
      match outlet.draft.finish with
      | (.error cause, draft) =>
        (.error cause, { x with outlet := { outlet with draft }, stage := .failed })
      | (.ok size, draft) =>
        let summary : Summary :=
          { windows := outlet.draft.windows, frames := windower.frames, size, partialWindow }
        (.ok summary, { x with outlet := { outlet with draft }, stage := .finalized summary })
  | stage => (.error (.wrongState stage.state), x)

/-- The bytes that the extraction's file holds once the extraction is dropped, if a
file was created. -/
def fileContent (x : Extraction) : Option (String × List UInt8) :=
  match x.destination, x.outlet.draft.device with
  | .file name, some device => some (name, device.content)
  | _, _ => none

end Extraction

end Peakfile
