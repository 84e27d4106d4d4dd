/-
# What can go wrong

Failures are told apart by cause; the wording of each cause stands here once.
-/
import Peakfile.Decimal.Text
import Peakfile.Text.Escaped

namespace Peakfile

/-! ## Input and output -/

/-- Why a byte device or a file refused. -/
inductive StorageError where
  | noSuchFile
  | fileExists
  | notADirectory
  | isADirectory
  | nameTooLong
  | nulInName
  | invalidText
  | endedEarly
  | tookNothing
  | noSpace
  | other (reason : String)
  deriving DecidableEq

/-- The wording of an input or output failure. -/
def StorageError.message : StorageError → String
  | noSuchFile => "No such file or directory (os error 2)"
  | fileExists => "File exists (os error 17)"
  | notADirectory => "Not a directory (os error 20)"
  | isADirectory => "Is a directory (os error 21)"
  | nameTooLong => "File name too long (os error 36)"
  | nulInName => "file name contained an unexpected NUL byte"
  | invalidText => "stream did not contain valid UTF-8"
  | endedEarly => "failed to fill whole buffer"
  | tookNothing => "failed to write whole buffer"
  | noSpace => "no space left on device"
  | other reason => reason

/-! ## Bit depths -/

/-- The wording for a number of bits that no depth has. -/
def unsupportedDepth (bits : Nat) : String :=
  s!"Unsupported output bit depth: {bits} (expected 8 or 16)"

/-! ## Settings text -/

/-- What stands where something else was expected. -/
inductive Misfit.Found where
  | unsigned (n : Nat)
  | negative (n : Nat)
  | decimal (x : Double)
  | boolean (b : Bool)
  | text (s : String)
  | null
  | list
  | object
  deriving DecidableEq

/-- The wording for what was found. -/
def Misfit.Found.message : Misfit.Found → String
  | unsigned n => s!"integer `{n}`"
  | negative n => s!"integer `-{n}`"
  | decimal x => "floating point `" ++ x.text .data ++ "`"
  | boolean b => s!"boolean `{b}`"
  | text s => "string " ++ Text.quoted s
  | null => "null"
  | list => "sequence"
  | object => "map"

/-- What a place in the settings holds. -/
inductive Misfit.Expected where
  | number
  | boolean
  | byte
  | path
  | nothing
  | settings
  deriving DecidableEq

/-- The wording for what was expected. -/
def Misfit.Expected.message : Misfit.Expected → String
  | number => "f64"
  | boolean => "a boolean"
  | byte => "u8"
  | path => "path string"
  | nothing => "unit"
  | settings => "struct WaveformConfig"

/-- Why a value that is well formed does not fit its place. -/
inductive Misfit where
  | wrongKind (found : Misfit.Found) (expected : Misfit.Expected)
  | outOfRange (found : Misfit.Found) (expected : Misfit.Expected)
  | unknownPolicy (name : String)
  | repeatedField (name : String)
  | depth (bits : Nat)
  deriving DecidableEq

/-- The wording for a value that does not fit. -/
def Misfit.message : Misfit → String
  | wrongKind found expected => s!"invalid type: {found.message}, expected {expected.message}"
  | outOfRange found expected => s!"invalid value: {found.message}, expected {expected.message}"
  | unknownPolicy name => s!"unknown variant `{name}`, expected `extrema` or `zero_anchored`"
  | repeatedField name => s!"duplicate field `{name}`"
  | depth bits => unsupportedDepth bits

/-- A place in a text: the number of its line, from 1, and the bytes before it on that
line. -/
structure TextPlace where
  line : Nat
  column : Nat
  deriving DecidableEq

/-- The wording for a place. -/
def TextPlace.message (p : TextPlace) : String := s!"line {p.line} column {p.column}"

/-- Why a settings text was refused. -/
inductive JsonError where
  /-- The text is not well formed. -/
  | malformed
  /-- The text ends too early. -/
  | endsEarly
  /-- A value does not fit, which was noticed at a place. -/
  | misfit (cause : Misfit) (place : TextPlace)
  deriving DecidableEq

/-- The wording for a refused settings text. -/
def JsonError.message : JsonError → String
  | malformed => "malformed JSON"
  | endsEarly => "EOF while parsing"
  | misfit cause place => s!"{cause.message} at {place.message}"

/-! ## Stream layouts, buffers and headers -/

/-- Why no peak file can be made for a stream layout. -/
inductive LayoutError where
  | noChannels
  | tooManyChannels (channels : Nat)
  | noRate
  | windowTooLong (frames : Nat)
  deriving DecidableEq

/-- The wording for a refused layout. -/
def LayoutError.message : LayoutError → String
  | noChannels => "channel count must be non-zero"
  | tooManyChannels channels => s!"{channels} channels exceeds the header range"
  | noRate => "sample rate must be non-zero"
  | windowTooLong frames => s!"window of {frames} samples exceeds the header range"

/-- Why a sample buffer was refused. -/
inductive BufferError where
  | planeCount (expected got : Nat)
  | shortPlane (plane held expected : Nat)
  | brokenFrame (samples channels : Nat)
  /-- Frames without channels cannot be counted. -/
  | noChannels
  deriving DecidableEq

/-- The wording for a refused buffer. -/
def BufferError.message : BufferError → String
  | planeCount expected got => s!"expected {expected} planes, got {got}"
  | shortPlane plane held expected =>
    s!"plane {plane} holds {held} samples, expected at least {expected}"
  | brokenFrame samples channels =>
    s!"{samples} interleaved samples is not a whole number of {channels}-channel frames"
  | noChannels => "frames of zero channels"

/-- Why bytes are no header. -/
inductive FormatError where
  | unknownFlags (flags : Nat)
  | unsupportedVersion (version : Nat)
  | zeroChannels
  deriving DecidableEq

/-- The wording for bytes that are no header. -/
def FormatError.message : FormatError → String
  | unknownFlags flags => "unknown flags 0x" ++ String.ofList (Nat.toDigits 16 flags)
  | unsupportedVersion version => s!"unsupported version {version}"
  | zeroChannels => "version 2 header with zero channels"

/-! ## Order of calls -/

/-- Where an extraction stands, or what a draft lacks: the states in which a call
comes too early or too late. -/
inductive CallState where
  | unconfigured
  | ready
  | finalized
  | failed
  | headerWritten
  | headerMissing
  deriving DecidableEq

/-- The name of a state in messages. -/
def CallState.message : CallState → String
  | unconfigured => "unconfigured"
  | ready => "ready"
  | finalized => "finalized"
  | failed => "failed"
  | headerWritten => "header already written"
  | headerMissing => "header not written"

/-! ## Extraction -/

/-- Why an extraction, or a part of one, failed. -/
inductive Error where
  | windowLength (seconds : Double)
  | depth (bits : Nat)
  | layout (cause : LayoutError)
  | emptyWindow (seconds : Double) (rate : Nat)
  | allocation (channels : Nat)
  | buffer (cause : BufferError)
  | wrongState (state : CallState)
  | tooManyWindows
  | format (cause : FormatError)
  | settings (cause : JsonError)
  | device (cause : StorageError)
  deriving DecidableEq

/-- The shortest window, in seconds. -/
def shortestWindow : Double := Binary.ofRatio false 1 100

/-- The longest window, in seconds. -/
def longestWindow : Double := Binary.ofNat _ 100

/-- The wording of a failure. -/
def Error.message : Error → String
  | windowLength seconds =>
    "Window length must be within " ++ shortestWindow.text .plain ++ "..=" ++
      longestWindow.text .plain ++ " seconds, got " ++ seconds.text .plain
  | depth bits => unsupportedDepth bits
  | layout cause => "Invalid stream layout: " ++ cause.message
  | emptyWindow seconds rate =>
    "Window of " ++ seconds.text .plain ++ s!"s at {rate} Hz rounds to zero samples"
  | allocation channels => s!"Failed to allocate state for {channels} channels"
  | buffer cause => "Invalid sample buffer: " ++ cause.message
  | wrongState state => "Operation not allowed in state " ++ state.message
  | tooManyWindows => "Data point count exceeds the 32-bit header field"
  | format cause => "Malformed waveform data: " ++ cause.message
  | settings cause => "Invalid configuration: " ++ cause.message
  | device cause => "I/O error: " ++ cause.message

/-- What lies behind a failure that only passes another one on. -/
def Error.behind : Error → List String
  | settings cause => [cause.message]
  | device cause => [cause.message]
  | _ => []

/-! ## Raw input -/

/-- Why raw audio could not be read. -/
inductive InputError where
  | noChannels
  | blockTooLarge (channels frames : Nat)
  | trailingBytes (count : Nat)
  | device (cause : StorageError)
  deriving DecidableEq

/-- The wording for unreadable raw audio. -/
def InputError.message : InputError → String
  | noChannels => "Channel count must be non-zero"
  | blockTooLarge channels frames =>
    s!"Block of {frames} frames with {channels} channels is too large"
  | trailingBytes count => s!"Input ended with {count} bytes of an incomplete frame"
  | device cause => "Failed to read input: " ++ cause.message

/-- What lies behind a failure that only passes another one on. -/
def InputError.behind : InputError → List String
  | device cause => [cause.message]
  | _ => []

end Peakfile
