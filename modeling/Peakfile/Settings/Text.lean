/-
# The text of settings

Settings are kept as a JSON object.  Its members may come in any order and any may
be missing; a member with another name is passed over.  Settings may also be given as
a list, in the order in which they are written.  The first fault in the order of the
text decides.
-/
import Peakfile.Settings
import Peakfile.Json.Skip
import Peakfile.Json.Record

namespace Peakfile

open Json (skipBlanks)

/-! ## Fields -/

/-- The members of the settings. -/
inductive Field where
  | seconds
  | split
  | depth
  | output
  | anchor
  deriving DecidableEq

namespace Field

/-- The name of a member. -/
def name : Field → String
  | seconds => "window_secs"
  | split => "split_channels"
  | depth => "bits"
  | output => "output"
  | anchor => "reset_policy"

/-- All members in the order in which they are written. -/
def all : List Field := [seconds, split, depth, output, anchor]

/-- The member of a name. -/
def ofName? (name : String) : Option Field := all.find? (·.name = name)

end Field

namespace Anchor

/-- The name of an anchor. -/
def name : Anchor → String
  | extrema => "extrema"
  | zero => "zero_anchored"

/-- The anchor of a name. -/
def ofName? (name : String) : Option Anchor := [extrema, zero].find? (·.name = name)

end Anchor

/-! ## Writing -/

namespace Settings

/-- The members of settings. -/
def members (s : Settings) : List (String × Json.Scalar) :=
  [(Field.seconds.name, .number s.seconds),
    (Field.split.name, .boolean s.split),
    (Field.depth.name, .whole s.depth.bits),
    (Field.output.name, s.output.elim .null .text),
    (Field.anchor.name, .text s.anchor.name)]

/-- The text of settings. -/
def write (s : Settings) : String := Json.writeLines s.members

end Settings

/-! ## Reading values -/

variable [Json.NumberReading]

namespace Json

/-- Reads a value off the front of a text. -/
abbrev Reader (α : Type) := List Char → Except Fault (α × List Char)

/-- Name what stands at the front of a text where something else was expected.  Lists
and objects are known by their first character, which stays unread; anything else is
read to its end. -/
def mismatch (expected : Misfit.Expected) : List Char → Fault
  | [] => .endsEarly
  | c :: text =>
    let named (read : Except Fault (Misfit.Found × List Char)) : Fault :=
      match read with
      | .error fault => fault
      | .ok (found, rest) => .misfit (.wrongKind found expected) rest
    if c = 'n' then named ((word "ull".toList text).map (.null, ·))
    else if c = 't' then named ((word "rue".toList text).map (.boolean true, ·))
    else if c = 'f' then named ((word "alse".toList text).map (.boolean false, ·))
    else if c = '\x22' then named ((readString text).map fun (s, rest) => (.text s, rest))
    else if c = '[' then .misfit (.wrongKind .list expected) (c :: text)
    else if c = '\x7b' then .misfit (.wrongKind .object expected) (c :: text)
    else if c = '-' || c.isDigit then
      named (match numeral .endsEarly (c :: text) with
        | .error fault => .error fault
        | .ok (n, rest) => n.found.map (·, rest))
    else .malformed

/-- Whether a text starts with a numeral. -/
def startsNumeral : List Char → Bool
  | [] => false
  | c :: _ => c = '-' || c.isDigit

/-- Read a numeral and say what it stands for. -/
def readNumeral (expected : Misfit.Expected) : Reader Misfit.Found := fun text =>
  if startsNumeral text then
    match numeral .endsEarly text with
    | .error fault => .error fault
    | .ok (n, rest) => n.found.map (·, rest)
  else .error (mismatch expected text)

/-- Read a number. -/
def readNumber : Reader Double := fun text =>
  match readNumeral .number text with
  | .error fault => .error fault
  | .ok (.unsigned n, rest) => .ok (Binary.ofNat _ n, rest)
  | .ok (.negative n, rest) => .ok (-Binary.ofNat _ n, rest)
  | .ok (.decimal x, rest) => .ok (x, rest)
  | .ok (found, rest) => .error (.misfit (.wrongKind found .number) rest)

/-- Read a truth value. -/
def readBoolean : Reader Bool := fun text =>
  match text with
  | 't' :: rest => (word "rue".toList rest).map (true, ·)
  | 'f' :: rest => (word "alse".toList rest).map (false, ·)
  | text => .error (mismatch .boolean text)

/-- Read a number of at most eight bits. -/
def readByte : Reader Nat := fun text =>
  match readNumeral .byte text with
  | .error fault => .error fault
  | .ok (.unsigned n, rest) =>
    if n < 256 then .ok (n, rest) else .error (.misfit (.outOfRange (.unsigned n) .byte) rest)
  | .ok (.negative n, rest) => .error (.misfit (.outOfRange (.negative n) .byte) rest)
  | .ok (found, rest) => .error (.misfit (.wrongKind found .byte) rest)

/-- Read a depth. -/
def readDepth : Reader Depth := fun text =>
  match readByte text with
  | .error fault => .error fault
  | .ok (bits, rest) =>
    match Depth.ofBits? bits with
    | some depth => .ok (depth, rest)
    | none => .error (.misfit (.depth bits) rest)

/-- Read a file name or null. -/
def readOutput : Reader (Option String) := fun text =>
  match text with
  | 'n' :: rest => (word "ull".toList rest).map (none, ·)
  | '\x22' :: rest => (readString rest).map fun (name, rest) => (some name, rest)
  | text => .error (mismatch .path text)

/-- Read the name of an anchor after its opening quote. -/
def readAnchorName : Reader Anchor := fun text =>
  match readString text with
  | .error fault => .error fault
  | .ok (name, rest) =>
    match Anchor.ofName? name with
    | some anchor => .ok (anchor, rest)
    | none => .error (.misfit (.unknownPolicy name) rest)

/-- Read the null that an anchor may carry. -/
def readNothing : List Char → Except Fault (List Char)
  | 'n' :: rest => word "ull".toList rest
  | text => .error (mismatch .nothing text)

/-- Read an anchor as the only member of an object, after the opening brace.  Where no
name stands, the object is not well formed, whatever stands there. -/
def readAnchorMember : Reader Anchor := fun text =>
  match skipBlanks text with
  | [] => .error .endsEarly
  | '\x22' :: text =>
    match readAnchorName text with
    | .error fault => .error fault
    | .ok (anchor, rest) =>
      match skipColon rest with
      | .error fault => .error fault
      | .ok rest =>
        match readNothing (skipBlanks rest) with
        | .error fault => .error fault
        | .ok rest =>
          match skipBlanks rest with
          | [] => .error .endsEarly
          | c :: rest => if c = '\x7d' then .ok (anchor, rest) else .error .malformed
  | _ :: _ => .error .malformed

/-- Read an anchor: its name, or an object with the name and null. -/
def readAnchor : Reader Anchor := fun text =>
  match text with
  | [] => .error .endsEarly
  | c :: text =>
    if c = '\x22' then readAnchorName text
    else if c = '\x7b' then readAnchorMember text
    else .error .malformed

/-- Read a text that holds one value and nothing else. -/
def readWhole {α : Type} (read : Reader α) (text : List Char) : Except Fault α :=
  match read (skipBlanks text) with
  | .error fault => .error fault
  | .ok (value, rest) => if skipBlanks rest = [] then .ok value else .error .malformed

end Json

/-! ## Reading settings -/

/-- The members read so far. -/
structure Given where
  seconds : Option Double := none
  split : Option Bool := none
  depth : Option Depth := none
  output : Option (Option String) := none
  anchor : Option Anchor := none
  deriving DecidableEq

namespace Given

/-- Whether a member was read. -/
def has (g : Given) : Field → Bool
  | .seconds => g.seconds.isSome
  | .split => g.split.isSome
  | .depth => g.depth.isSome
  | .output => g.output.isSome
  | .anchor => g.anchor.isSome

/-- The settings: what was given, and the standard for the rest. -/
def settings (g : Given) : Settings where
  seconds := g.seconds.getD Settings.standard.seconds
  split := g.split.getD Settings.standard.split
  depth := g.depth.getD Settings.standard.depth
  output := g.output.getD Settings.standard.output
  anchor := g.anchor.getD Settings.standard.anchor

/-- Read the value of a member. -/
def readField (g : Given) (field : Field) : Json.Reader Given := fun text =>
  match field with
  | .seconds =>
    (Json.readNumber text).map fun (seconds, rest) => ({ g with seconds := some seconds }, rest)
  | .split => (Json.readBoolean text).map fun (split, rest) => ({ g with split := some split }, rest)
  | .depth => (Json.readDepth text).map fun (depth, rest) => ({ g with depth := some depth }, rest)
  | .output =>
    (Json.readOutput text).map fun (output, rest) => ({ g with output := some output }, rest)
  | .anchor =>
    (Json.readAnchor text).map fun (anchor, rest) => ({ g with anchor := some anchor }, rest)

/-- Read one member after the opening quote of its name. -/
def readMember (g : Given) : Json.Reader Given := fun text =>
  match Json.readString text with
  | .error fault => .error fault
  | .ok (name, rest) =>
    match Field.ofName? name with
    | none =>
      match Json.skipColon rest with
      | .error fault => .error fault
      | .ok rest => (Json.skip rest).map (g, ·)
    | some field =>
      if g.has field then .error (.misfit (.repeatedField name) rest)
      else
        match Json.skipColon rest with
        | .error fault => .error fault
        | .ok rest => g.readField field (skipBlanks rest)

/-- Read members up to the closing brace, at most `count` of them. -/
def readMembers : (count : Nat) → (g : Given) → Json.Reader Given
  | 0, _, _ => .error .endsEarly
  | count + 1, g, text =>
    match text with
    | [] => .error .endsEarly
    | c :: text =>
      if c = '\x22' then
        match g.readMember text with
        | .error fault => .error fault
        | .ok (g, rest) =>
          match skipBlanks rest with
          | [] => .error .endsEarly
          | c :: rest =>
            if c = '\x7d' then .ok (g, rest)
            else if c = ',' then readMembers count g (skipBlanks rest)
            else .error .malformed
      else .error .malformed

/-- Read an object after its opening brace.  No more members can follow than
characters. -/
def readObject : Json.Reader Given := fun text =>
  match skipBlanks text with
  | '\x7d' :: rest => .ok ({}, rest)
  | text => readMembers text.length {} text

/-- Read the end of a list. -/
def readListEnd (g : Given) : Json.Reader Given := fun text =>
  match skipBlanks text with
  | [] => .error .endsEarly
  | c :: rest => if c = ']' then .ok (g, rest) else .error .malformed

/-- Read the values of members in order, up to the end of the list.  `comma` says
whether one stands before the first. -/
def readList : (fields : List Field) → (comma : Bool) → (g : Given) → Json.Reader Given
  | [], _, g, text => g.readListEnd text
  | field :: fields, comma, g, text =>
    let value (text : List Char) : Except Json.Fault (Given × List Char) :=
      match g.readField field text with
      | .error fault => .error fault
      | .ok (g, rest) => readList fields true g rest
    match skipBlanks text with
    | [] => .error .endsEarly
    | c :: rest =>
      if c = ']' then .ok (g, rest)
      else if comma then
        if c = ',' then
          match skipBlanks rest with
          | [] => .error .endsEarly
          | c :: rest => if c = ']' then .error .malformed else value (c :: rest)
        else .error .malformed
      else value (c :: rest)

/-- What is unread once the reader has looked for the end of an object. -/
def afterObjectEnd (unread : List Char) : List Char :=
  match skipBlanks unread with
  | '\x7d' :: rest => rest
  | rest => rest

/-- What is unread once the reader has looked for the end of a list. -/
def afterListEnd (unread : List Char) : List Char :=
  match skipBlanks unread with
  | ']' :: rest => rest
  | ',' :: rest => skipBlanks rest
  | rest => rest

/-- Read what was given of the settings.  A late misfit has its place where the reader
has looked for their end. -/
def read : Json.Reader Given := fun text =>
  match text with
  | [] => .error .endsEarly
  | c :: rest =>
    if c = '\x7b' then (readObject rest).mapError (·.defer afterObjectEnd)
    else if c = '[' then (readList Field.all false {} rest).mapError (·.defer afterListEnd)
    else .error (Json.mismatch .settings (c :: rest))

end Given

namespace Settings

/-- Read settings from a text and check them. -/
def ofText (text : String) : Except Error Settings :=
  match Json.readWhole Given.read text.toList with
  | .error fault => .error (.settings (fault.locate text.toList))
  | .ok given => given.settings.check.map fun _ => given.settings

/-- Read settings from the bytes of a file. -/
def ofBytes (bytes : List UInt8) : Except Error Settings :=
  match String.fromUTF8? ⟨bytes.toArray⟩ with
  | none => .error (.device .invalidText)
  | some text => ofText text

end Settings

end Peakfile
