/-
# Command lines

A command line is read from left to right.  The first thing that is wrong with it
decides, unless help was asked for before; what is missing is noticed at the end.
-/
import Peakfile.Command.Number
import Peakfile.Extrema

namespace Peakfile

namespace Command

/-! ## Options -/

/-- Why the reading of a command line stopped. -/
inductive Stop where
  /-- Help was asked for. -/
  | help
  /-- The command line makes no sense. -/
  | misuse
  deriving DecidableEq

/-- What an option does to a request. -/
inductive Effect (α : Type) where
  | flag (set : α → α)
  /-- The option takes a value, which may be refused. -/
  | value (set : String → α → Option α)

/-- An option and its names. -/
structure Switch (α : Type) where
  long : String
  short : Option Char
  effect : Effect α

/-- What a command accepts: its options, and its positional arguments in order. -/
structure Grammar (α : Type) where
  switches : List (Switch α)
  positionals : List (String → α → Option α)

/-- A request half read. -/
structure Reading (α : Type) where
  request : α
  /-- The long names of the options seen. -/
  seen : List String
  positionals : List (String → α → Option α)
  /-- Whether all that follows is positional. -/
  literal : Bool

namespace Reading

variable {α : Type}

/-- Give an option without a value.  No option may be given twice. -/
def setFlag (r : Reading α) (switch : Switch α) (set : α → α) : Except Stop (Reading α) :=
  if r.seen.contains switch.long then .error .misuse
  else .ok { r with request := set r.request, seen := switch.long :: r.seen }

/-- Give an option its value. -/
def setValue (r : Reading α) (switch : Switch α) (set : String → α → Option α) (value : String) :
    Except Stop (Reading α) :=
  if r.seen.contains switch.long then .error .misuse
  else
    match set value r.request with
    | none => .error .misuse
    | some request => .ok { r with request, seen := switch.long :: r.seen }

/-- Give the next positional argument. -/
def setPositional (r : Reading α) (value : String) : Except Stop (Reading α) :=
  match r.positionals with
  | [] => .error .misuse
  | set :: positionals =>
    match set value r.request with
    | none => .error .misuse
    | some request => .ok { r with request, positionals }

end Reading

/-! ## Reading arguments -/

/-- The kinds of argument. -/
inductive Shape where
  /-- Two dashes alone: all that follows is positional. -/
  | divider
  | long (name : String) (value : Option String)
  | short (letters : List Char)
  | positional
  deriving DecidableEq

/-- The part of a text before the first equals sign, and the part after it. -/
def splitAtEquals (text : List Char) : String × Option String :=
  let name := String.ofList (text.takeWhile (· ≠ '='))
  match text.dropWhile (· ≠ '=') with
  | [] => (name, none)
  | _ :: value => (name, some (String.ofList value))

/-- The kind of an argument.  A lone dash is a positional argument. -/
def shape (argument : String) : Shape :=
  match argument.toList with
  | ['-', '-'] => .divider
  | '-' :: '-' :: text =>
    let (name, value) := splitAtEquals text
    .long name value
  | '-' :: letter :: letters => .short (letter :: letters)
  | _ => .positional

/-- What reading one argument leads to. -/
inductive Progress (α : Type) where
  | read (r : Reading α)
  /-- The next argument is the value of an option. -/
  | awaiting (switch : Switch α) (set : String → α → Option α) (r : Reading α)

variable {α : Type}

/-- Read a long option. -/
def readLong (g : Grammar α) (r : Reading α) (name : String) (value : Option String) :
    Except Stop (Progress α) :=
  if name = "help" then
    if value.isSome then .error .misuse else .error .help
  else
    match g.switches.find? (·.long = name) with
    | none => .error .misuse
    | some switch =>
      match switch.effect, value with
      | .flag set, none => (r.setFlag switch set).map .read
      | .flag _, some _ => .error .misuse
      | .value set, some value => (r.setValue switch set value).map .read
      | .value set, none => .ok (.awaiting switch set r)

/-- Read a run of short options.  The rest of the run is the value of the first that
takes one; an equals sign before the value does not count. -/
def readShort (g : Grammar α) : (r : Reading α) → (letters : List Char) →
    Except Stop (Progress α)
  | r, [] => .ok (.read r)
  | r, letter :: letters =>
    if letter = 'h' then .error .help
    else
      match g.switches.find? (·.short = some letter) with
      | none => .error .misuse
      | some switch =>
        match switch.effect, letters with
        | .flag set, letters =>
          match r.setFlag switch set with
          | .error stop => .error stop
          | .ok r => readShort g r letters
        | .value set, [] => .ok (.awaiting switch set r)
        | .value set, '=' :: value => (r.setValue switch set (String.ofList value)).map .read
        | .value set, value => (r.setValue switch set (String.ofList value)).map .read

/-- Read one argument. -/
def readArgument (g : Grammar α) (r : Reading α) (argument : String) :
    Except Stop (Progress α) :=
  if r.literal then (r.setPositional argument).map .read
  else
    match shape argument with
    | .divider => .ok (.read { r with literal := true })
    | .long name value => readLong g r name value
    | .short letters => readShort g r letters
    | .positional => (r.setPositional argument).map .read

/-- Read all arguments.  The value of an option must not look like an option. -/
def readArguments (g : Grammar α) : (r : Reading α) → (arguments : List String) →
    Except Stop α
  | r, [] => .ok r.request
  | r, argument :: arguments =>
    match readArgument g r argument with
    | .error stop => .error stop
    | .ok (.read r) => readArguments g r arguments
    | .ok (.awaiting switch set r) =>
      match arguments with
      | [] => .error .misuse
      | value :: arguments =>
        if shape value = .positional then
          match r.setValue switch set value with
          | .error stop => .error stop
          | .ok r => readArguments g r arguments
        else .error .misuse

/-- Read the arguments of a command from a blank request. -/
def Grammar.read (g : Grammar α) (blank : α) (arguments : List String) : Except Stop α :=
  readArguments g ⟨blank, [], g.positionals, false⟩ arguments

/-! ## Making a peak file -/

/-- What is asked of the making of a peak file.  The rate and the channels have to be
asked for, all else may be left open. -/
structure Wishes where
  /-- The file to read, a dash for standard input. -/
  input : String := "-"
  rate : Option UInt32 := none
  channels : Option Nat := none
  seconds : Option Double := none
  split : Bool := false
  bits : Option Nat := none
  zeroAnchored : Bool := false
  settings : Option String := none
  output : Option String := none
  blockFrames : Nat := 4096

/-- A file name, which is not empty. -/
def fileName? (name : String) : Option String := if name = "" then none else some name

/-- What the making of a peak file accepts. -/
def generateGrammar : Grammar Wishes where
  switches :=
    [⟨"rate", some 'r', .value fun v w =>
        (Number.signed? UInt32.size v).map fun n => { w with rate := some (UInt32.ofNat n) }⟩,
      ⟨"channels", some 'c', .value fun v w =>
        (Number.unsigned? UInt64.size v).map fun n => { w with channels := some n }⟩,
      ⟨"length", some 'l', .value fun v w =>
        (Number.real? v).map fun x => { w with seconds := some x }⟩,
      ⟨"split-channels", none, .flag fun w => { w with split := true }⟩,
      ⟨"bits", some 'b', .value fun v w =>
        (Number.signed? 256 v).map fun n => { w with bits := some n }⟩,
      ⟨"zero-anchored", none, .flag fun w => { w with zeroAnchored := true }⟩,
      ⟨"config", none, .value fun v w =>
        (fileName? v).map fun name => { w with settings := some name }⟩,
      ⟨"output", some 'o', .value fun v w =>
        (fileName? v).map fun name => { w with output := some name }⟩,
      ⟨"block-frames", none, .value fun v w =>
        (Number.unsigned? UInt64.size v).map fun n => { w with blockFrames := n }⟩]
  positionals := [fun v w => some { w with input := v }]

/-! ## Looking at a peak file -/

/-- What is asked of a look at a peak file. -/
structure Look where
  file : Option String := none
  json : Bool := false

/-- What a look at a peak file accepts. -/
def inspectGrammar : Grammar Look where
  switches := [⟨"json", none, .flag fun l => { l with json := true }⟩]
  positionals := [fun v l => (fileName? v).map fun name => { l with file := some name }]

/-! ## Commands -/

/-- A command line that makes sense. -/
inductive Invocation where
  | version
  | generate (rate : UInt32) (channels : Nat) (wishes : Wishes)
  | inspect (file : String) (json : Bool)

/-- Read the arguments after the name of the making of a peak file. -/
def readGenerate (arguments : List String) : Except Stop Invocation :=
  match generateGrammar.read {} arguments with
  | .error stop => .error stop
  | .ok wishes =>
    match wishes.rate, wishes.channels with
    | some rate, some channels => .ok (.generate rate channels wishes)
    | _, _ => .error .misuse

/-- Read the arguments after the name of a look at a peak file. -/
def readInspect (arguments : List String) : Except Stop Invocation :=
  match inspectGrammar.read {} arguments with
  | .error stop => .error stop
  | .ok look =>
    match look.file with
    | some file => .ok (.inspect file look.json)
    | none => .error .misuse

/-- Read the arguments after the word `help`: at most the name of a command. -/
def readHelp : (arguments : List String) → Stop
  | [] => .help
  | [command] =>
    if ["generate", "inspect", "help"].contains command then .help else .misuse
  | _ => .misuse

/-- The letters of short options before a command: `true` for the version. -/
def readLetters : (version : Bool) → (letters : List Char) → Except Stop Bool
  | version, [] => .ok version
  | version, letter :: letters =>
    if letter = 'h' then .error .help
    else if letter = 'V' ∧ !version then readLetters true letters
    else .error .misuse

/-- Read a command line.  `version` says whether the version was asked for; it is
given in place of the command's work once the whole line makes sense. -/
def readFrom : (version literal : Bool) → (arguments : List String) → Except Stop Invocation
  | true, _, [] => .ok .version
  | false, _, [] => .error .help
  | version, literal, argument :: arguments =>
    let asked (invocation : Except Stop Invocation) : Except Stop Invocation :=
      if version then invocation.map fun _ => .version else invocation
    if literal then .error .misuse
    else if argument = "generate" then asked (readGenerate arguments)
    else if argument = "inspect" then asked (readInspect arguments)
    else if argument = "help" then .error (readHelp arguments)
    else
      match shape argument with
      | .divider => readFrom version true arguments
      | .long name value =>
        if name = "help" ∧ value = none then .error .help
        else if name = "version" ∧ value = none ∧ !version then readFrom true false arguments
        else .error .misuse
      | .short letters =>
        match readLetters version letters with
        | .error stop => .error stop
        | .ok version => readFrom version false arguments
      | .positional => .error .misuse

/-- Read a command line. -/
def read (arguments : List String) : Except Stop Invocation := readFrom false false arguments

end Command

end Peakfile
