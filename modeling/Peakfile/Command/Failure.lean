/-
# Failures of commands

A failure is reported with what was being attempted and with everything that lies
behind it, from the outside in.
-/
import Peakfile.Feed

namespace Peakfile

/-- What made a command fail. -/
inductive Cause where
  | extraction (cause : Error)
  | input (cause : InputError)
  | storage (cause : StorageError)
  deriving DecidableEq

namespace Cause

/-- The cause of a failure to feed. -/
def ofFeed : FeedError → Cause
  | .input cause => input cause
  | .extraction cause => extraction cause

/-- The wording of a cause and of what lies behind it. -/
def chain : Cause → List String
  | extraction cause => cause.message :: cause.behind
  | input cause => cause.message :: cause.behind
  | storage cause => [cause.message]

end Cause

/-- A failed command. -/
structure Failure where
  /-- What was being attempted, where that needs saying. -/
  context : Option String
  cause : Cause
  deriving DecidableEq

namespace Failure

/-- A failure that needs no context. -/
def plain (cause : Cause) : Failure := ⟨none, cause⟩

/-- The wording from the outside in. -/
def chain (f : Failure) : List String := f.context.toList ++ f.cause.chain

/-- A text whose later lines are set in by `margin` blanks. -/
def indented (margin : Nat) (text : String) : String :=
  String.ofList (text.toList.flatMap fun c =>
    if c = '\n' then c :: List.replicate margin ' ' else [c])

/-- The causes under a report, numbered where there are several. -/
def causes : List String → String
  | [] => ""
  | [cause] => "\n\nCaused by:\n    " ++ indented 4 cause
  | several =>
    "\n\nCaused by:" ++ String.join (several.zipIdx.map fun (cause, i) =>
      let number := toString i
      "\n" ++ String.ofList (List.replicate (5 - number.length) ' ') ++ number ++ ": " ++
        indented 7 cause)

/-- The report of a failure. -/
def report (f : Failure) : String :=
  match f.chain with
  | [] => "Error: "
  | first :: rest => "Error: " ++ first ++ causes rest

end Failure

end Peakfile
