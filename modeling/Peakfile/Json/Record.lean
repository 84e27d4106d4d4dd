/-
# Writing JSON records

A record is a run of named scalars in order.  It is written on one line without
blanks, or on a line for each member.
-/
import Peakfile.Decimal.Text

namespace Peakfile

namespace Json

/-- A scalar. -/
inductive Scalar where
  | null
  | boolean (b : Bool)
  | whole (n : Nat)
  | number (x : Double)
  | text (s : String)
  deriving DecidableEq

/-- A character of a string: quotes, backslashes and controls are escaped, and
nothing else. -/
def escape (c : Char) : List Char :=
  if c = '\x22' then ['\\', '\x22']
  else if c = '\\' then ['\\', '\\']
  else if c = '\x08' then ['\\', 'b']
  else if c = '\x0c' then ['\\', 'f']
  else if c = '\n' then ['\\', 'n']
  else if c = '\r' then ['\\', 'r']
  else if c = '\t' then ['\\', 't']
  else if c < ' ' then
    ['\\', 'u', '0', '0', Nat.digitChar (c.toNat / 16), Nat.digitChar (c.toNat % 16)]
  else [c]

/-- A string between quotes. -/
def quote (s : String) : String :=
  String.ofList ('\x22' :: s.toList.flatMap escape ++ ['\x22'])

/-- The text of a scalar.  What is no finite number is null. -/
def Scalar.write : Scalar → String
  | null => "null"
  | boolean b => if b then "true" else "false"
  | whole n => toString n
  | number x => if x.isNaN || x.isInfinite then "null" else x.text .data
  | text s => quote s

/-- The text of a record on one line. -/
def writeLine (members : List (String × Scalar)) : String :=
  "\x7b" ++ ",".intercalate (members.map fun m => quote m.1 ++ ":" ++ m.2.write) ++ "\x7d"

/-- The text of a record with a line for each member. -/
def writeLines (members : List (String × Scalar)) : String :=
  "\x7b\n" ++ ",\n".intercalate (members.map fun m => "  " ++ quote m.1 ++ ": " ++ m.2.write) ++
    "\n\x7d"

end Json

end Peakfile
