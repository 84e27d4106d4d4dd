/-
# Quoted views of a text

A text is shown between double quotes on one line: quotes and backslashes are
escaped, and a character without a picture of its own is shown by its code point.
-/
import Peakfile.Text.Unpictured

namespace Peakfile

namespace Text

/-- A code point between braces. -/
def codePoint (c : Char) : String :=
  "\\u\x7b" ++ String.ofList (Nat.toDigits 16 c.toNat) ++ "\x7d"

/-- One character of a quoted view.  An apostrophe stands for itself. -/
def escaped (c : Char) : String :=
  if c = '\x00' then "\\0"
  else if c = '\t' then "\\t"
  else if c = '\r' then "\\r"
  else if c = '\n' then "\\n"
  else if c = '\x22' || c = '\\' then "\\" ++ String.singleton c
  else if isUnpictured c then codePoint c
  else String.singleton c

/-- The quoted view of a text. -/
def quoted (s : String) : String := "\x22" ++ String.join (s.toList.map escaped) ++ "\x22"

end Text

end Peakfile
