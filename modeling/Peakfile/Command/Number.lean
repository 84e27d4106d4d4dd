/-
# Numbers on a command line

Whole numbers are decimal digits with an optional sign; real numbers are decimals,
with or without a power of ten, or one of the names of the special values.
-/
import Peakfile.Decimal.Value
import Peakfile.Binary.Arithmetic

namespace Peakfile

namespace Command.Number

/-- A sign at the front of a text, `true` for a minus, and the rest. -/
def sign : List Char → Bool × List Char
  | '-' :: text => (true, text)
  | '+' :: text => (false, text)
  | text => (false, text)

/-- The value of a text of digits alone, at least one. -/
def digits? (text : List Char) : Option Nat :=
  if text ≠ [] ∧ text.all Char.isDigit then some (Decimal.ofDigits text) else none

/-- A whole number below `bound`.  A minus may stand before a zero. -/
def signed? (bound : Nat) (text : String) : Option Nat := do
  let (negative, rest) := sign text.toList
  let n ← digits? rest
  if (negative → n = 0) ∧ n < bound then some n else none

/-- A whole number below `bound`, without a minus. -/
def unsigned? (bound : Nat) (text : String) : Option Nat := do
  let n ← digits? (match text.toList with
    | '+' :: rest => rest
    | rest => rest)
  if n < bound then some n else none

/-- The special value of a name, in letters of either case. -/
def special? (negative : Bool) (text : List Char) : Option Double :=
  match String.ofList (text.map Char.toLower) with
  | "inf" => some (Binary.infinity negative)
  | "infinity" => some (Binary.infinity negative)
  | "nan" => some (Binary.undefined _)
  | _ => none

/-- The power of ten after a mantissa: nothing, or a mark, a sign and digits. -/
def power? : List Char → Option Int
  | [] => some 0
  | mark :: rest =>
    if mark = 'e' ∨ mark = 'E' then
      let (negative, rest) := sign rest
      (digits? rest).map fun n => if negative then -(n : Int) else n
    else none

/-- The fraction digits of a mantissa, and the text after them. -/
def fraction : List Char → List Char × List Char
  | '.' :: rest => (rest.takeWhile Char.isDigit, rest.dropWhile Char.isDigit)
  | rest => ([], rest)

/-- A real number.  A point needs a digit on one side only. -/
def real? (text : String) : Option Double :=
  let (negative, rest) := sign text.toList
  match special? negative rest with
  | some x => some x
  | none =>
    let whole := rest.takeWhile Char.isDigit
    let (fraction, rest) := fraction (rest.dropWhile Char.isDigit)
    if whole = [] ∧ fraction = [] then none
    else
      (power? rest).map fun power =>
        (Decimal.ofParts whole fraction power).toBinary BinaryFormat.double negative

end Command.Number

end Peakfile
