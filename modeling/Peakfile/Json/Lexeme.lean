/-
# The lexemes of JSON

Blanks, words, strings and numerals, each read off the front of a text.  A text may
be refused because it is malformed or because it ends too early, and the first fault
in the order of the text decides.
-/
import Peakfile.Json.Fault
import Peakfile.Decimal.Scaled

namespace Peakfile

namespace Json

/-! ## Blanks and words -/

/-- The characters that may stand between lexemes. -/
def isBlank (c : Char) : Bool := c = ' ' || c = '\n' || c = '\t' || c = '\r'

/-- A text without the blanks at its front. -/
def skipBlanks (text : List Char) : List Char := text.dropWhile isBlank

/-- Read the remaining letters of a word. -/
def word : (letters text : List Char) → Except Fault (List Char)
  | [], text => .ok text
  | _ :: _, [] => .error .endsEarly
  | letter :: letters, c :: text =>
    if c = letter then word letters text else .error .malformed

/-! ## Strings -/

/-- A piece of a string: a character, or a code unit of sixteen bits given by its
digits. -/
inductive Piece where
  | char (c : Char)
  | unit (n : Nat)
  deriving DecidableEq

/-- The value of a hexadecimal digit. -/
def hexDigit? (c : Char) : Option Nat :=
  if '0' ≤ c ∧ c ≤ '9' then some (c.toNat - 48)
  else if 'a' ≤ c ∧ c ≤ 'f' then some (c.toNat - 87)
  else if 'A' ≤ c ∧ c ≤ 'F' then some (c.toNat - 55)
  else none

/-- The code unit with the given four digits. -/
def codeUnit? (a b c d : Char) : Option Nat := do
  let a ← hexDigit? a
  let b ← hexDigit? b
  let c ← hexDigit? c
  let d ← hexDigit? d
  return ((a * 16 + b) * 16 + c) * 16 + d

/-- The character that a letter after a backslash stands for. -/
def escapeLetter? : Char → Option Char
  | '\x22' => some '\x22'
  | '\\' => some '\\'
  | '/' => some '/'
  | 'b' => some '\x08'
  | 'f' => some '\x0c'
  | 'n' => some '\n'
  | 'r' => some '\r'
  | 't' => some '\t'
  | _ => none

/-- Why four digits cannot be read: there are fewer than four bytes left, or they are
not digits. -/
def brokenUnit (text : List Char) : Fault :=
  if text.foldr (·.utf8Size + ·) 0 < 4 then .endsEarly else .malformed

/-- The pieces of a string after its opening quote, and the text after its closing
quote.  Where the string is broken, the pieces before the break are still there. -/
def pieces : (text : List Char) → List Piece × Except Fault (List Char)
  | [] => ([], .error .endsEarly)
  | '\\' :: 'u' :: a :: b :: c :: d :: text =>
    match codeUnit? a b c d with
    | some n =>
      let (rest, ending) := pieces text
      (.unit n :: rest, ending)
    | none => ([], .error .malformed)
  | '\\' :: 'u' :: text => ([], .error (brokenUnit text))
  | '\\' :: letter :: text =>
    match escapeLetter? letter with
    | some c =>
      let (rest, ending) := pieces text
      (.char c :: rest, ending)
    | none => ([], .error .malformed)
  | ['\\'] => ([], .error .endsEarly)
  | c :: text =>
    if c = '\x22' then ([], .ok text)
    else if c < ' ' then ([], .error .malformed)
    else
      let (rest, ending) := pieces text
      (.char c :: rest, ending)

/-- Whether a code unit opens a surrogate pair. -/
def isHighSurrogate (n : Nat) : Bool := 0xd800 ≤ n && n < 0xdc00

/-- Whether a code unit closes a surrogate pair. -/
def isLowSurrogate (n : Nat) : Bool := 0xdc00 ≤ n && n < 0xe000

/-- The character of a surrogate pair. -/
def pairedChar (high low : Nat) : Char :=
  Char.ofNat (0x10000 + (high - 0xd800) * 0x400 + (low - 0xdc00))

/-- The characters of a string, and the text after it.  Code units pair up; a
surrogate alone is a fault, and so is what ended the string, if nothing came before. -/
def join (ending : Except Fault (List Char)) :
    List Piece → Except Fault (List Char × List Char)
  | [] => ending.map ([], ·)
  | .char c :: rest => (join ending rest).map fun (chars, text) => (c :: chars, text)
  | [.unit n] =>
    if isLowSurrogate n then .error .malformed
    else if isHighSurrogate n then
      match ending with
      | .error cause => .error cause
      | .ok _ => .error .malformed
    else ending.map ([Char.ofNat n], ·)
  | .unit n :: .unit m :: rest =>
    if isLowSurrogate n then .error .malformed
    else if isHighSurrogate n then
      if isLowSurrogate m then
        (join ending rest).map fun (chars, text) => (pairedChar n m :: chars, text)
      else .error .malformed
    else (join ending (.unit m :: rest)).map fun (chars, text) => (Char.ofNat n :: chars, text)
  | .unit n :: .char c :: rest =>
    if isLowSurrogate n || isHighSurrogate n then .error .malformed
    else (join ending (.char c :: rest)).map fun (chars, text) => (Char.ofNat n :: chars, text)

/-- Read a string after its opening quote. -/
def readString (text : List Char) : Except Fault (String × List Char) :=
  let (parts, ending) := pieces text
  (join ending parts).map fun (chars, text) => (String.ofList chars, text)

/-! ## Numerals -/

/-- A numeral: a sign, whole digits, fraction digits, and a power of ten, the last
two of which may be missing. -/
structure Numeral where
  negative : Bool
  whole : List Char
  fraction : Option (List Char)
  exponent : Option Int
  deriving DecidableEq

/-- Read a run of digits, at least one.  `atEnd` is the fault of a text that ends
before the first. -/
def digits (atEnd : Fault) (text : List Char) : Except Fault (List Char × List Char) :=
  match text.takeWhile Char.isDigit with
  | [] => .error (if text = [] then atEnd else .malformed)
  | run => .ok (run, text.dropWhile Char.isDigit)

/-- Read the fraction of a numeral, if there is one. -/
def fraction (atEnd : Fault) : List Char → Except Fault (Option (List Char) × List Char)
  | '.' :: text => (digits atEnd text).map fun (run, text) => (some run, text)
  | text => .ok (none, text)

/-- Whether a character opens an exponent. -/
def isExponentMark (c : Char) : Bool := c = 'e' || c = 'E'

/-- A sign, if there is one, and the text after it. -/
def sign : List Char → Bool × List Char
  | '-' :: text => (true, text)
  | '+' :: text => (false, text)
  | text => (false, text)

/-- Read the exponent of a numeral, if there is one. -/
def exponent (atEnd : Fault) (text : List Char) : Except Fault (Option Int × List Char) :=
  match text with
  | [] => .ok (none, [])
  | c :: rest =>
    if isExponentMark c then
      let (negative, rest) := sign rest
      (digits atEnd rest).map fun (run, text) =>
        let n : Int := Decimal.ofDigits run
        (some (if negative then -n else n), text)
    else .ok (none, text)

/-- A minus, if there is one, and the text after it. -/
def minus : List Char → Bool × List Char
  | '-' :: text => (true, text)
  | text => (false, text)

/-- Read a numeral.  No zero leads other whole digits. -/
def numeral (atEnd : Fault) (text : List Char) : Except Fault (Numeral × List Char) :=
  match digits atEnd (minus text).2 with
  | .error cause => .error cause
  | .ok (whole, afterWhole) =>
    if whole.head? = some '0' ∧ 1 < whole.length then .error .malformed
    else
      match fraction atEnd afterWhole with
      | .error cause => .error cause
      | .ok (fraction, afterFraction) =>
        match exponent atEnd afterFraction with
        | .error cause => .error cause
        | .ok (exponent, rest) => .ok (⟨(minus text).1, whole, fraction, exponent⟩, rest)

/-! ## Numbers -/

/-- A way of reading numerals as numbers. -/
class NumberReading where
  /-- The number that a numeral is read as, unless it is beyond every number. -/
  double? : Numeral → Option Double

namespace Numeral

/-- The scaled reading of a numeral. -/
def scaled? (n : Numeral) : Option Double :=
  let d := Decimal.gathered n.whole (n.fraction.getD [])
  (Decimal.scaled? { d with exponent := d.exponent + n.exponent.getD 0 }).map fun x =>
    if n.negative then -x else x

/-- Numerals are read in scaled form, unless another way is chosen. -/
instance : NumberReading := ⟨scaled?⟩

variable [NumberReading]

/-- The number that a numeral is read as.  A value beyond every number is a fault. -/
def toDouble (n : Numeral) : Except Fault Double :=
  match NumberReading.double? n with
  | none => .error .malformed
  | some x => .ok x

/-- What a numeral stands for.  One without fraction and exponent is whole while it
fits 64 bits, a negative zero apart; any other is a floating point number. -/
def found (n : Numeral) : Except Fault Misfit.Found :=
  let value := Decimal.ofDigits n.whole
  match n.fraction, n.exponent with
  | none, none =>
    if n.negative then
      if value ≠ 0 ∧ value ≤ UInt64.size / 2 then .ok (.negative value)
      else n.toDouble.map .decimal
    else if value < UInt64.size then .ok (.unsigned value)
    else n.toDouble.map .decimal
  | _, _ => n.toDouble.map .decimal

end Numeral

end Json

end Peakfile
