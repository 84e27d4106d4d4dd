/-
# The text of a number

Three ways of writing a floating point number: with its shortest digits, either
always positionally or with an exponent where the number is very large or very
small, and with a fixed count of decimal places.
-/
import Peakfile.Decimal.Shortest

namespace Peakfile

/-! ## Shortest digits -/

/-- How the shortest digits of a number are laid out. -/
structure NumberStyle where
  /-- Which of two equally near shortest decimals is written. -/
  tie : Decimal.Tie
  /-- Exponents `e` of `d.ddd * 10 ^ e` from this one on are written with a mark. -/
  scientificFrom : Option Int
  /-- Exponents below this one are written with a mark. -/
  scientificBelow : Option Int
  /-- Whether a positive exponent carries its sign. -/
  signedExponent : Bool
  /-- Whether a whole number ends in `.0`. -/
  pointAlways : Bool

namespace NumberStyle

/-- Always positional, a whole number without a point: the text of messages.  A tie
goes up. -/
def plain : NumberStyle := ⟨.up, none, none, false, false⟩

/-- The text of data files: an exponent from `1e+16` on and below `1e-5`.  A tie goes
to the even digit. -/
def data : NumberStyle := ⟨.even, some 16, some (-5), true, true⟩

/-- The text of diagnostic views: an exponent from `1e16` on and below `1e-4`.  A tie
goes up. -/
def diagnostic : NumberStyle := ⟨.up, some 16, some (-4), false, true⟩

end NumberStyle

namespace Decimal

/-- `n` zeros. -/
def zeros (n : Nat) : String := String.ofList (List.replicate n '0')

/-- The exponent `e` for which the decimal is `d.ddd * 10 ^ e`. -/
def magnitudeExponent (d : Decimal) : Int := d.exponent + (toString d.digits).length - 1

/-- Positional text: the digits with the point where it belongs. -/
def positional (pointAlways : Bool) (d : Decimal) : String :=
  let digits := (toString d.digits).toList
  if 0 ≤ d.exponent then
    String.ofList digits ++ zeros d.exponent.toNat ++ (if pointAlways then ".0" else "")
  else
    let places := (-d.exponent).toNat
    if places < digits.length then
      let whole := digits.length - places
      String.ofList (digits.take whole) ++ "." ++ String.ofList (digits.drop whole)
    else "0." ++ zeros (places - digits.length) ++ String.ofList digits

/-- Text with an exponent: one digit before the point, and no point after a lone
digit. -/
def scientific (signedExponent : Bool) (d : Decimal) : String :=
  let exponent := d.magnitudeExponent
  let mark := if 0 ≤ exponent && signedExponent then "e+" else "e"
  let mantissa := match (toString d.digits).toList with
    | [] => ""
    | [digit] => String.singleton digit
    | digit :: rest => String.singleton digit ++ "." ++ String.ofList rest
  mantissa ++ mark ++ toString exponent

/-- The text of a decimal in a style. -/
def text (style : NumberStyle) (d : Decimal) : String :=
  let exponent := d.magnitudeExponent
  let large := style.scientificFrom.any (· ≤ exponent)
  let small := style.scientificBelow.any (exponent < ·)
  if d.digits ≠ 0 ∧ (large ∨ small) then d.scientific style.signedExponent
  else d.positional style.pointAlways

end Decimal

namespace Binary

variable {f : BinaryFormat}

/-- The text of a number in a style. -/
def text (style : NumberStyle) (x : Binary f) : String :=
  if x.isNaN then "NaN"
  else
    let sign := if x.negative then "-" else ""
    if x.isInfinite then sign ++ "inf"
    else sign ++ (Decimal.shortest f style.tie x.magnitude).text style

/-! ## Fixed places -/

/-- The text of a number with `places` decimal places, rounded from its exact
value with ties to even. -/
def fixed (places : Nat) (x : Binary f) : String :=
  if x.isNaN then "NaN"
  else
    let sign := if x.negative then "-" else ""
    if x.isInfinite then sign ++ "inf"
    else
      let scaled := roundTiesToEven (f.units x.magnitude * Nat.pow 10 places) f.one
      let fraction := toString (scaled % Nat.pow 10 places)
      sign ++ toString (scaled / Nat.pow 10 places) ++ "." ++
        Decimal.zeros (places - fraction.length) ++ fraction

end Binary

end Peakfile
