/-
# The text of a number reads back

A number is written with the shortest digits that round back to it, laid out positionally or with
an exponent.  Each layout is the text of a numeral of the same value
(`Decimal.exists_numeralText`).  So a number that is written is the one nearest to its text
(`Binary.exists_numeralText`), in every style and for both signs.
-/
import Peakfile.Decimal.Text
import Peakfile.Decimal.Value
import Peakfile.Proofs.Grammar
import Peakfile.Proofs.ShortestDecimals

namespace Peakfile

open Json

/-! ## The digits of a natural number -/

namespace Decimal

theorem toList_toString (n : Nat) : (toString n).toList = Nat.toDigits 10 n := Nat.toList_repr

theorem length_toString (n : Nat) : (toString n).length = (Nat.toDigits 10 n).length := by
  rw [← String.length_toList, toList_toString]

theorem digits_toDigits (n : Nat) : Digits (Nat.toDigits 10 n) :=
  ⟨Nat.toDigits_ne_nil, fun _ hc => Nat.isDigit_of_mem_toDigits (by decide) (by decide) hc⟩

theorem head?_toDigits_ne {n : Nat} (hn : n ≠ 0) : (Nat.toDigits 10 n).head? ≠ some '0' := by
  induction n using Nat.strong_induction_on with
  | _ n ih =>
    rcases Nat.lt_or_ge n 10 with hlt | hge
    · rw [Nat.toDigits_of_lt_base hlt]
      exact fun h => hn (Nat.digitChar_eq_zero.1 (Option.some.inj h))
    · rw [Nat.toDigits_of_base_le (by decide) hge,
        List.head?_append_of_ne_nil _ Nat.toDigits_ne_nil]
      exact ih (n / 10) (by omega) (by omega)

/-- No zero leads other digits. -/
theorem eq_zero_of_head?_toDigits {n : Nat} (h : (Nat.toDigits 10 n).head? = some '0') : n = 0 :=
  by_contra fun hn => head?_toDigits_ne hn h

theorem ofDigits_eq (run : List Char) : ofDigits run = Nat.ofDigitChars 10 run 0 :=
  Nat.ofDigitChars_eq_foldl.symm

theorem ofDigits_toDigits (n : Nat) : ofDigits (Nat.toDigits 10 n) = n := by
  rw [ofDigits_eq, Nat.ofDigitChars_ten_toDigits]

theorem ofDigits_append_zeros (run : List Char) (n : Nat) :
    ofDigits (run ++ List.replicate n '0') = 10 ^ n * ofDigits run := by
  rw [ofDigits_eq, ofDigits_eq, Nat.ofDigitChars_append, Nat.ofDigitChars_replicate_zero]

theorem ofDigits_zeros_append (n : Nat) (run : List Char) :
    ofDigits (List.replicate n '0' ++ run) = ofDigits run := by
  rw [ofDigits_eq, ofDigits_eq, Nat.ofDigitChars_append, Nat.ofDigitChars_replicate_zero,
    Nat.mul_zero]

theorem digits_zeros (n : Nat) : ∀ c ∈ List.replicate n '0', c.isDigit = true := by
  intro c hc
  rw [List.eq_of_mem_replicate hc]
  rfl

end Decimal

/-! ## What numerals stand for -/

namespace Json.Numeral

/-- The decimal that a numeral stands for, without its sign. -/
def decimal (n : Numeral) : Decimal :=
  Decimal.ofParts n.whole (n.fraction.getD []) (n.exponent.getD 0)

theorem decimal_eq (n : Numeral) :
    n.decimal = ⟨Decimal.ofDigits (n.whole ++ n.fraction.getD []),
      n.exponent.getD 0 - (n.fraction.getD []).length⟩ := rfl

/-- The number nearest to a numeral, unless it is beyond every number. -/
def nearest? (n : Numeral) : Option Double :=
  let (num, den) := n.decimal.inUnits .double
  let x : Double := .ofUnits n.negative num den
  if x.isInfinite then none else some x

/-- Whether a numeral is written as no whole number. -/
def IsDecimal (n : Numeral) : Prop := n.fraction ≠ none ∨ n.exponent ≠ none

end Json.Numeral

/-- A minus may stand before a numeral that has none. -/
theorem Json.NumeralText.minus {text : List Char} {n : Numeral} (h : NumeralText text n)
    (hn : n.negative = false) : NumeralText ('-' :: text) { n with negative := true } := by
  obtain ⟨hdigits, hleading, fraction, exponent, hfraction, hexponent, rfl⟩ := h
  rw [hn]
  exact ⟨hdigits, hleading, fraction, exponent, hfraction, hexponent, rfl⟩

/-! ## The layouts of a decimal -/

namespace Decimal

/-- A text that is a numeral without a sign, of the value of a decimal. -/
structure Says (d : Decimal) (text : List Char) (n : Numeral) : Prop where
  numeral : NumeralText text n
  unsigned : n.negative = false
  value_eq : n.decimal.value = d.value

/-- Whole numbers: the digits and zeros behind them. -/
theorem says_whole (digits zeros : Nat) (hzero : digits = 0 → zeros = 0) {fraction : List Char}
    {run : Option (List Char)} (hfraction : FractionText fraction run)
    (hrun : run = none ∨ run = some ['0']) :
    Says ⟨digits, zeros⟩ (Nat.toDigits 10 digits ++ List.replicate zeros '0' ++ fraction)
      ⟨false, Nat.toDigits 10 digits ++ List.replicate zeros '0', run, none⟩ := by
  refine ⟨⟨⟨?_, ?_⟩, ?_, fraction, [], hfraction, .none, ?_⟩, rfl, ?_⟩
  · exact List.append_ne_nil_of_left_ne_nil Nat.toDigits_ne_nil _
  · exact List.forall_mem_append.2 ⟨(digits_toDigits digits).isDigit, digits_zeros zeros⟩
  · intro hhead
    rw [List.head?_append_of_ne_nil _ Nat.toDigits_ne_nil] at hhead
    obtain rfl := eq_zero_of_head?_toDigits hhead
    rw [hzero rfl]
    rfl
  · rw [List.append_nil]
    rfl
  · have hdigits : ofDigits (Nat.toDigits 10 digits ++ List.replicate zeros '0') =
        10 ^ zeros * digits := by
      rw [ofDigits_append_zeros, ofDigits_toDigits]
    rw [Numeral.decimal_eq]
    rcases hrun with rfl | rfl
    · dsimp only [Option.getD_none]
      rw [List.append_nil, hdigits, value, value]
      simp [mul_comm]
    · dsimp only [Option.getD_some, Option.getD_none]
      have hone : ofDigits (Nat.toDigits 10 digits ++ List.replicate zeros '0' ++ ['0']) =
          10 * (10 ^ zeros * digits) := by
        rw [← hdigits]
        exact ofDigits_append_zeros _ 1
      rw [hone, value, value]
      simp
      ring

/-- Digits with the point between them. -/
theorem says_between (digits : Nat) {places : Nat}
    (hplaces : places ≠ 0) (hlength : places < (Nat.toDigits 10 digits).length) :
    let whole := (Nat.toDigits 10 digits).length - places
    Says ⟨digits, -places⟩
      ((Nat.toDigits 10 digits).take whole ++ '.' :: (Nat.toDigits 10 digits).drop whole)
      ⟨false, (Nat.toDigits 10 digits).take whole, some ((Nat.toDigits 10 digits).drop whole),
        none⟩ := by
  intro whole
  have hdigits := digits_toDigits digits
  have hne : (Nat.toDigits 10 digits).take whole ≠ [] := by
    intro hnil
    have hlen := congrArg List.length hnil
    rw [List.length_take, List.length_nil] at hlen
    omega
  have hfraction : ((Nat.toDigits 10 digits).drop whole).length = places := by
    rw [List.length_drop]
    omega
  refine ⟨⟨⟨hne, fun c hc => hdigits.isDigit c (List.mem_of_mem_take hc)⟩, ?_, _, [],
    .some ⟨?_, fun c hc => hdigits.isDigit c (List.mem_of_mem_drop hc)⟩, .none, ?_⟩, rfl, ?_⟩
  · intro hhead
    rw [List.head?_take, if_neg (by omega)] at hhead
    obtain rfl := eq_zero_of_head?_toDigits hhead
    exact absurd hlength (by simp [Nat.toDigits_of_lt_base]; omega)
  · intro hnil
    rw [hnil] at hfraction
    exact hplaces hfraction.symm
  · rw [List.append_nil]
    rfl
  · rw [Numeral.decimal_eq]
    dsimp only [Option.getD_some, Option.getD_none]
    rw [List.take_append_drop, ofDigits_toDigits, hfraction, zero_sub]

/-- Digits behind the point, with zeros between. -/
theorem says_below (digits zeros : Nat) :
    Says ⟨digits, -(zeros + (Nat.toDigits 10 digits).length : Nat)⟩
      ('0' :: '.' :: (List.replicate zeros '0' ++ Nat.toDigits 10 digits))
      ⟨false, ['0'], some (List.replicate zeros '0' ++ Nat.toDigits 10 digits), none⟩ := by
  refine ⟨⟨⟨by simp, by simp⟩, fun _ => rfl, _, [], .some ⟨?_, ?_⟩, .none, ?_⟩, rfl, ?_⟩
  · exact List.append_ne_nil_of_right_ne_nil _ Nat.toDigits_ne_nil
  · exact List.forall_mem_append.2 ⟨digits_zeros zeros, (digits_toDigits digits).isDigit⟩
  · rw [List.append_nil]
    rfl
  · have hrun : ofDigits (['0'] ++ (List.replicate zeros '0' ++ Nat.toDigits 10 digits)) =
        digits := by
      rw [← List.append_assoc]
      exact (ofDigits_zeros_append (zeros + 1) _).trans (ofDigits_toDigits digits)
    rw [Numeral.decimal_eq]
    dsimp only [Option.getD_some, Option.getD_none]
    rw [hrun, List.length_append, List.length_replicate, zero_sub]

/-- A power of ten, with a sign where it has one. -/
theorem exponentText_toString (exponent : Int) (signed : Bool) :
    ExponentText ((if 0 ≤ exponent && signed then "e+" else "e") ++ toString exponent).toList
      (some exponent) := by
  have hmark : isExponentMark 'e' = true := rfl
  rcases exponent with n | n
  · have htext := fun {signText} (hsign : SignText signText false) =>
      ExponentText.some hmark hsign (digits_toDigits n)
    simp only [Bool.false_eq_true, if_false, ofDigits_toDigits] at htext
    have hn : (toString (Int.ofNat n)).toList = Nat.toDigits 10 n := Nat.toList_repr
    have hnonneg : 0 ≤ Int.ofNat n := Int.natCast_nonneg n
    rw [decide_eq_true hnonneg, Bool.true_and, String.toList_append, hn]
    rcases signed with _ | _
    · exact htext .none
    · exact htext .plus
  · have htext := ExponentText.some hmark .minus (digits_toDigits (n + 1))
    rw [if_pos rfl, ofDigits_toDigits] at htext
    have hn : (toString (Int.negSucc n)).toList = '-' :: Nat.toDigits 10 (n + 1) := by
      show ("-" ++ (n + 1).repr).toList = _
      rw [String.toList_append, Nat.toList_repr]
      rfl
    have hneg : ¬0 ≤ Int.negSucc n := by omega
    rw [decide_eq_false hneg, Bool.false_and, if_neg Bool.false_ne_true, String.toList_append, hn]
    exact htext

theorem magnitudeExponent_eq (d : Decimal) :
    d.magnitudeExponent = d.exponent + (Nat.toDigits 10 d.digits).length - 1 := by
  rw [magnitudeExponent, length_toString]

/-- A lone digit and a power of ten. -/
theorem says_lone {d : Decimal} {digit : Char} {power : List Char} (hd : d.digits ≠ 0)
    (hrun : Nat.toDigits 10 d.digits = [digit])
    (hpower : ExponentText power (some d.magnitudeExponent)) :
    d.Says ([digit] ++ power) ⟨false, [digit], none, some d.magnitudeExponent⟩ := by
  have hdigits := digits_toDigits d.digits
  have hhead := head?_toDigits_ne hd
  have hvalue := ofDigits_toDigits d.digits
  have hplace := d.magnitudeExponent_eq
  rw [hrun] at hdigits hhead hvalue hplace
  refine ⟨⟨hdigits, fun h => absurd h hhead, [], power, .none, hpower, rfl⟩, rfl, ?_⟩
  have hexponent : d.magnitudeExponent - ([] : List Char).length = d.exponent := by
    rw [hplace, List.length_singleton, List.length_nil]
    omega
  rw [Numeral.decimal_eq]
  dsimp only [Option.getD_some, Option.getD_none]
  rw [List.append_nil, hvalue, hexponent]

/-- A digit before the point, the others behind it, and a power of ten. -/
theorem says_leading {d : Decimal} {digit next : Char} {rest power : List Char} (hd : d.digits ≠ 0)
    (hrun : Nat.toDigits 10 d.digits = digit :: next :: rest)
    (hpower : ExponentText power (some d.magnitudeExponent)) :
    d.Says ([digit] ++ ('.' :: next :: rest ++ power))
      ⟨false, [digit], some (next :: rest), some d.magnitudeExponent⟩ := by
  have hdigits := digits_toDigits d.digits
  have hhead := head?_toDigits_ne hd
  have hvalue := ofDigits_toDigits d.digits
  have hplace := d.magnitudeExponent_eq
  rw [hrun] at hdigits hhead hvalue hplace
  have hfirst : Digits [digit] := ⟨List.cons_ne_nil _ _, fun c hc =>
    hdigits.isDigit c (List.mem_of_mem_head? (List.mem_singleton.1 hc ▸ rfl))⟩
  have hrest : Digits (next :: rest) :=
    ⟨List.cons_ne_nil _ _, fun c hc => hdigits.isDigit c (List.mem_cons_of_mem _ hc)⟩
  refine ⟨⟨hfirst, fun h => absurd h hhead, _, power, .some hrest, hpower, rfl⟩, rfl, ?_⟩
  have hexponent : d.magnitudeExponent - (next :: rest).length = d.exponent := by
    rw [hplace, List.length_cons]
    omega
  rw [Numeral.decimal_eq]
  dsimp only [Option.getD_some]
  rw [List.singleton_append, hvalue, hexponent]

/-- Text with an exponent is a numeral of the value. -/
theorem exists_says_scientific {d : Decimal} (hd : d.digits ≠ 0) (signed : Bool) :
    ∃ n, d.Says (d.scientific signed).toList n ∧ n.IsDecimal := by
  have hpower := exponentText_toString d.magnitudeExponent signed
  rw [scientific, toList_toString, String.append_assoc, String.toList_append]
  generalize ((if 0 ≤ d.magnitudeExponent && signed then "e+" else "e") ++
    toString d.magnitudeExponent).toList = power at hpower ⊢
  rcases hrun : Nat.toDigits 10 d.digits with _ | ⟨digit, _ | ⟨next, rest⟩⟩
  · exact absurd hrun Nat.toDigits_ne_nil
  · have hsays := says_lone hd hrun hpower
    simp only [String.toList_singleton]
    exact ⟨_, hsays, .inr (Option.some_ne_none _)⟩
  · have hsays := says_leading hd hrun hpower
    simp only [String.toList_append, String.toList_singleton, String.toList_ofList,
      List.append_assoc]
    exact ⟨_, hsays, .inl (Option.some_ne_none _)⟩

/-- Positional text is a numeral of the value. -/
theorem exists_says_positional {d : Decimal} (hd : d.digits = 0 → d.exponent = 0)
    (point : Bool) :
    ∃ n, d.Says (d.positional point).toList n ∧ (point = true → n.IsDecimal) := by
  obtain ⟨digits, exponent⟩ := d
  dsimp only at hd
  rw [positional, toList_toString]
  dsimp only
  split_ifs with hsign hpoint hplaces
  · obtain ⟨count, rfl⟩ := Int.eq_ofNat_of_zero_le hsign
    have hsays := says_whole digits count (fun h => by have := hd h; omega)
      (.some ⟨by simp, by simp⟩) (.inr rfl)
    simp only [String.toList_append, zeros, String.toList_ofList, Int.toNat_natCast]
    exact ⟨_, hsays, fun _ => .inl (Option.some_ne_none _)⟩
  · obtain ⟨count, rfl⟩ := Int.eq_ofNat_of_zero_le hsign
    have hsays := says_whole digits count (fun h => by have := hd h; omega) .none (.inl rfl)
    simp only [String.toList_append, zeros, String.toList_ofList, Int.toNat_natCast]
    exact ⟨_, hsays, fun h => absurd h hpoint⟩
  · obtain ⟨places, rfl⟩ : ∃ places : Nat, exponent = -places := ⟨(-exponent).toNat, by omega⟩
    rw [Int.neg_neg, Int.toNat_natCast] at hplaces ⊢
    have hsays := says_between digits (by omega) hplaces
    simp only [String.toList_append, String.toList_ofList, List.append_assoc]
    exact ⟨_, hsays, fun _ => .inl (Option.some_ne_none _)⟩
  · obtain ⟨places, rfl⟩ : ∃ places : Nat, exponent = -places := ⟨(-exponent).toNat, by omega⟩
    rw [Int.neg_neg, Int.toNat_natCast] at hplaces ⊢
    have hsays := says_below digits (places - (Nat.toDigits 10 digits).length)
    rw [Nat.sub_add_cancel (Nat.not_lt.1 hplaces)] at hsays
    simp only [String.toList_append, zeros, String.toList_ofList, List.append_assoc]
    exact ⟨_, hsays, fun _ => .inl (Option.some_ne_none _)⟩

/-- **Decimals that are written.**  The text of a decimal is a numeral of its value, in every
style. -/
theorem exists_says_text {d : Decimal} (hd : d.digits = 0 → d.exponent = 0)
    (style : NumberStyle) :
    ∃ n, d.Says (d.text style).toList n ∧ (style.pointAlways = true → n.IsDecimal) := by
  rw [text]
  split_ifs with hscientific
  · obtain ⟨n, hsays, hdecimal⟩ := exists_says_scientific hscientific.1 style.signedExponent
    exact ⟨n, hsays, fun _ => hdecimal⟩
  · exact exists_says_positional hd style.pointAlways

end Decimal

/-! ## Numbers that are written -/

namespace Binary

/-- **Numbers that are written.**  A finite number is written as a numeral to which it is the
nearest number, in every style. -/
theorem exists_numeralText {x : Double} (hx : x.magnitude < BinaryFormat.double.infinity)
    (style : NumberStyle) :
    ∃ n, NumeralText (x.text style).toList n ∧ (style.pointAlways = true → n.IsDecimal) ∧
      n.nearest? = some x := by
  have hfraction : 0 < BinaryFormat.double.fractionBits := by decide
  have hback := Decimal.nearest_shortest hfraction hx style.tie
  have hzero : (Decimal.shortest .double style.tie x.magnitude).digits = 0 →
      (Decimal.shortest .double style.tie x.magnitude).exponent = 0 :=
    fun h => congrArg Decimal.exponent (Decimal.shortest_of_digits_eq_zero hfraction hx h)
  obtain ⟨n, ⟨htext, hsign, hvalue⟩, hdecimal⟩ :=
    Decimal.exists_says_text hzero style
  have hnan : x.isNaN = false := decide_eq_false hx.not_gt
  have hfinite : x.isInfinite = false := decide_eq_false hx.ne
  -- The sign is that of the number, and the magnitude is the nearest.
  have hnearest : ∀ n' : Numeral, n'.negative = x.negative → n'.decimal = n.decimal →
      n'.nearest? = some x := by
    intro n' hnegative hsame
    have hunits : (Binary.ofUnits n'.negative (n'.decimal.inUnits .double).1
        (n'.decimal.inUnits .double).2 : Double) = x := by
      have hmagnitude := Decimal.nearest_eq_of_value_eq (f := .double) hvalue
      rw [hback, ← hsame] at hmagnitude
      obtain ⟨negative, magnitude, hlt⟩ := x
      obtain rfl : n'.negative = negative := hnegative
      obtain rfl : n'.decimal.nearest .double = magnitude := hmagnitude
      rfl
    rw [Numeral.nearest?]
    dsimp only
    rw [hunits, hfinite]
    rfl
  rw [text, hnan, if_neg Bool.false_ne_true, hfinite, if_neg Bool.false_ne_true,
    String.toList_append]
  rcases hnegative : x.negative with _ | _
  · rw [if_neg Bool.false_ne_true]
    exact ⟨n, htext, hdecimal, hnearest n (hsign.trans hnegative.symm) rfl⟩
  · rw [if_pos rfl]
    exact ⟨{ n with negative := true }, htext.minus hsign, hdecimal,
      hnearest _ hnegative.symm rfl⟩

end Binary

end Peakfile
