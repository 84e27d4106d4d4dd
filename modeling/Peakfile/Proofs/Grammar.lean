/-
# What is well formed

The grammar of JSON as inductive relations between a text and what it stands for: strings,
numerals, and values of any depth.  Each reader takes a text of its kind off the front, whatever
follows it: strings (`Json.readString_append`), numerals (`Json.numeral_append`), and, for a
value that nobody reads, the walk to its end (`Json.skip_append`).  A numeral is the one thing
that has no end of its own, so it asks for a text behind it that it does not go on with.
-/
import Mathlib
import Peakfile.Json.Record
import Peakfile.Json.Skip

namespace Peakfile

namespace Json

/-! ## Blanks and words -/

/-- Characters that may stand between lexemes. -/
def Blanks (text : List Char) : Prop := ∀ c ∈ text, isBlank c = true

theorem blanks_nil : Blanks [] := fun _ hc => absurd hc List.not_mem_nil

theorem blanks_cons {c : Char} {text : List Char} (hc : isBlank c = true) (h : Blanks text) :
    Blanks (c :: text) :=
  List.forall_mem_cons.2 ⟨hc, h⟩

theorem skipBlanks_append {blanks : List Char} (h : Blanks blanks) (text : List Char) :
    skipBlanks (blanks ++ text) = skipBlanks text :=
  List.dropWhile_append_of_pos h

theorem skipBlanks_cons {c : Char} (h : isBlank c = false) (text : List Char) :
    skipBlanks (c :: text) = c :: text :=
  List.dropWhile_cons_of_neg (by rw [h]; exact Bool.false_ne_true)

/-- A word is read to its end. -/
theorem word_append (letters rest : List Char) : word letters (letters ++ rest) = .ok rest := by
  induction letters with
  | nil => rfl
  | cons letter letters ih => rw [List.cons_append, word, if_pos rfl, ih]

/-! ## Strings -/

/-- What stands between the quotes of a string, and its pieces: characters as they are, letters
after a backslash, and code units by their digits. -/
inductive Body : List Char → List Piece → Prop
  | nil : Body [] []
  | char {c : Char} {text : List Char} {parts : List Piece} (quote : c ≠ '\x22')
      (backslash : c ≠ '\\') (control : ' ' ≤ c) (rest : Body text parts) :
      Body (c :: text) (.char c :: parts)
  | letter {letter c : Char} {text : List Char} {parts : List Piece}
      (escape : escapeLetter? letter = some c) (rest : Body text parts) :
      Body ('\\' :: letter :: text) (.char c :: parts)
  | unit {a b c d : Char} {n : Nat} {text : List Char} {parts : List Piece}
      (digits : codeUnit? a b c d = some n) (rest : Body text parts) :
      Body ('\\' :: 'u' :: a :: b :: c :: d :: text) (.unit n :: parts)

/-- The characters that pieces stand for.  Surrogates stand for a character in pairs only. -/
inductive Denotes : List Piece → List Char → Prop
  | nil : Denotes [] []
  | char (c : Char) {parts : List Piece} {chars : List Char} (rest : Denotes parts chars) :
      Denotes (.char c :: parts) (c :: chars)
  | unit {n : Nat} {parts : List Piece} {chars : List Char} (high : isHighSurrogate n = false)
      (low : isLowSurrogate n = false) (rest : Denotes parts chars) :
      Denotes (.unit n :: parts) (Char.ofNat n :: chars)
  | pair {n m : Nat} {parts : List Piece} {chars : List Char} (high : isHighSurrogate n = true)
      (low : isLowSurrogate m = true) (rest : Denotes parts chars) :
      Denotes (.unit n :: .unit m :: parts) (pairedChar n m :: chars)

variable {text rest : List Char} {parts : List Piece} {chars : List Char}

/-- A string is taken apart into its pieces. -/
theorem pieces_append (h : Body text parts) (rest : List Char) :
    pieces (text ++ '\x22' :: rest) = (parts, .ok rest) := by
  induction h with
  | nil => simp [pieces]
  | char quote backslash control _ ih =>
    simp [pieces, ih, quote, backslash, not_lt.2 control]
  | @letter letter c text parts escape _ ih =>
    -- No letter after a backslash is the mark of a code unit.
    have hmark : letter ≠ 'u' := by
      rintro rfl
      cases escape
    simp [pieces, ih, escape, hmark]
  | unit digits _ ih => simp [pieces, ih, digits]

/-- What a low surrogate is, no high one is. -/
theorem isLowSurrogate_of_high {n : Nat} (h : isHighSurrogate n = true) :
    isLowSurrogate n = false := by
  simp only [isHighSurrogate, isLowSurrogate, Bool.and_eq_true, decide_eq_true_eq,
    Bool.and_eq_false_iff, decide_eq_false_iff_not] at h ⊢
  omega

/-- Pieces are put together to what they stand for. -/
theorem join_ok (h : Denotes parts chars) (rest : List Char) :
    join (.ok rest) parts = .ok (chars, rest) := by
  induction h with
  | nil => rfl
  | char c _ ih => rw [join, ih]; rfl
  | @unit n parts chars high low _ ih =>
    -- The piece behind a code unit decides which way it is joined.
    rcases parts with _ | ⟨c | m, parts⟩
    · cases ih
      rw [join, high, low, if_neg Bool.false_ne_true, if_neg Bool.false_ne_true]
      rfl
    · rw [join, high, low, Bool.false_or, if_neg Bool.false_ne_true, ih]
      rfl
    · rw [join, high, low, if_neg Bool.false_ne_true, if_neg Bool.false_ne_true, ih]
      rfl
  | pair high low _ ih =>
    rw [join, isLowSurrogate_of_high high, high, low, if_neg Bool.false_ne_true, if_pos rfl,
      if_pos rfl, ih]
    rfl

/-- **Strings.**  A string is read to its closing quote. -/
theorem readString_append (hbody : Body text parts) (hchars : Denotes parts chars)
    (rest : List Char) :
    readString (text ++ '\x22' :: rest) = .ok (String.ofList chars, rest) := by
  rw [readString, pieces_append hbody]
  dsimp only
  rw [join_ok hchars]
  rfl

/-- **Strings that are written.**  Every string can be read back from its escaped text. -/
theorem exists_body (chars : List Char) :
    ∃ parts, Body (chars.flatMap escape) parts ∧ Denotes parts chars := by
  induction chars with
  | nil => exact ⟨[], .nil, .nil⟩
  | cons c chars ih =>
    obtain ⟨parts, hbody, hchars⟩ := ih
    have hletter : ∀ letter, escapeLetter? letter = some c → escape c = ['\\', letter] →
        ∃ parts, Body ((c :: chars).flatMap escape) parts ∧ Denotes parts (c :: chars) := by
      intro letter hletter hescape
      refine ⟨.char c :: parts, ?_, .char c hchars⟩
      rw [List.flatMap_cons, hescape]
      exact .letter hletter hbody
    by_cases hquote : c = '\x22'
    · subst hquote
      exact hletter '\x22' rfl rfl
    by_cases hbackslash : c = '\\'
    · subst hbackslash
      exact hletter '\\' rfl rfl
    by_cases hback : c = '\x08'
    · subst hback
      exact hletter 'b' rfl rfl
    by_cases hform : c = '\x0c'
    · subst hform
      exact hletter 'f' rfl rfl
    by_cases hline : c = '\n'
    · subst hline
      exact hletter 'n' rfl rfl
    by_cases hreturn : c = '\r'
    · subst hreturn
      exact hletter 'r' rfl rfl
    by_cases htab : c = '\t'
    · subst htab
      exact hletter 't' rfl rfl
    rw [List.flatMap_cons, escape, if_neg hquote, if_neg hbackslash, if_neg hback, if_neg hform,
      if_neg hline, if_neg hreturn, if_neg htab]
    split_ifs with hcontrol
    · -- Any other control is written by its code, which is no surrogate.
      have hlt : c.toNat < 32 := hcontrol
      have hunit : ∀ n < 32, codeUnit? '0' '0' (Nat.digitChar (n / 16)) (Nat.digitChar (n % 16)) =
          some n ∧ isHighSurrogate n = false ∧ isLowSurrogate n = false := by decide
      obtain ⟨hdigits, hhigh, hlow⟩ := hunit c.toNat hlt
      have hdenotes := Denotes.unit hhigh hlow hchars
      rw [Char.ofNat_toNat] at hdenotes
      exact ⟨_, .unit hdigits hbody, hdenotes⟩
    · exact ⟨_, .char hquote hbackslash (not_lt.1 hcontrol) hbody, .char c hchars⟩

/-! ## Numerals -/

/-- At least one decimal digit. -/
structure Digits (run : List Char) : Prop where
  ne_nil : run ≠ []
  isDigit : ∀ c ∈ run, c.isDigit = true

/-- The fraction of a numeral, which may be missing. -/
inductive FractionText : List Char → Option (List Char) → Prop
  | none : FractionText [] none
  | some {run : List Char} (digits : Digits run) : FractionText ('.' :: run) (some run)

/-- A sign, which may be missing. -/
inductive SignText : List Char → Bool → Prop
  | none : SignText [] false
  | plus : SignText ['+'] false
  | minus : SignText ['-'] true

/-- The exponent of a numeral, which may be missing. -/
inductive ExponentText : List Char → Option Int → Prop
  | none : ExponentText [] none
  | some {c : Char} {signText run : List Char} {negative : Bool} (mark : isExponentMark c = true)
      (sign : SignText signText negative) (digits : Digits run) :
      ExponentText (c :: (signText ++ run))
        (some (if negative then -(Decimal.ofDigits run : Int) else Decimal.ofDigits run))

/-- The text of a numeral. -/
structure NumeralText (text : List Char) (n : Numeral) : Prop where
  digits : Digits n.whole
  /-- A leading zero is the only whole digit. -/
  leading : n.whole.head? = some '0' → n.whole = ['0']
  text_eq : ∃ fraction exponent, FractionText fraction n.fraction ∧
    ExponentText exponent n.exponent ∧
    text = (if n.negative then ['-'] else []) ++ (n.whole ++ (fraction ++ exponent))

/-- A text that no numeral goes on with. -/
def Stops (text : List Char) : Prop :=
  ∀ c ∈ text.head?, c.isDigit = false ∧ c ≠ '.' ∧ isExponentMark c = false

theorem digits_append {run : List Char} (h : Digits run) (atEnd : Fault)
    (hrest : ∀ c ∈ rest.head?, c.isDigit = false) :
    digits atEnd (run ++ rest) = .ok (run, rest) := by
  have htake : (run ++ rest).takeWhile Char.isDigit = run := by
    rw [List.takeWhile_append_of_pos h.isDigit]
    rcases rest with _ | ⟨c, rest⟩
    · rw [List.takeWhile_nil, List.append_nil]
    · rw [List.takeWhile_cons_of_neg (by rw [hrest c rfl]; exact Bool.false_ne_true),
        List.append_nil]
  have hdrop : (run ++ rest).dropWhile Char.isDigit = rest := by
    rw [List.dropWhile_append_of_pos h.isDigit]
    rcases rest with _ | ⟨c, rest⟩
    · rfl
    · exact List.dropWhile_cons_of_neg (by rw [hrest c rfl]; exact Bool.false_ne_true)
  rw [digits, htake, hdrop]
  rcases run with _ | ⟨c, run⟩
  · exact absurd rfl h.ne_nil
  · rfl

theorem fraction_append {run : Option (List Char)} (h : FractionText text run) (atEnd : Fault)
    (hrest : ∀ c ∈ rest.head?, c.isDigit = false ∧ c ≠ '.') :
    fraction atEnd (text ++ rest) = .ok (run, rest) := by
  cases h with
  | none =>
    rw [List.nil_append, fraction]
    rintro text rfl
    exact (hrest '.' rfl).2 rfl
  | some digits =>
    rw [List.cons_append, fraction, digits_append digits atEnd fun c hc => (hrest c hc).1]
    rfl

theorem sign_append {negative : Bool} (h : SignText text negative)
    (hrest : ∀ c ∈ rest.head?, c.isDigit = true) : sign (text ++ rest) = (negative, rest) := by
  cases h with
  | none =>
    rw [List.nil_append, sign]
    · rintro text rfl
      cases hrest '-' rfl
    · rintro text rfl
      cases hrest '+' rfl
  | plus => rfl
  | minus => rfl

theorem exponent_append {power : Option Int} (h : ExponentText text power) (atEnd : Fault)
    (hrest : Stops rest) : exponent atEnd (text ++ rest) = .ok (power, rest) := by
  cases h with
  | none =>
    rcases rest with _ | ⟨c, rest⟩
    · rfl
    · rw [List.nil_append, exponent, if_neg]
      rw [(hrest c rfl).2.2]
      exact Bool.false_ne_true
  | @some mark sign run negative hmark hsign hdigits =>
    have hhead : ∀ c ∈ (run ++ rest).head?, c.isDigit = true := by
      intro c hc
      obtain ⟨first, run, rfl⟩ := List.exists_cons_of_ne_nil hdigits.ne_nil
      obtain rfl : first = c := Option.some.inj hc
      exact hdigits.isDigit first List.mem_cons_self
    rw [List.cons_append, List.append_assoc, exponent, if_pos hmark, sign_append hsign hhead]
    dsimp only
    rw [digits_append hdigits atEnd fun c hc => (hrest c hc).1]
    rfl

/-- What a fraction and an exponent go on with is no digit. -/
theorem head?_fraction_append {fraction exponent : List Char} {run : Option (List Char)}
    {power : Option Int} (hfraction : FractionText fraction run)
    (hexponent : ExponentText exponent power) (hrest : Stops rest) :
    ∀ c ∈ (fraction ++ (exponent ++ rest)).head?, c.isDigit = false := by
  intro c hc
  cases hfraction with
  | some =>
    obtain rfl : '.' = c := Option.some.inj hc
    rfl
  | none =>
    cases hexponent with
    | none => exact (hrest c hc).1
    | @some mark sign run negative hmark =>
      obtain rfl : mark = c := Option.some.inj hc
      simp only [isExponentMark, Bool.or_eq_true, decide_eq_true_eq] at hmark
      rcases hmark with rfl | rfl <;> rfl

theorem head?_exponent_append {exponent : List Char} {power : Option Int}
    (hexponent : ExponentText exponent power) (hrest : Stops rest) :
    ∀ c ∈ (exponent ++ rest).head?, c.isDigit = false ∧ c ≠ '.' := by
  intro c hc
  cases hexponent with
  | none => exact ⟨(hrest c hc).1, (hrest c hc).2.1⟩
  | @some mark sign run negative hmark =>
    obtain rfl : mark = c := Option.some.inj hc
    simp only [isExponentMark, Bool.or_eq_true, decide_eq_true_eq] at hmark
    rcases hmark with rfl | rfl <;> exact ⟨rfl, by decide⟩

/-- **Numerals.**  A numeral is read to its end. -/
theorem numeral_append {n : Numeral} (h : NumeralText text n) (atEnd : Fault)
    (hrest : Stops rest) : numeral atEnd (text ++ rest) = .ok (n, rest) := by
  obtain ⟨fractionText, exponentText, hfraction, hexponent, rfl⟩ := h.text_eq
  have hminus : ∀ tail, minus ((if n.negative then ['-'] else []) ++ (n.whole ++ tail)) =
      (n.negative, n.whole ++ tail) := by
    intro tail
    obtain ⟨first, whole, hwhole⟩ := List.exists_cons_of_ne_nil h.digits.ne_nil
    have hfirst := h.digits.isDigit first (by rw [hwhole]; exact List.mem_cons_self)
    rcases n.negative with _ | _
    · rw [hwhole]
      show minus (first :: (whole ++ tail)) = _
      rw [minus]
      · rfl
      · rintro text heq
        obtain ⟨rfl, -⟩ := List.cons.inj heq
        cases hfirst
    · rfl
  have hleading : ¬(n.whole.head? = some '0' ∧ 1 < n.whole.length) := by
    rintro ⟨hzero, hlong⟩
    rw [h.leading hzero] at hlong
    exact absurd hlong (by decide)
  simp only [List.append_assoc]
  rw [numeral, hminus]
  dsimp only
  rw [digits_append h.digits atEnd (head?_fraction_append hfraction hexponent hrest)]
  dsimp only
  rw [if_neg hleading, fraction_append hfraction atEnd (head?_exponent_append hexponent hrest)]
  dsimp only
  rw [exponent_append hexponent atEnd hrest]

/-- A text is that of one numeral only. -/
theorem NumeralText.unique {n n' : Numeral} (h : NumeralText text n) (h' : NumeralText text n') :
    n = n' := by
  have hstops : Stops [] := fun _ hc => absurd hc (Option.not_mem_none _)
  have hread := numeral_append h .malformed hstops
  rw [numeral_append h' .malformed hstops] at hread
  exact (congrArg Prod.fst (Except.ok.inj hread)).symm

/-! ## Values -/

/-- The text of a word, string or numeral.  What a string says does not matter. -/
inductive ScalarText : List Char → Prop
  | null : ScalarText "null".toList
  | true : ScalarText "true".toList
  | false : ScalarText "false".toList
  | string {text : List Char} {parts : List Piece} (body : Body text parts) :
      ScalarText ('\x22' :: (text ++ ['\x22']))
  | numeral {text : List Char} {n : Numeral} (numeral : NumeralText text n) : ScalarText text

/-- The character that opens a frame. -/
def Frame.opening : Frame → Char
  | list => '['
  | object => '\x7b'

/-- What stands before a value of a frame: nothing in a list, and in an object a name and a
colon. -/
inductive Lead : Frame → List Char → Prop
  | list : Lead .list []
  | object {before name between : List Char} {parts : List Piece} (blanks : Blanks before)
      (body : Body name parts) (blanks' : Blanks between) :
      Lead .object (before ++ '\x22' :: (name ++ '\x22' :: (between ++ [':'])))

/-- A value, or what stands between the ends of a frame that is not empty. -/
inductive Phrase where
  | value
  | inside (frame : Frame)

/-- What is well formed, at any depth. -/
inductive WellFormed : Phrase → List Char → Prop
  | scalar {text : List Char} (scalar : ScalarText text) : WellFormed .value text
  | empty (frame : Frame) {blanks : List Char} (blank : Blanks blanks) :
      WellFormed .value (frame.opening :: (blanks ++ [frame.closing]))
  | framed (frame : Frame) {text : List Char} (inner : WellFormed (.inside frame) text) :
      WellFormed .value (frame.opening :: (text ++ [frame.closing]))
  | last {frame : Frame} {head before text behind : List Char} (lead : Lead frame head)
      (blanks : Blanks before) (value : WellFormed .value text) (blanks' : Blanks behind) :
      WellFormed (.inside frame) (head ++ (before ++ (text ++ behind)))
  | more {frame : Frame} {head before text behind others : List Char} (lead : Lead frame head)
      (blanks : Blanks before) (value : WellFormed .value text) (blanks' : Blanks behind)
      (rest : WellFormed (.inside frame) others) :
      WellFormed (.inside frame) (head ++ (before ++ (text ++ (behind ++ ',' :: others))))

/-! ## How texts start -/

/-- A numeral starts with a minus or a digit. -/
theorem NumeralText.exists_cons {n : Numeral} (h : NumeralText text n) :
    ∃ c rest, text = c :: rest ∧ (c = '-' || c.isDigit) = true := by
  obtain ⟨fractionText, exponentText, -, -, rfl⟩ := h.text_eq
  obtain ⟨c, whole, hwhole⟩ := List.exists_cons_of_ne_nil h.digits.ne_nil
  have hdigit := h.digits.isDigit c (by rw [hwhole]; exact List.mem_cons_self)
  rcases n.negative with _ | _
  · rw [hwhole]
    exact ⟨c, _, rfl, by rw [hdigit, Bool.or_true]⟩
  · exact ⟨'-', _, rfl, rfl⟩

/-- A text that starts with neither a blank nor the end of a frame. -/
def Starts (text : List Char) : Prop :=
  ∃ c rest, text = c :: rest ∧ isBlank c = false ∧ ∀ frame : Frame, c ≠ frame.closing

theorem starts_cons {c : Char} (hblank : isBlank c = false) (hlist : c ≠ ']')
    (hobject : c ≠ '\x7d') (rest : List Char) : Starts (c :: rest) := by
  refine ⟨c, rest, rfl, hblank, fun frame => ?_⟩
  cases frame
  · exact hlist
  · exact hobject

theorem NumeralText.starts {n : Numeral} (h : NumeralText text n) : Starts text := by
  obtain ⟨c, rest, rfl, hc⟩ := h.exists_cons
  refine starts_cons ?_ ?_ ?_ rest
  · by_contra hblank
    simp only [isBlank, Bool.not_eq_false, Bool.or_eq_true, decide_eq_true_eq] at hblank
    rcases hblank with ((rfl | rfl) | rfl) | rfl <;> cases hc
  · rintro rfl
    cases hc
  · rintro rfl
    cases hc

theorem ScalarText.starts (h : ScalarText text) : Starts text := by
  cases h with
  | null => exact starts_cons (c := 'n') (by decide) (by decide) (by decide) _
  | true => exact starts_cons (c := 't') (by decide) (by decide) (by decide) _
  | false => exact starts_cons (c := 'f') (by decide) (by decide) (by decide) _
  | string => exact starts_cons (by decide) (by decide) (by decide) _
  | numeral hnumeral => exact hnumeral.starts

theorem Frame.isBlank_opening (frame : Frame) : isBlank frame.opening = false := by
  cases frame <;> decide

theorem Frame.isBlank_closing (frame : Frame) : isBlank frame.closing = false := by
  cases frame <;> decide

theorem WellFormed.starts (h : WellFormed .value text) : Starts text := by
  cases h with
  | scalar hscalar => exact hscalar.starts
  | empty frame =>
    exact starts_cons frame.isBlank_opening (by cases frame <;> decide)
      (by cases frame <;> decide) _
  | framed frame =>
    exact starts_cons frame.isBlank_opening (by cases frame <;> decide)
      (by cases frame <;> decide) _

/-- In front of a text that starts, blanks are passed over and nothing else. -/
theorem Starts.skipBlanks (h : Starts text) {blanks : List Char} (hblanks : Blanks blanks)
    (rest : List Char) : skipBlanks (blanks ++ (text ++ rest)) = text ++ rest := by
  obtain ⟨c, tail, rfl, hblank, -⟩ := h
  rw [skipBlanks_append hblanks, List.cons_append, skipBlanks_cons hblank]

/-! ## Passing over scalars and names -/

/-- A word, string or numeral is passed over. -/
theorem skipScalar_append (h : ScalarText text) (hrest : Stops rest) :
    skipScalar (text ++ rest) = .ok rest := by
  cases h with
  | null => exact word_append "ull".toList rest
  | true => exact word_append "rue".toList rest
  | false => exact word_append "alse".toList rest
  | @string text parts hbody =>
    have hpieces := congrArg Prod.snd (pieces_append hbody rest)
    rw [List.cons_append, List.append_assoc]
    exact hpieces
  | @numeral _ n hnumeral =>
    have hread := numeral_append hnumeral .malformed hrest
    obtain ⟨c, tail, rfl, hc⟩ := hnumeral.exists_cons
    have hother : ∀ other : Char, (other = '-' || other.isDigit) = false → c ≠ other := by
      rintro other hother rfl
      rw [hother] at hc
      cases hc
    rw [List.cons_append] at hread ⊢
    rw [skipScalar, if_neg (hother _ rfl), if_neg (hother _ rfl), if_neg (hother _ rfl),
      if_neg (hother _ rfl), if_pos hc, hread]
    rfl

/-- A scalar opens no frame. -/
theorem ScalarText.openedBy? (h : ScalarText text) :
    ∃ c rest, text = c :: rest ∧ Frame.openedBy? c = none := by
  cases h with
  | null => exact ⟨'n', _, rfl, rfl⟩
  | true => exact ⟨'t', _, rfl, rfl⟩
  | false => exact ⟨'f', _, rfl, rfl⟩
  | string => exact ⟨_, _, rfl, rfl⟩
  | numeral hnumeral =>
    obtain ⟨c, rest, rfl, hc⟩ := hnumeral.exists_cons
    refine ⟨c, rest, rfl, ?_⟩
    rw [Frame.openedBy?]
    · rintro rfl
      cases hc
    · rintro rfl
      cases hc

theorem skipColon_append {blanks : List Char} (h : Blanks blanks) (rest : List Char) :
    skipColon (blanks ++ ':' :: rest) = .ok rest := by
  rw [skipColon, skipBlanks_append h, skipBlanks_cons (by decide)]
  exact if_pos rfl

/-- What stands before a value of a frame is passed over. -/
theorem skipNext_append {frame : Frame} {head : List Char} (h : Lead frame head)
    (rest : List Char) : frame.skipNext (head ++ rest) = .ok rest := by
  cases h with
  | list => rfl
  | object blanks body blanks' =>
    simp only [List.append_assoc, List.cons_append, List.nil_append]
    rw [Frame.skipNext, skipName, skipBlanks_append blanks, skipBlanks_cons (by decide)]
    dsimp only
    rw [if_pos rfl, pieces_append body]
    exact skipColon_append blanks' rest

/-! ## The steps of the walk -/

variable {frame : Frame} {stack : List Frame} {inner tail : List Char} {c : Char}

theorem skipFrom_closing (h : skipBlanks text = frame.closing :: rest) :
    skipFrom .more (frame :: stack) text = skipFrom .more stack rest := by
  rw [skipFrom]
  split
  · next heq =>
    rw [h] at heq
    cases heq
  · next heq =>
    rw [h] at heq
    obtain ⟨rfl, rfl⟩ := List.cons.inj heq
    exact if_pos rfl

theorem skipFrom_comma (h : skipBlanks text = ',' :: rest)
    (hnext : frame.skipNext rest = .ok inner) :
    skipFrom .more (frame :: stack) text = skipFrom .value (frame :: stack) inner := by
  have hcomma : ',' ≠ frame.closing := by cases frame <;> decide
  rw [skipFrom]
  split
  · next heq =>
    rw [h] at heq
    cases heq
  · next heq =>
    rw [h] at heq
    obtain ⟨rfl, rfl⟩ := List.cons.inj heq
    rw [if_neg hcomma, if_pos rfl]
    split
    · next heq =>
      rw [hnext] at heq
      cases heq
    · next heq =>
      rw [hnext] at heq
      rw [Except.ok.inj heq]

theorem skipFrom_scalar (h : skipBlanks text = c :: tail) (hc : Frame.openedBy? c = none)
    (hscalar : skipScalar (c :: tail) = .ok rest) :
    skipFrom .value stack text = skipFrom .more stack rest := by
  rw [skipFrom]
  split
  · next heq =>
    rw [h] at heq
    cases heq
  · next heq =>
    rw [h] at heq
    obtain ⟨rfl, rfl⟩ := List.cons.inj heq
    rw [hc]
    dsimp only
    split
    · next heq =>
      rw [hscalar] at heq
      cases heq
    · next heq =>
      rw [hscalar] at heq
      rw [Except.ok.inj heq]

theorem Frame.openedBy?_opening (frame : Frame) : openedBy? frame.opening = some frame := by
  cases frame <;> rfl

theorem skipFrom_empty (h : skipBlanks text = frame.opening :: inner)
    (hinner : skipBlanks inner = frame.closing :: rest) :
    skipFrom .value stack text = skipFrom .more stack rest := by
  rw [skipFrom]
  split
  · next heq =>
    rw [h] at heq
    cases heq
  · next heq =>
    rw [h] at heq
    obtain ⟨rfl, rfl⟩ := List.cons.inj heq
    rw [frame.openedBy?_opening]
    dsimp only
    split
    · next heq =>
      rw [hinner] at heq
      cases heq
    · next heq =>
      rw [hinner] at heq
      obtain ⟨rfl, rfl⟩ := List.cons.inj heq
      exact if_pos rfl

theorem skipFrom_framed (h : skipBlanks text = frame.opening :: inner)
    (hinner : skipBlanks inner = c :: tail) (hc : c ≠ frame.closing)
    (hnext : frame.skipNext inner = .ok rest) :
    skipFrom .value stack text = skipFrom .value (frame :: stack) rest := by
  rw [skipFrom]
  split
  · next heq =>
    rw [h] at heq
    cases heq
  · next heq =>
    rw [h] at heq
    obtain ⟨rfl, rfl⟩ := List.cons.inj heq
    rw [frame.openedBy?_opening]
    dsimp only
    split
    · next heq =>
      rw [hinner] at heq
      cases heq
    · next heq =>
      rw [hinner] at heq
      obtain ⟨rfl, rfl⟩ := List.cons.inj heq
      rw [if_neg hc]
      split
      · next heq =>
        rw [hnext] at heq
        cases heq
      · next heq =>
        rw [hnext] at heq
        rw [Except.ok.inj heq]

/-! ## The whole walk -/

/-- Blanks end a numeral, and so does what ends one behind them. -/
theorem Stops.blanks {blanks : List Char} (h : Blanks blanks) (hrest : Stops rest) :
    Stops (blanks ++ rest) := by
  rcases blanks with _ | ⟨c, blanks⟩
  · exact hrest
  · intro first hfirst
    obtain rfl : c = first := Option.some.inj hfirst
    have hblank := h c List.mem_cons_self
    simp only [isBlank, Bool.or_eq_true, decide_eq_true_eq] at hblank
    rcases hblank with ((rfl | rfl) | rfl) | rfl <;> exact ⟨rfl, by decide, by decide⟩

theorem stops_cons {c : Char} (hdigit : c.isDigit = false) (hpoint : c ≠ '.')
    (hmark : isExponentMark c = false) (rest : List Char) : Stops (c :: rest) := by
  intro first hfirst
  obtain rfl : c = first := Option.some.inj hfirst
  exact ⟨hdigit, hpoint, hmark⟩

theorem stops_comma (rest : List Char) : Stops (',' :: rest) :=
  stops_cons (by decide) (by decide) (by decide) rest

theorem stops_closing (frame : Frame) (rest : List Char) : Stops (frame.closing :: rest) := by
  cases frame <;> exact stops_cons (by decide) (by decide) (by decide) rest

/-- In front of a value that starts, what leads to it does not start like the end of its
frame. -/
theorem Lead.skipBlanks_ne_closing {head before : List Char} (h : Lead frame head)
    (hblanks : Blanks before) (htext : Starts text) (rest : List Char) :
    ∃ c tail, skipBlanks (head ++ (before ++ (text ++ rest))) = c :: tail ∧ c ≠ frame.closing := by
  cases h with
  | list =>
    rw [List.nil_append, htext.skipBlanks hblanks]
    obtain ⟨c, tail, rfl, -, hclosing⟩ := htext
    exact ⟨c, tail ++ rest, rfl, hclosing _⟩
  | object blanks body blanks' =>
    rw [List.append_assoc, skipBlanks_append blanks, List.cons_append,
      skipBlanks_cons (by decide)]
    exact ⟨_, _, rfl, by decide⟩

/-- What the walk does with a phrase: it passes over a value and over the blanks before it, and
over what is left of a frame and its end.  A frame that is not empty does not start like its
end. -/
def Walks : Phrase → List Char → Prop
  | .value, text => ∀ stack blanks rest, Blanks blanks → Stops rest →
      skipFrom .value stack (blanks ++ (text ++ rest)) = skipFrom .more stack rest
  | .inside frame, text =>
      (∀ rest, ∃ c tail, skipBlanks (text ++ rest) = c :: tail ∧ c ≠ frame.closing) ∧
        ∀ stack rest, ∃ inner, frame.skipNext (text ++ frame.closing :: rest) = .ok inner ∧
          skipFrom .value (frame :: stack) inner = skipFrom .more stack rest

theorem walks_scalar (h : ScalarText text) : Walks .value text := by
  intro stack blanks rest hblanks hrest
  have hskip := h.starts.skipBlanks hblanks rest
  have hscalar := skipScalar_append h hrest
  obtain ⟨c, tail, rfl, hc⟩ := h.openedBy?
  exact skipFrom_scalar hskip hc hscalar

theorem walks_empty (frame : Frame) (h : Blanks inner) :
    Walks .value (frame.opening :: (inner ++ [frame.closing])) := by
  intro stack blanks rest hblanks _
  have hopen : skipBlanks (blanks ++ (frame.opening :: (inner ++ [frame.closing]) ++ rest)) =
      frame.opening :: (inner ++ frame.closing :: rest) := by
    rw [skipBlanks_append hblanks, List.cons_append, skipBlanks_cons frame.isBlank_opening,
      List.append_assoc]
    rfl
  refine skipFrom_empty hopen ?_
  rw [skipBlanks_append h, skipBlanks_cons frame.isBlank_closing]

theorem walks_framed (frame : Frame) (h : Walks (.inside frame) text) :
    Walks .value (frame.opening :: (text ++ [frame.closing])) := by
  intro stack blanks rest hblanks _
  obtain ⟨hstart, hinside⟩ := h
  have hopen : skipBlanks (blanks ++ (frame.opening :: (text ++ [frame.closing]) ++ rest)) =
      frame.opening :: (text ++ frame.closing :: rest) := by
    rw [skipBlanks_append hblanks, List.cons_append, skipBlanks_cons frame.isBlank_opening,
      List.append_assoc]
    rfl
  obtain ⟨c, tail, hc, hclosing⟩ := hstart (frame.closing :: rest)
  obtain ⟨inner, hnext, hwalk⟩ := hinside stack rest
  rw [skipFrom_framed hopen hc hclosing hnext, hwalk]

theorem walks_last {head before behind : List Char} (hlead : Lead frame head)
    (hblanks : Blanks before) (hvalue : WellFormed .value text) (hblanks' : Blanks behind)
    (h : Walks .value text) : Walks (.inside frame) (head ++ (before ++ (text ++ behind))) := by
  refine ⟨fun rest => ?_, fun stack rest => ⟨before ++ (text ++ (behind ++ frame.closing :: rest)),
    ?_, ?_⟩⟩
  · simp only [List.append_assoc]
    exact hlead.skipBlanks_ne_closing hblanks hvalue.starts _
  · simp only [List.append_assoc]
    exact skipNext_append hlead _
  · rw [h _ _ _ hblanks ((stops_closing frame rest).blanks hblanks')]
    refine skipFrom_closing ?_
    rw [skipBlanks_append hblanks', skipBlanks_cons frame.isBlank_closing]

theorem walks_more {head before behind others : List Char} (hlead : Lead frame head)
    (hblanks : Blanks before) (hvalue : WellFormed .value text) (hblanks' : Blanks behind)
    (h : Walks .value text) (hothers : Walks (.inside frame) others) :
    Walks (.inside frame) (head ++ (before ++ (text ++ (behind ++ ',' :: others)))) := by
  obtain ⟨-, hinside⟩ := hothers
  refine ⟨fun rest => ?_, fun stack rest =>
    ⟨before ++ (text ++ (behind ++ ',' :: (others ++ frame.closing :: rest))), ?_, ?_⟩⟩
  · simp only [List.append_assoc]
    exact hlead.skipBlanks_ne_closing hblanks hvalue.starts _
  · simp only [List.append_assoc, List.cons_append]
    exact skipNext_append hlead _
  · obtain ⟨inner, hnext, hwalk⟩ := hinside stack rest
    rw [h _ _ _ hblanks ((stops_comma _).blanks hblanks'), ← hwalk]
    refine skipFrom_comma ?_ hnext
    rw [skipBlanks_append hblanks', skipBlanks_cons (by decide)]

/-- Every phrase that is well formed is walked as it should be, one case for each form. -/
theorem WellFormed.walks {phrase : Phrase} (h : WellFormed phrase text) : Walks phrase text := by
  induction h with
  | scalar hscalar => exact walks_scalar hscalar
  | empty frame hblanks => exact walks_empty frame hblanks
  | framed frame _ ih => exact walks_framed frame ih
  | last hlead hblanks hvalue hblanks' ih => exact walks_last hlead hblanks hvalue hblanks' ih
  | more hlead hblanks hvalue hblanks' _ ih ih' =>
    exact walks_more hlead hblanks hvalue hblanks' ih ih'

/-- **Values that nobody reads.**  Exactly one value is passed over, at any depth. -/
theorem skip_append (h : WellFormed .value text) {blanks : List Char} (hblanks : Blanks blanks)
    (hrest : Stops rest) : skip (blanks ++ (text ++ rest)) = .ok rest := by
  rw [skip, h.walks [] blanks rest hblanks hrest, skipFrom]

end Json

end Peakfile
