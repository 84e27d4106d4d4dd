/-
# Values that nobody reads

A value under a name that means nothing is passed over.  It has to be well formed,
at any depth, but what it says does not matter: a numeral may lie beyond all numbers
and a string may hold half a surrogate pair.  The lists and objects that are open
are kept on a stack, and every round of the walk reads at least one character.
-/
import Peakfile.Json.Lexeme

namespace Peakfile

namespace Json

/-! ## Readings leave less to read -/

theorem length_skipBlanks (text : List Char) : (skipBlanks text).length ≤ text.length :=
  (List.dropWhile_sublist _).length_le

theorem length_word {letters text rest : List Char} (h : word letters text = .ok rest) :
    rest.length ≤ text.length := by
  fun_induction word letters text with
  | case1 => simp_all
  | case2 => simp at h
  | case3 letter letters text ih => have := ih h; simp only [List.length_cons]; omega
  | case4 => simp at h

theorem length_pieces {text rest : List Char} (h : (pieces text).2 = .ok rest) :
    rest.length < text.length := by
  fun_induction pieces text generalizing rest with
  | case2 a b c d text n _ parts ending hp ih
  | case5 letter text _ _ c _ parts ending hp ih
  | case10 c text _ _ _ _ _ _ parts ending hp ih =>
    have := ih (by rw [hp]; exact h)
    simp only [List.length_cons]
    omega
  | case8 text =>
    obtain rfl : text = rest := by simpa using h
    simp
  | _ => simp at h

theorem length_digits {atEnd : Fault} {text run rest : List Char}
    (h : digits atEnd text = .ok (run, rest)) : rest.length < text.length := by
  unfold digits at h
  split at h
  · simp at h
  · next hne =>
    simp only [Except.ok.injEq, Prod.mk.injEq] at h
    obtain ⟨rfl, rfl⟩ := h
    have hl := congrArg List.length (List.takeWhile_append_dropWhile (p := Char.isDigit) (l := text))
    have : 0 < (text.takeWhile Char.isDigit).length := List.length_pos_iff.2 hne
    simp only [List.length_append] at hl
    omega

theorem length_fraction {atEnd : Fault} {text rest : List Char} {run : Option (List Char)}
    (h : fraction atEnd text = .ok (run, rest)) : rest.length ≤ text.length := by
  unfold fraction at h
  split at h
  · next text =>
    cases hd : digits atEnd text with
    | error cause => simp [hd, Except.map] at h
    | ok parts =>
      have := length_digits hd
      simp only [hd, Except.map, Except.ok.injEq, Prod.mk.injEq] at h
      obtain ⟨_, rfl⟩ := h
      simp only [List.length_cons]
      omega
  · simp_all

theorem length_sign (text : List Char) : (sign text).2.length ≤ text.length := by
  unfold sign
  split <;> simp

theorem length_exponent {atEnd : Fault} {text rest : List Char} {power : Option Int}
    (h : exponent atEnd text = .ok (power, rest)) : rest.length ≤ text.length := by
  unfold exponent at h
  split at h
  · simp_all
  · next c text =>
    have hs := length_sign text
    split at h
    · cases hd : digits atEnd (sign text).2 with
      | error cause => simp [hd, Except.map] at h
      | ok parts =>
        have := length_digits hd
        simp only [hd, Except.map, Except.ok.injEq, Prod.mk.injEq] at h
        obtain ⟨_, rfl⟩ := h
        simp only [List.length_cons]
        omega
    · simp_all

theorem length_minus (text : List Char) : (minus text).2.length ≤ text.length := by
  unfold minus
  split <;> simp

theorem length_numeral {atEnd : Fault} {text rest : List Char} {n : Numeral}
    (h : numeral atEnd text = .ok (n, rest)) : rest.length < text.length := by
  have hm := length_minus text
  unfold numeral at h
  split at h
  · simp at h
  · next hd =>
    have := length_digits hd
    split at h
    · simp at h
    · split at h
      · simp at h
      · next hf =>
        have := length_fraction hf
        split at h
        · simp at h
        · next he =>
          have := length_exponent he
          simp only [Except.ok.injEq, Prod.mk.injEq] at h
          obtain ⟨_, rfl⟩ := h
          omega

/-! ## The walk -/

/-- What is open around a value. -/
inductive Frame where
  | list
  | object
  deriving DecidableEq

/-- Pass over a word, string or numeral. -/
def skipScalar : (text : List Char) → Except Fault (List Char)
  | [] => .error .endsEarly
  | c :: text =>
    if c = 'n' then word "ull".toList text
    else if c = 't' then word "rue".toList text
    else if c = 'f' then word "alse".toList text
    else if c = '\x22' then (pieces text).2
    else if c = '-' || c.isDigit then (numeral .malformed (c :: text)).map Prod.snd
    else .error .malformed

/-- Pass over a colon. -/
def skipColon (text : List Char) : Except Fault (List Char) :=
  match skipBlanks text with
  | [] => .error .endsEarly
  | c :: text => if c = ':' then .ok text else .error .malformed

/-- Pass over the name of a member and its colon. -/
def skipName (text : List Char) : Except Fault (List Char) :=
  match skipBlanks text with
  | [] => .error .endsEarly
  | c :: text =>
    if c = '\x22' then
      match (pieces text).2 with
      | .error cause => .error cause
      | .ok text => skipColon text
    else .error .malformed

theorem length_skipScalar {text rest : List Char} (h : skipScalar text = .ok rest) :
    rest.length < text.length := by
  unfold skipScalar at h
  split at h
  · simp at h
  · simp only [List.length_cons]
    split at h
    · have := length_word h; omega
    · split at h
      · have := length_word h; omega
      · split at h
        · have := length_word h; omega
        · split at h
          · have := length_pieces h; omega
          · split at h
            · next c text _ _ _ _ _ =>
              cases hn : numeral .malformed (c :: text) with
              | error cause => simp [hn, Except.map] at h
              | ok parts =>
                have := length_numeral hn
                simp only [hn, Except.map, Except.ok.injEq] at h
                simp only [List.length_cons] at this
                subst h
                omega
            · simp at h

theorem length_skipColon {text rest : List Char} (h : skipColon text = .ok rest) :
    rest.length < text.length := by
  have hb := length_skipBlanks text
  unfold skipColon at h
  split at h
  · simp at h
  · next ht =>
    rw [ht, List.length_cons] at hb
    split at h
    · simp only [Except.ok.injEq] at h; subst h; omega
    · simp at h

theorem length_skipName {text rest : List Char} (h : skipName text = .ok rest) :
    rest.length < text.length := by
  have hb := length_skipBlanks text
  unfold skipName at h
  split at h
  · simp at h
  · next ht =>
    rw [ht, List.length_cons] at hb
    split at h
    · split at h
      · simp at h
      · next hp =>
        have := length_pieces hp
        have := length_skipColon h
        omega
    · simp at h

namespace Frame

/-- The character that closes a frame. -/
def closing : Frame → Char
  | list => ']'
  | object => '\x7d'

/-- The frame that a character opens. -/
def openedBy? : Char → Option Frame
  | '[' => some list
  | '\x7b' => some object
  | _ => none

/-- Pass over what stands before the next value of a frame: nothing in a list, a name
in an object. -/
def skipNext : Frame → List Char → Except Fault (List Char)
  | list, text => .ok text
  | object, text => skipName text

theorem length_skipNext {frame : Frame} {text rest : List Char}
    (h : frame.skipNext text = .ok rest) : rest.length ≤ text.length := by
  cases frame with
  | list => simp_all [skipNext]
  | object => exact Nat.le_of_lt (length_skipName h)

end Frame

/-- What the walk waits for: a value, or whatever may follow one. -/
inductive Awaiting where
  | value
  | more
  deriving DecidableEq

/-- Walk to the end of the value that is open or awaited. -/
def skipFrom : (awaiting : Awaiting) → (stack : List Frame) → (text : List Char) →
    Except Fault (List Char)
  | .more, [], text => .ok text
  | .more, frame :: stack, text =>
    match _h : skipBlanks text with
    | [] => .error .endsEarly
    | c :: rest =>
      if c = frame.closing then skipFrom .more stack rest
      else if c = ',' then
        match _h : frame.skipNext rest with
        | .error cause => .error cause
        | .ok rest => skipFrom .value (frame :: stack) rest
      else .error .malformed
  | .value, stack, text =>
    match _h : skipBlanks text with
    | [] => .error .endsEarly
    | c :: rest =>
      match Frame.openedBy? c with
      | none =>
        match _h : skipScalar (c :: rest) with
        | .error cause => .error cause
        | .ok rest => skipFrom .more stack rest
      | some frame =>
        match _h : skipBlanks rest with
        | [] => .error .endsEarly
        | c :: inner =>
          if c = frame.closing then skipFrom .more stack inner
          else
            match _h : frame.skipNext rest with
            | .error cause => .error cause
            | .ok rest => skipFrom .value (frame :: stack) rest
termination_by _ _ text => text.length
decreasing_by
  · have := length_skipBlanks text
    simp_all only [List.length_cons]
    omega
  · have := length_skipBlanks text
    have := Frame.length_skipNext ‹_›
    simp_all only [List.length_cons]
    omega
  · have := length_skipBlanks text
    have := length_skipScalar ‹_›
    simp_all only [List.length_cons]
    omega
  · have := length_skipBlanks text
    have := length_skipBlanks rest
    simp_all only [List.length_cons]
    omega
  · have := length_skipBlanks text
    have := Frame.length_skipNext ‹_›
    simp_all only [List.length_cons]
    omega

/-- Pass over a value. -/
def skip (text : List Char) : Except Fault (List Char) := skipFrom .value [] text

end Json

end Peakfile
