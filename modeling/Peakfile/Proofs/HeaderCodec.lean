/-
# Reading headers back

A header is a row of words, and what is read are the words at its offsets
(`Header.wordAt_words`, `Header.take_eq_words`).  So a header is read back from its bytes
and leaves those behind them alone, and bytes that are read as a header begin with the bytes
of just this header.  What else may stand at the start of a file is refused, and
`Header.Refused` lists for which reason: the first one that applies, in the order length,
flags, version, channel count.
-/
import Mathlib
import Peakfile.Header

namespace Peakfile

/-! ## Words -/

namespace LittleEndian

/-- A word of `k` bytes is less than the `k`-th power of 256. -/
theorem decode_lt (bytes : List UInt8) : decode bytes < Nat.pow 256 bytes.length := by
  induction bytes with
  | nil => exact Nat.one_pos
  | cons b rest ih =>
    have hb := b.toNat_lt
    have hpow : Nat.pow 256 (b :: rest).length = Nat.pow 256 rest.length * 256 := rfl
    rw [decode, hpow]
    omega

end LittleEndian

namespace Header

variable {data : List UInt8}

/-- A word that stands at an offset is read there. -/
theorem wordAt_words {words : List Nat} (hwords : ∀ word ∈ words, word < UInt32.size)
    (rest : List UInt8) {i : Nat} (hi : i < words.length) :
    (wordAt (words.flatMap (LittleEndian.encode 4) ++ rest) (4 * i)).toNat = words[i] := by
  induction words generalizing i with
  | nil => cases hi
  | cons word words ih =>
    have hlength : (LittleEndian.encode 4 word).length = 4 := LittleEndian.length_encode 4 word
    cases i with
    | zero =>
      have hword : word < UInt32.size := hwords word List.mem_cons_self
      rw [wordAt, List.flatMap_cons, List.append_assoc, Nat.mul_zero, List.drop_zero,
        List.take_left' hlength, LittleEndian.decode_encode 4 word hword, UInt32.toNat_ofNat',
        Nat.mod_eq_of_lt hword]
      rfl
    | succ i =>
      have hdrop : ((word :: words).flatMap (LittleEndian.encode 4) ++ rest).drop (4 * (i + 1)) =
          (words.flatMap (LittleEndian.encode 4) ++ rest).drop (4 * i) := by
        rw [List.flatMap_cons, List.append_assoc, Nat.mul_succ, Nat.add_comm, ← List.drop_drop,
          List.drop_left' hlength]
      rw [wordAt, hdrop]
      exact ih (fun w hw => hwords w (List.mem_cons_of_mem _ hw)) (Nat.lt_of_succ_lt_succ hi)

/-- The bytes of the word at an offset are those that stand there. -/
theorem encode_wordAt {offset : Nat} (h : offset + 4 ≤ data.length) :
    LittleEndian.encode 4 (wordAt data offset).toNat = (data.drop offset).take 4 := by
  have hlength : ((data.drop offset).take 4).length = 4 := by
    rw [List.length_take, List.length_drop]
    omega
  have hlt := LittleEndian.decode_lt ((data.drop offset).take 4)
  rw [hlength] at hlt
  have hread := LittleEndian.encode_decode ((data.drop offset).take 4)
  rw [hlength] at hread
  rw [wordAt, UInt32.toNat_ofNat', Nat.mod_eq_of_lt hlt, hread]

/-- Bytes begin with the words that are read at their offsets. -/
theorem take_eq_words {count : Nat} (h : 4 * count ≤ data.length) :
    data.take (4 * count) =
      ((List.range count).map fun i => (wordAt data (4 * i)).toNat).flatMap
        (LittleEndian.encode 4) := by
  induction count with
  | zero => rfl
  | succ count ih =>
    rw [Nat.mul_succ] at h ⊢
    rw [List.take_add, ih (by omega), List.range_succ, List.map_append, List.flatMap_append,
      List.map_singleton, List.flatMap_singleton, encode_wordAt h]

/-! ## Headers -/

theorem flags_lt (h : Header) : h.flags < 2 := by
  rw [flags]
  cases h.depth <;> decide

/-- Every word of a header has room. -/
theorem words_lt (h : Header) : ∀ word ∈ h.words, word < UInt32.size := by
  intro word hword
  rcases List.mem_append.1 hword with hword | hword
  · have hversion : h.version < UInt32.size := by
      rw [version]
      split_ifs <;> decide
    have hflags : h.flags < UInt32.size := h.flags_lt.trans (by decide)
    simp only [List.mem_cons, List.not_mem_nil, or_false] at hword
    rcases hword with rfl | rfl | rfl | rfl | rfl
    · exact hversion
    · exact hflags
    all_goals exact UInt32.toNat_lt_size _
  · obtain ⟨channels, -, rfl⟩ := List.mem_map.1 hword
    exact channels.toNat_lt_size

/-- The words of a header are read from its bytes, whatever comes behind them. -/
theorem wordAt_encode (h : Header) (rest : List UInt8) {i : Nat} (hi : i < h.words.length) :
    (wordAt (h.encode ++ rest) (4 * i)).toNat = h.words[i] :=
  wordAt_words h.words_lt rest hi

/-- Whether any flag but the lowest is set. -/
def HasUnknownFlag (data : List UInt8) : Prop :=
  ∃ bit, bit ≠ 0 ∧ (wordAt data 4).toNat.testBit bit = true

theorem hasUnknownFlag_iff : HasUnknownFlag data ↔ 2 ≤ (wordAt data 4).toNat := by
  constructor
  · rintro ⟨bit, hbit, htest⟩
    have hle : 2 ^ bit ≤ (wordAt data 4).toNat := Nat.ge_two_pow_of_testBit htest
    have hpow : 2 ^ 1 ≤ 2 ^ bit := Nat.pow_le_pow_right (by decide) (Nat.pos_of_ne_zero hbit)
    omega
  · intro h
    obtain ⟨bit, htest⟩ := Nat.exists_testBit_of_ne_zero (x := (wordAt data 4).toNat / 2) (by omega)
    refine ⟨bit + 1, Nat.succ_ne_zero bit, ?_⟩
    rw [Nat.testBit_succ, htest]

/-- Why the start of some bytes is no header.  The flags are judged before the version. -/
inductive Refused (data : List UInt8) : Error → Prop
  | short (hlength : data.length < 20) : Refused data (.device .endedEarly)
  | flags (hlength : 20 ≤ data.length) (hflags : HasUnknownFlag data) :
      Refused data (.format (.unknownFlags (wordAt data 4).toNat))
  | version (hlength : 20 ≤ data.length) (hflags : ¬ HasUnknownFlag data)
      (hone : (wordAt data 0).toNat ≠ 1) (htwo : (wordAt data 0).toNat ≠ 2) :
      Refused data (.format (.unsupportedVersion (wordAt data 0).toNat))
  | shortOfChannels (hlength : 20 ≤ data.length) (hflags : ¬ HasUnknownFlag data)
      (hversion : (wordAt data 0).toNat = 2) (hshort : data.length < 24) :
      Refused data (.device .endedEarly)
  | noChannels (hlength : 24 ≤ data.length) (hflags : ¬ HasUnknownFlag data)
      (hversion : (wordAt data 0).toNat = 2) (hchannels : (wordAt data 20).toNat = 0) :
      Refused data (.format .zeroChannels)

/-- The header at the start of the data, as far as it has the same words in both versions. -/
def common (data : List UInt8) : Header where
  depth := if (wordAt data 4).toNat = 1 then .eight else .sixteen
  sampleRate := wordAt data 8
  windowFrames := wordAt data 12
  windows := wordAt data 16
  channels := none

/-- What is refused is answered with the reason. -/
theorem decode_of_refused {e : Error} (h : Refused data e) : decode data = .error e := by
  unfold decode
  cases h with
  | short hlength => rw [if_pos hlength]
  | flags hlength hflags =>
    rw [hasUnknownFlag_iff] at hflags
    rw [if_neg (Nat.not_lt.2 hlength)]
    dsimp only
    rw [if_pos hflags]
  | version hlength hflags hone htwo =>
    rw [hasUnknownFlag_iff] at hflags
    rw [if_neg (Nat.not_lt.2 hlength)]
    dsimp only
    rw [if_neg hflags, if_neg hone, if_neg htwo]
  | shortOfChannels hlength hflags hversion hshort =>
    rw [hasUnknownFlag_iff] at hflags
    rw [if_neg (Nat.not_lt.2 hlength)]
    dsimp only
    rw [if_neg hflags, hversion, if_neg (by decide), if_pos rfl, if_pos hshort]
  | noChannels hlength hflags hversion hchannels =>
    rw [hasUnknownFlag_iff] at hflags
    rw [if_neg (by omega)]
    dsimp only
    rw [if_neg hflags, hversion, if_neg (by decide), if_pos rfl, if_neg (Nat.not_lt.2 hlength),
      if_pos (UInt32.toNat_inj.1 hchannels)]

/-- What is not refused begins with a header of either version. -/
theorem decode_cases (data : List UInt8) :
    (∃ e, Refused data e) ∨
      (20 ≤ data.length ∧ (wordAt data 4).toNat < 2 ∧ (wordAt data 0).toNat = 1 ∧
        decode data = .ok (common data, data.drop 20)) ∨
      (24 ≤ data.length ∧ (wordAt data 4).toNat < 2 ∧ (wordAt data 0).toNat = 2 ∧
        wordAt data 20 ≠ 0 ∧
        decode data =
          .ok ({ common data with channels := some (wordAt data 20) }, data.drop 24)) := by
  by_cases hlength : data.length < 20
  · exact .inl ⟨_, .short hlength⟩
  have hlong := Nat.not_lt.1 hlength
  by_cases hflags : HasUnknownFlag data
  · exact .inl ⟨_, .flags hlong hflags⟩
  have hflag : ¬ 2 ≤ (wordAt data 4).toNat := mt hasUnknownFlag_iff.2 hflags
  by_cases hone : (wordAt data 0).toNat = 1
  · refine .inr (.inl ⟨hlong, Nat.not_le.1 hflag, hone, ?_⟩)
    rw [decode, if_neg hlength]
    dsimp only
    rw [if_neg hflag, if_pos hone]
    rfl
  by_cases htwo : (wordAt data 0).toNat = 2
  · by_cases hshort : data.length < 24
    · exact .inl ⟨_, .shortOfChannels hlong hflags htwo hshort⟩
    by_cases hchannels : wordAt data 20 = 0
    · have hzero := congrArg UInt32.toNat hchannels
      exact .inl ⟨_, .noChannels (Nat.not_lt.1 hshort) hflags htwo hzero⟩
    refine .inr (.inr ⟨Nat.not_lt.1 hshort, Nat.not_le.1 hflag, htwo, hchannels, ?_⟩)
    rw [decode, if_neg hlength]
    dsimp only
    rw [if_neg hflag, htwo, if_neg (by decide), if_pos rfl, if_neg hshort, if_neg hchannels]
    rfl
  · exact .inl ⟨_, .version hlong hflags hone htwo⟩

/-! ### From bytes to headers and back -/

theorem flags_common (hflag : (wordAt data 4).toNat < 2) :
    (common data).flags = (wordAt data 4).toNat := by
  rw [flags, common]
  dsimp only
  split_ifs with hone
  · exact hone.symm
  · show 0 = _
    omega

/-- What is read as a header stands at the start of the data, and the rest is behind it. -/
theorem eq_encode_of_decode {h : Header} {rest : List UInt8} (hread : decode data = .ok (h, rest)) :
    h.channels ≠ some 0 ∧ data = h.encode ++ rest := by
  rcases decode_cases data with ⟨e, hrefused⟩ | ⟨hlength, hflag, hversion, heq⟩ |
    ⟨hlength, hflag, hversion, hchannels, heq⟩
  · rw [decode_of_refused hrefused] at hread
    cases hread
  · obtain ⟨rfl, rfl⟩ := Prod.mk.inj (Except.ok.inj (heq.symm.trans hread))
    refine ⟨nofun, ?_⟩
    have hwords : (common data).words =
        (List.range 5).map fun i => (wordAt data (4 * i)).toNat := by
      show [1, (common data).flags, _, _, _] = [(wordAt data 0).toNat, _, _, _, _]
      rw [flags_common hflag, hversion]
      rfl
    rw [encode, hwords, ← take_eq_words hlength]
    exact (List.take_append_drop 20 data).symm
  · obtain ⟨rfl, rfl⟩ := Prod.mk.inj (Except.ok.inj (heq.symm.trans hread))
    refine ⟨fun h => hchannels (Option.some.inj h), ?_⟩
    have hwords : { common data with channels := some (wordAt data 20) }.words =
        (List.range 6).map fun i => (wordAt data (4 * i)).toNat := by
      show [2, (common data).flags, _, _, _, _] = [(wordAt data 0).toNat, _, _, _, _, _]
      rw [flags_common hflag, hversion]
      rfl
    rw [encode, hwords, ← take_eq_words hlength]
    exact (List.take_append_drop 24 data).symm

/-- The bytes of a header are not refused, unless it counts no channels. -/
theorem not_refused_encode {h : Header} (hchannels : h.channels ≠ some 0) (rest : List UInt8)
    (e : Error) : ¬ Refused (h.encode ++ rest) e := by
  obtain ⟨depth, rate, frames, windows, channels⟩ := h
  have hword := fun i => wordAt_encode ⟨depth, rate, frames, windows, channels⟩ rest (i := i)
  have hlength :=
    congrArg (· + rest.length) (length_encode ⟨depth, rate, frames, windows, channels⟩)
  rw [← List.length_append] at hlength
  generalize encode _ ++ rest = data at hword hlength ⊢
  have hflags : (wordAt data 4).toNat = flags ⟨depth, rate, frames, windows, channels⟩ :=
    hword 1 (Nat.succ_lt_succ (Nat.succ_pos _))
  have hknown : ¬ HasUnknownFlag data := by
    rw [hasUnknownFlag_iff, hflags]
    exact Nat.not_le.2 (flags_lt _)
  cases channels with
  | none =>
    have hversion : (wordAt data 0).toNat = 1 := hword 0 (Nat.succ_pos _)
    replace hlength : data.length = 20 + rest.length := hlength
    intro hrefused
    cases hrefused with
    | short hshort => omega
    | flags _ hunknown => exact hknown hunknown
    | version _ _ hone _ => exact hone hversion
    | shortOfChannels _ _ htwo _ => omega
    | noChannels _ _ htwo _ => omega
  | some channels =>
    have hversion : (wordAt data 0).toNat = 2 := hword 0 (Nat.succ_pos _)
    have hcount : (wordAt data 20).toNat = channels.toNat := hword 5 (Nat.lt_succ_self 5)
    have hpos : channels.toNat ≠ 0 := fun hzero =>
      hchannels (congrArg some (UInt32.toNat_inj.1 (hzero : _ = (0 : UInt32).toNat)))
    replace hlength : data.length = 24 + rest.length := hlength
    intro hrefused
    cases hrefused with
    | short hshort => omega
    | flags _ hunknown => exact hknown hunknown
    | version _ _ _ htwo => exact htwo hversion
    | shortOfChannels _ _ _ hshort => omega
    | noChannels _ _ _ hzero => omega

/-- Headers are told apart by their bytes, whatever comes behind them. -/
theorem encode_append_inj {h h' : Header} {rest rest' : List UInt8}
    (heq : h.encode ++ rest = h'.encode ++ rest') : h = h' ∧ rest = rest' := by
  have hword : ∀ i (hi : i < h.words.length) (hi' : i < h'.words.length),
      h.words[i] = h'.words[i] := by
    intro i hi hi'
    rw [← h.wordAt_encode rest hi, ← h'.wordAt_encode rest' hi', heq]
  obtain ⟨depth, rate, frames, windows, channels⟩ := h
  obtain ⟨depth', rate', frames', windows', channels'⟩ := h'
  have hversion := hword 0 (Nat.succ_pos _) (Nat.succ_pos _)
  have hflags := hword 1 (by simp [words]) (by simp [words])
  obtain rfl : rate = rate' := UInt32.toNat_inj.1 (hword 2 (by simp [words]) (by simp [words]))
  obtain rfl : frames = frames' := UInt32.toNat_inj.1 (hword 3 (by simp [words]) (by simp [words]))
  obtain rfl : windows = windows' :=
    UInt32.toNat_inj.1 (hword 4 (by simp [words]) (by simp [words]))
  obtain rfl : depth = depth' := by
    cases depth <;> cases depth' <;> first | rfl | cases hflags
  obtain rfl : channels = channels' := by
    rcases channels with _ | channels <;> rcases channels' with _ | channels'
    · rfl
    · cases hversion
    · cases hversion
    · exact congrArg some (UInt32.toNat_inj.1 (hword 5 (Nat.lt_succ_self 5) (Nat.lt_succ_self 5)))
  exact ⟨rfl, List.append_cancel_left heq⟩

/-- A header is read back. -/
theorem decode_encode_append {h : Header} (hchannels : h.channels ≠ some 0) (rest : List UInt8) :
    decode (h.encode ++ rest) = .ok (h, rest) := by
  rcases hread : decode (h.encode ++ rest) with e | ⟨h', rest'⟩
  · rcases decode_cases (h.encode ++ rest) with ⟨e, hrefused⟩ | ⟨-, -, -, heq⟩ | ⟨-, -, -, -, heq⟩
    · exact absurd hrefused (not_refused_encode hchannels rest e)
    all_goals
      rw [hread] at heq
      cases heq
  · obtain ⟨rfl, rfl⟩ := encode_append_inj (eq_encode_of_decode hread).2
    rfl

/-- **Exactly the headers are read.**  Bytes are read as a header and a rest if and only if
the header does not count zero channels, and the bytes are those of the header with the rest
behind them; these take the room that the header's version says.  All other bytes are
refused, each for the first reason that applies. -/
theorem decode_eq_ok_iff_and_eq_error_iff (data : List UInt8) :
    (∀ h rest, decode data = .ok (h, rest) ↔
      h.channels ≠ some 0 ∧ data = h.encode ++ rest) ∧
    (∀ h : Header, h.encode.length = h.size) ∧
    ∀ e, decode data = .error e ↔ Refused data e := by
  refine ⟨fun h rest => ⟨eq_encode_of_decode, ?_⟩, length_encode, fun e => ⟨?_, decode_of_refused⟩⟩
  · rintro ⟨hchannels, rfl⟩
    exact decode_encode_append hchannels rest
  · intro hread
    rcases decode_cases data with ⟨e', hrefused⟩ | ⟨-, -, -, heq⟩ | ⟨-, -, -, -, heq⟩
    · obtain rfl := Except.error.inj ((decode_of_refused hrefused).symm.trans hread)
      exact hrefused
    all_goals
      rw [hread] at heq
      cases heq

/-- A flag that is not known is named before a version that is not known. -/
example : decode ([9, 0, 0, 0, 6, 0, 0, 0] ++ List.replicate 12 0) =
    .error (.format (.unknownFlags 6)) := by
  decide

end Header

end Peakfile
