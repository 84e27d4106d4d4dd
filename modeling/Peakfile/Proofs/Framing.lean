/-
# Blocks of a stream of bytes

What a framer answers is said of the bytes of its source as a whole.  A call of the framer
is a row of read calls (`Framer.next_eq_step`), and each of them keeps the framer and its
source in line with the bytes: whole frames were delivered, the bytes of the next frame
that have come are pending, and the source has the others (`Framer.Holds`).  A call then
delivers further frames in order, or the end, or a failure of the source that changes
nothing (`Framer.Delivers`).  As fewer bytes are pending than a frame has, there is room
for more at every read call.
-/
import Mathlib
import Peakfile.RawAudio

namespace Peakfile

/-! ## Reading -/

namespace Source

/-- A source that gives bytes at every read call that may, as long as it has any.  As far as
a number of calls can tell, its script and its step are any way to hand out the data: so many
bytes at each read call, and interruptions and failures between them. -/
structure Forthcoming (s : Source) : Prop where
  script : ∀ count, .atMost count ∈ s.script → 0 < count
  step : s.step ≠ some 0

/-- What a read call comes to. -/
inductive Read (s : Source) (capacity : Nat) : ReadReply → Source → Prop
  | gave {bytes s'} (hdata : s.data = bytes ++ s'.data) (hle : bytes.length ≤ capacity)
      (hnone : bytes = [] → s.data = []) : Read s capacity (.gave bytes) s'
  | interrupted {s'} (hdata : s'.data = s.data) : Read s capacity .interrupted s'
  | failed {cause s'} (hdata : s'.data = s.data) (hcause : .fails cause ∈ s.script) :
      Read s capacity (.failed cause) s'

variable {s : Source} {capacity : Nat}

/-- Giving some bytes is what a read call may come to, and leaves fewer of them. -/
theorem read_give {s s' : Source} {count : Nat} (hdata : s'.data = s.data) (hpos : 0 < count)
    (hle : count ≤ capacity) : s.Read capacity (s'.give count).1 (s'.give count).2 := by
  refine .gave ?_ ?_ fun hnone => ?_
  · rw [← hdata]
    exact (List.take_append_drop count s'.data).symm
  · rw [List.length_take]
    omega
  · rcases List.take_eq_nil_iff.1 hnone with h | h
    · omega
    · rw [← hdata]
      exact h

/-- **One read call.**  With room for some bytes, a forthcoming source stays so, and has
less left to do if it had anything left. -/
theorem Forthcoming.read (h : s.Forthcoming) (hcapacity : 0 < capacity) :
    s.Read capacity (s.read capacity).1 (s.read capacity).2 ∧
      (s.read capacity).2.Forthcoming ∧ (s.read capacity).2.script ⊆ s.script ∧
      (s.read capacity).2.remaining ≤ s.remaining - 1 := by
  obtain ⟨data, script, step⟩ := s
  cases script with
  | nil =>
    -- After the script only bytes are given.
    have hpos : 0 < min capacity (step.getD capacity) := by
      rcases step with _ | _ | most
      · simpa using hcapacity
      · exact absurd rfl h.step
      · simp only [Option.getD_some]
        omega
    refine ⟨read_give rfl hpos (Nat.min_le_left _ _), ⟨h.script, h.step⟩, List.Subset.refl _, ?_⟩
    simp only [Source.read, give, remaining, List.length_nil, List.length_drop]
    omega
  | cons event script =>
    have hrest : ∀ count, .atMost count ∈ script → 0 < count := fun count hcount =>
      h.script count (List.mem_cons_of_mem _ hcount)
    have hsubset : script ⊆ event :: script := List.subset_cons_self _ _
    cases event with
    | atMost count =>
      have hcount : 0 < count := h.script count List.mem_cons_self
      refine ⟨read_give rfl (by omega) (Nat.min_le_left _ _), ⟨hrest, h.step⟩, hsubset, ?_⟩
      simp only [Source.read, give, remaining, List.length_cons, List.length_drop]
      omega
    | interrupted =>
      refine ⟨.interrupted rfl, ⟨hrest, h.step⟩, hsubset, ?_⟩
      simp only [Source.read, remaining, List.length_cons]
      omega
    | fails cause =>
      refine ⟨.failed rfl List.mem_cons_self, ⟨hrest, h.step⟩, hsubset, ?_⟩
      simp only [Source.read, remaining, List.length_cons]
      omega

end Source

/-! ## Samples of bytes -/

namespace Framer

/-- The sample with a number, of those that lie back to back in a run of bytes. -/
def sampleAt (bytes : List UInt8) (i : Nat) : Sample :=
  Binary.ofBits _ (LittleEndian.decode ((bytes.drop (i * sampleBytes)).take sampleBytes))

theorem samplesOf_eq_map (count : Nat) (bytes : List UInt8) :
    samplesOf count bytes = (List.range count).map (sampleAt bytes) := by
  induction count generalizing bytes with
  | zero => rfl
  | succ count ih =>
    rw [samplesOf, ih, List.range_succ_eq_map, List.map_cons, List.map_map]
    have hfirst : sampleAt bytes 0 =
        Binary.ofBits _ (LittleEndian.decode (bytes.take sampleBytes)) := by
      rw [sampleAt, Nat.zero_mul, List.drop_zero]
    rw [hfirst]
    refine congrArg _ (List.map_congr_left fun i _ => ?_)
    show sampleAt (bytes.drop sampleBytes) i = sampleAt bytes (i + 1)
    rw [sampleAt, sampleAt, List.drop_drop, Nat.succ_mul, Nat.add_comm]

/-- Samples may be taken from bytes in two goes. -/
theorem samplesOf_add (first second : Nat) (bytes : List UInt8) :
    samplesOf (first + second) bytes =
      samplesOf first bytes ++ samplesOf second (bytes.drop (first * sampleBytes)) := by
  induction first generalizing bytes with
  | zero => simp [samplesOf]
  | succ first ih =>
    rw [Nat.succ_add, samplesOf, ih, samplesOf, List.cons_append, List.drop_drop, Nat.succ_mul,
      Nat.add_comm sampleBytes]

/-- Samples depend on no bytes but their own. -/
theorem samplesOf_append {count : Nat} {bytes : List UInt8}
    (h : count * sampleBytes ≤ bytes.length) (more : List UInt8) :
    samplesOf count (bytes ++ more) = samplesOf count bytes := by
  induction count generalizing bytes with
  | zero => rfl
  | succ count ih =>
    rw [Nat.succ_mul] at h
    rw [samplesOf, samplesOf, List.take_append_of_le_length (by omega),
      List.drop_append_of_le_length (by omega), ih (by rw [List.length_drop]; omega)]

/-! ## One read call -/

/-- What a framer answers. -/
abbrev Answer := Except InputError (Option (List Sample))

/-- The samples of an answer. -/
def Answer.samples : Answer → List Sample
  | .ok (some block) => block
  | _ => []

/-- One read call and what the framer makes of it: an answer, or nothing yet. -/
def step (f : Framer) (s : Source) : Option Answer × Framer × Source :=
  match s.read f.capacity with
  | (.interrupted, s') => (none, f, s')
  | (.failed cause, s') => (some (.error (.device cause)), f, s')
  | (.gave [], s') =>
    if f.pending = [] then (some (.ok none), f, s')
    else (some (.error (.trailingBytes f.pending.length)), f, s')
  | (.gave (b :: bytes), s') =>
    let held := f.pending ++ b :: bytes
    let frames := held.length / f.frameBytes
    if frames = 0 then (none, { f with pending := held }, s')
    else
      (some (.ok (some (samplesOf (frames * f.channels) held))),
        { f with pending := held.drop (frames * f.frameBytes) }, s')

/-- A call makes read calls until one of them gives an answer. -/
theorem next_eq_step (f : Framer) (s : Source) :
    f.next s =
      match f.step s with
      | (some a, f', s') => (a, f', s')
      | (none, f', s') => f'.next s' := by
  rw [next, step]
  split
  · next hr => rw [hr]
  · next hr => rw [hr]
  · next hr =>
    rw [hr]
    dsimp only
    split_ifs <;> rfl
  · next hr =>
    rw [hr]
    dsimp only
    split_ifs <;> rfl

variable {channels blockFrames : Nat} {bytes : List UInt8} {f : Framer} {s : Source}
  {frames : Nat}

/-- A framer and its source stand behind a number of frames of the bytes: they have all
others, the framer less than a frame of them. -/
structure Holds (channels blockFrames : Nat) (bytes : List UInt8) (frames : Nat) (f : Framer)
    (s : Source) : Prop where
  channels_eq : f.channels = channels
  blockFrames_eq : f.blockFrames = blockFrames
  blockFrames_pos : 0 < blockFrames
  frames_le : frames * (sampleBytes * channels) ≤ bytes.length
  rest : f.pending ++ s.data = bytes.drop (frames * (sampleBytes * channels))
  pending_lt : f.pending.length < sampleBytes * channels
  forthcoming : s.Forthcoming

/-- What a framer may answer behind a number of frames, and where it stands then. -/
inductive Delivers (channels blockFrames : Nat) (bytes : List UInt8) (script : List ReadEvent)
    (frames : Nat) : Answer → Nat → Prop
  | block {count} (hpos : 0 < count) (hle : count ≤ blockFrames) :
      Delivers channels blockFrames bytes script frames
        (.ok (some (samplesOf (count * channels)
          (bytes.drop (frames * (sampleBytes * channels))))))
        (frames + count)
  | finished (hall : bytes.length = frames * (sampleBytes * channels)) :
      Delivers channels blockFrames bytes script frames (.ok none) frames
  | broken {rest} (hpos : 0 < rest) (hlt : rest < sampleBytes * channels)
      (hall : bytes.length = frames * (sampleBytes * channels) + rest) :
      Delivers channels blockFrames bytes script frames (.error (.trailingBytes rest)) frames
  | failed {cause} (hcause : .fails cause ∈ script) :
      Delivers channels blockFrames bytes script frames (.error (.device cause)) frames

/-- There is room for bytes, as less than a frame is pending. -/
theorem Holds.capacity_pos (h : Holds channels blockFrames bytes frames f s) :
    0 < f.capacity := by
  have hblock : sampleBytes * channels ≤ sampleBytes * channels * blockFrames :=
    Nat.le_mul_of_pos_right _ h.blockFrames_pos
  have hlt := h.pending_lt
  rw [capacity, frameBytes, h.channels_eq, h.blockFrames_eq]
  omega

/-- Whole frames that have come are delivered, and what is left of them is pending. -/
theorem delivers_of_held {script : List ReadEvent} {held : List UInt8} {s' : Source}
    (hin : frames * (sampleBytes * f.channels) ≤ bytes.length)
    (hheld : held.length ≤ sampleBytes * f.channels * f.blockFrames)
    (hrest : held ++ s'.data = bytes.drop (frames * (sampleBytes * f.channels)))
    (hframes : held.length / f.frameBytes ≠ 0) (hforth : s'.Forthcoming) :
    Delivers f.channels f.blockFrames bytes script frames
        (.ok (some (samplesOf (held.length / f.frameBytes * f.channels) held)))
        (frames + held.length / f.frameBytes) ∧
      Holds f.channels f.blockFrames bytes (frames + held.length / f.frameBytes)
        { f with pending := held.drop (held.length / f.frameBytes * f.frameBytes) } s' := by
  have hsize : 0 < sampleBytes * f.channels := Nat.mul_pos (by decide) f.channels_pos
  have hlength := congrArg List.length hrest
  rw [List.length_append, List.length_drop] at hlength
  have hmod := Nat.div_add_mod held.length (sampleBytes * f.channels)
  have hlt := Nat.mod_lt held.length hsize
  have hcount : held.length / (sampleBytes * f.channels) ≤ f.blockFrames :=
    Nat.div_le_of_le_mul hheld
  rw [Nat.mul_comm] at hmod
  rw [frameBytes] at hframes ⊢
  generalize held.length / (sampleBytes * f.channels) = count at hframes hmod hcount ⊢
  have hwhole : count * (sampleBytes * f.channels) ≤ held.length := by omega
  have hsamples : count * f.channels * sampleBytes ≤ held.length := by
    rw [Nat.mul_assoc, Nat.mul_comm f.channels]
    exact hwhole
  constructor
  · rw [← samplesOf_append hsamples s'.data, hrest]
    exact .block (Nat.pos_of_ne_zero hframes) hcount
  · refine ⟨rfl, rfl, by omega, ?_, ?_, ?_, hforth⟩
    · rw [Nat.add_mul]
      omega
    · rw [Nat.add_mul, ← List.drop_drop, ← hrest, List.drop_append_of_le_length hwhole]
    · rw [List.length_drop]
      omega

/-- **One step.**  A read call without an answer leaves the framer where it stands, and any
other delivers its answer.  There is less left to do, or there was nothing left. -/
theorem Holds.step (h : Holds channels blockFrames bytes frames f s) :
    (f.step s).2.2.script ⊆ s.script ∧
      match f.step s with
      | (none, f', s') =>
        Holds channels blockFrames bytes frames f' s' ∧ s'.remaining < s.remaining
      | (some a, f', s') =>
        ∃ frames', Delivers channels blockFrames bytes s.script frames a frames' ∧
          Holds channels blockFrames bytes frames' f' s' ∧
          s'.remaining ≤ s.remaining - 1 := by
  obtain ⟨hread, hforth, hscript, hleft⟩ := h.forthcoming.read h.capacity_pos
  have hlength := congrArg List.length h.rest
  rw [List.length_append, List.length_drop] at hlength
  have hin := h.frames_le
  have hlt := h.pending_lt
  have hblock := h.blockFrames_pos
  obtain rfl := h.channels_eq
  obtain rfl := h.blockFrames_eq
  unfold Framer.step
  rcases hr : s.read f.capacity with ⟨reply, s'⟩
  rw [hr] at hread hforth hscript hleft
  dsimp only at hread hforth hscript hleft
  cases hread with
  | interrupted hdata =>
    refine ⟨hscript, ⟨rfl, rfl, hblock, hin, ?_, hlt, hforth⟩, Source.remaining_of_interrupted hr⟩
    rw [hdata, h.rest]
  | failed hdata hcause =>
    refine ⟨hscript, frames, .failed hcause, ⟨rfl, rfl, hblock, hin, ?_, hlt, hforth⟩, hleft⟩
    rw [hdata, h.rest]
  | @gave given _ hdata hle hnone =>
    cases given with
    | nil =>
      -- The source is used up, and what is pending is all that is left.
      have hempty : s.data = [] := hnone rfl
      have hholds : Holds f.channels f.blockFrames bytes frames f s' := by
        refine ⟨rfl, rfl, hblock, hin, ?_, hlt, hforth⟩
        rw [← h.rest, hdata]
        rfl
      rw [hempty, List.length_nil] at hlength
      dsimp only
      split_ifs with hpending
      · rw [hpending, List.length_nil] at hlength
        exact ⟨hscript, frames, .finished (by omega), hholds, hleft⟩
      · have hpos : 0 < f.pending.length := List.length_pos_iff.2 hpending
        exact ⟨hscript, frames, .broken hpos hlt (by omega), hholds, hleft⟩
    | cons b given =>
      have hbelow := Source.remaining_add_length_of_gave hr
      rw [List.length_cons] at hbelow
      have hrest : f.pending ++ b :: given ++ s'.data =
          bytes.drop (frames * (sampleBytes * f.channels)) := by
        rw [← h.rest, hdata, List.append_assoc]
      have hheld : (f.pending ++ b :: given).length ≤
          sampleBytes * f.channels * f.blockFrames := by
        rw [capacity, frameBytes] at hle
        rw [List.length_append]
        generalize sampleBytes * f.channels * f.blockFrames = room at hle ⊢
        rw [List.length_cons] at hle ⊢
        omega
      dsimp only
      split_ifs with hframes
      · -- Not even a frame has come.
        refine ⟨hscript, ⟨rfl, rfl, hblock, hin, hrest, ?_, hforth⟩, by omega⟩
        have hsize : 0 < sampleBytes * f.channels := Nat.zero_lt_of_lt hlt
        exact (Nat.div_eq_zero_iff_lt hsize).1 hframes
      · obtain ⟨hdelivers, hholds⟩ := delivers_of_held hin hheld hrest hframes hforth
        exact ⟨hscript, _, hdelivers, hholds, by omega⟩

/-! ## Calls -/

theorem Delivers.mono {script more : List ReadEvent} {a : Answer} {frames' : Nat}
    (h : Delivers channels blockFrames bytes script frames a frames') (hmore : script ⊆ more) :
    Delivers channels blockFrames bytes more frames a frames' := by
  cases h with
  | block hpos hle => exact .block hpos hle
  | finished hall => exact .finished hall
  | broken hpos hlt hall => exact .broken hpos hlt hall
  | failed hcause => exact .failed (hmore hcause)

/-- Framer and source after a number of read calls. -/
def afterReads (f : Framer) (s : Source) : Nat → Framer × Source
  | 0 => (f, s)
  | reads + 1 => afterReads (f.step s).2.1 (f.step s).2.2 reads

theorem afterReads_add (f : Framer) (s : Source) (first second : Nat) :
    f.afterReads s (first + second) =
      (f.afterReads s first).1.afterReads (f.afterReads s first).2 second := by
  induction first generalizing f s with
  | zero => rw [Nat.zero_add, afterReads]
  | succ first ih => rw [Nat.succ_add, afterReads, afterReads, ih]

/-- **One call.**  A call delivers its answer after a number of read calls. -/
theorem Holds.next (h : Holds channels blockFrames bytes frames f s) :
    ∃ frames', Delivers channels blockFrames bytes s.script frames (f.next s).1 frames' ∧
      Holds channels blockFrames bytes frames' (f.next s).2.1 (f.next s).2.2 ∧
      (f.next s).2.2.script ⊆ s.script ∧ (f.next s).2.2.remaining ≤ s.remaining - 1 ∧
      ∃ reads, (f.next s).2 = f.afterReads s reads := by
  -- Every read call without an answer leaves less to do.
  induction hleft : s.remaining using Nat.strong_induction_on generalizing f s with
  | _ left ih =>
    obtain ⟨hscript, hstep⟩ := h.step
    rw [next_eq_step]
    rcases hs : f.step s with ⟨_ | a, f', s'⟩
    · rw [hs] at hscript hstep
      obtain ⟨hholds, hless⟩ := hstep
      obtain ⟨frames', hdelivers, hholds', hscript', hless', reads, hreads⟩ :=
        ih s'.remaining (by omega) hholds rfl
      refine ⟨frames', hdelivers.mono hscript, hholds', fun _ he => hscript (hscript' he),
        by dsimp only; omega, reads + 1, ?_⟩
      dsimp only
      rw [hreads, afterReads, hs]
    · rw [hs] at hscript hstep
      obtain ⟨frames', hdelivers, hholds, hless⟩ := hstep
      refine ⟨frames', hdelivers, hholds, hscript, by dsimp only; omega, 1, ?_⟩
      rw [afterReads, hs, afterReads]

/-! ## Runs -/

/-- The answers to a number of calls. -/
def answers (f : Framer) (s : Source) : Nat → List Answer
  | 0 => []
  | calls + 1 => (f.next s).1 :: answers (f.next s).2.1 (f.next s).2.2 calls

theorem length_answers (f : Framer) (s : Source) (calls : Nat) :
    (f.answers s calls).length = calls := by
  induction calls generalizing f s with
  | zero => rfl
  | succ calls ih => rw [answers, List.length_cons, ih]

/-- Framer and source after a number of calls. -/
def after (f : Framer) (s : Source) : Nat → Framer × Source
  | 0 => (f, s)
  | calls + 1 => after (f.next s).2.1 (f.next s).2.2 calls

/-- What is answered at the end of the bytes. -/
def endAnswer (channels : Nat) (bytes : List UInt8) : Answer :=
  if bytes.length % (sampleBytes * channels) = 0 then .ok none
  else .error (.trailingBytes (bytes.length % (sampleBytes * channels)))

variable {script : List ReadEvent} {a : Answer} {frames' : Nat}

/-- The samples of an answer follow those before. -/
theorem Delivers.samples_eq (h : Delivers channels blockFrames bytes script frames a frames') :
    samplesOf (frames * channels) bytes ++ a.samples = samplesOf (frames' * channels) bytes := by
  cases h with
  | @block count hpos hle =>
    have hoffset : frames * (sampleBytes * channels) = frames * channels * sampleBytes := by
      rw [Nat.mul_assoc, Nat.mul_comm sampleBytes]
    rw [Nat.add_mul, samplesOf_add, Answer.samples, hoffset]
  | finished hall => exact List.append_nil _
  | broken hpos hlt hall => exact List.append_nil _
  | failed hcause => exact List.append_nil _

theorem Delivers.frames_le (h : Delivers channels blockFrames bytes script frames a frames') :
    frames ≤ frames' := by
  cases h with
  | block hpos hle => exact Nat.le_add_right _ _
  | finished hall => exact le_rfl
  | broken hpos hlt hall => exact le_rfl
  | failed hcause => exact le_rfl

/-- Frames are whole frames of the bytes, and all of them once less than a frame is left. -/
theorem Holds.frames_le_whole (h : Holds channels blockFrames bytes frames f s) :
    frames ≤ bytes.length / (sampleBytes * channels) :=
  (Nat.le_div_iff_mul_le (Nat.zero_lt_of_lt h.pending_lt)).2 h.frames_le

/-- An answer has at least one frame and no more than a block, or comes at the end of the
bytes, or is a failure of the source. -/
theorem Delivers.cases (h : Delivers channels blockFrames bytes script frames a frames')
    (hchannels : 0 < channels) :
    (∃ block count, a = .ok (some block) ∧ 0 < count ∧ count ≤ blockFrames ∧
        block.length = count * channels ∧ frames' = frames + count) ∨
      (a = endAnswer channels bytes ∧ frames = bytes.length / (sampleBytes * channels)) ∨
      ∃ cause, a = .error (.device cause) ∧ .fails cause ∈ script := by
  have hsize : 0 < sampleBytes * channels := Nat.mul_pos (by decide) hchannels
  cases h with
  | @block count hpos hle => exact .inl ⟨_, count, rfl, hpos, hle, length_samplesOf _ _, rfl⟩
  | finished hall =>
    refine .inr (.inl ⟨?_, ?_⟩)
    · rw [endAnswer, hall, Nat.mul_mod_left, if_pos rfl]
    · rw [hall, Nat.mul_div_cancel _ hsize]
  | @broken rest hpos hlt hall =>
    have hmod : bytes.length % (sampleBytes * channels) = rest := by
      rw [hall, Nat.mul_add_mod_of_lt hlt]
    refine .inr (.inl ⟨?_, ?_⟩)
    · rw [endAnswer, hmod, if_neg (Nat.ne_of_gt hpos)]
    · rw [hall, Nat.add_comm, Nat.add_mul_div_right _ _ hsize, Nat.div_eq_of_lt hlt, Nat.zero_add]
  | failed hcause => exact .inr (.inr ⟨_, rfl, hcause⟩)

/-- What a run of calls comes to: from one number of frames to another, all of them in
order, in answers that each deliver some of them. -/
structure Delivered (channels blockFrames : Nat) (bytes : List UInt8) (frames : Nat)
    (f : Framer) (s : Source) (calls frames' : Nat) : Prop where
  holds : Holds channels blockFrames bytes frames' (f.after s calls).1 (f.after s calls).2
  frames_le : frames ≤ frames'
  samples : samplesOf (frames * channels) bytes ++ (f.answers s calls).flatMap Answer.samples =
    samplesOf (frames' * channels) bytes
  answers : ∀ a ∈ f.answers s calls, ∃ before behind, frames ≤ before ∧ behind ≤ frames' ∧
    Delivers channels blockFrames bytes s.script before a behind
  script : (f.after s calls).2.script ⊆ s.script
  remaining : (f.after s calls).2.remaining ≤ s.remaining - calls
  reads : ∃ reads, f.after s calls = f.afterReads s reads

/-- **A run.**  By induction on the calls, each of which delivers its answer. -/
theorem Holds.delivered (h : Holds channels blockFrames bytes frames f s) (calls : Nat) :
    ∃ frames', Delivered channels blockFrames bytes frames f s calls frames' := by
  induction calls generalizing frames f s with
  | zero =>
    refine ⟨frames, h, le_rfl, List.append_nil _, ?_, List.Subset.refl _, le_rfl, 0, rfl⟩
    intro a ha
    cases ha
  | succ calls ih =>
    obtain ⟨middle, hdelivers, hholds, hscript, hleft, first, hfirst⟩ := h.next
    obtain ⟨frames', hrun⟩ := ih hholds
    have hup := hdelivers.frames_le
    obtain ⟨second, hsecond⟩ := hrun.reads
    have hafter : f.after s (calls + 1) = (f.next s).2.1.after (f.next s).2.2 calls := rfl
    refine ⟨frames', hrun.holds, hup.trans hrun.frames_le, ?_, ?_,
      fun _ he => hscript (hrun.script he), ?_, first + second, ?_⟩
    · rw [Framer.answers, List.flatMap_cons, ← List.append_assoc, hdelivers.samples_eq,
        hrun.samples]
    · intro a ha
      rw [Framer.answers] at ha
      rcases List.mem_cons.1 ha with rfl | ha
      · exact ⟨frames, middle, le_rfl, hrun.frames_le, hdelivers⟩
      · obtain ⟨before, behind, hbefore, hbehind, hthis⟩ := hrun.answers a ha
        exact ⟨before, behind, hup.trans hbefore, hbehind, hthis.mono hscript⟩
    · have hrest := hrun.remaining
      rw [hafter]
      omega
    · rw [hafter, afterReads_add, ← hfirst, hsecond]

/-- **A row of read calls.**  Framer and source stay in line with the bytes between any two
of them. -/
theorem Holds.afterReads (h : Holds channels blockFrames bytes frames f s) (reads : Nat) :
    ∃ frames', Holds channels blockFrames bytes frames' (f.afterReads s reads).1
      (f.afterReads s reads).2 := by
  induction reads generalizing frames f s with
  | zero => exact ⟨frames, h⟩
  | succ reads ih =>
    have hstep := h.step.2
    rw [Framer.afterReads]
    rcases hs : f.step s with ⟨_ | a, f', s'⟩
    · rw [hs] at hstep
      exact ih hstep.1
    · rw [hs] at hstep
      obtain ⟨_, _, hholds, _⟩ := hstep
      exact ih hholds

/-- A source that has nothing left to do has no frame left. -/
theorem Holds.frames_eq_whole (h : Holds channels blockFrames bytes frames f s)
    (hnone : s.remaining = 0) : frames = bytes.length / (sampleBytes * channels) := by
  have hlength := congrArg List.length h.rest
  rw [List.length_append, List.length_drop] at hlength
  have hin := h.frames_le
  have hlt := h.pending_lt
  rw [Source.remaining] at hnone
  refine (Nat.div_eq_of_lt_le hin ?_).symm
  rw [Nat.succ_mul]
  omega

/-- Behind the last frame, all that is answered is the end and failures of the source. -/
theorem Delivered.at_end {calls : Nat}
    (h : Delivered channels blockFrames bytes frames f s calls frames') (hchannels : 0 < channels)
    (hall : frames = bytes.length / (sampleBytes * channels)) :
    ∀ a ∈ f.answers s calls,
      a = endAnswer channels bytes ∨ ∃ cause, a = .error (.device cause) ∧ .fails cause ∈ s.script := by
  intro a ha
  obtain ⟨before, behind, hbefore, hbehind, hdelivers⟩ := h.answers a ha
  have hwhole := h.holds.frames_le_whole
  rcases hdelivers.cases hchannels with ⟨_, count, _, hpos, _, _, rfl⟩ | ⟨hend, _⟩ | hfailed
  · omega
  · exact .inl hend
  · exact .inr hfailed

/-- A new framer stands in front of the first frame of its source. -/
theorem holds_of_new {blockFrames : Nat} {memory : Request → Bool}
    (hnew : Framer.new channels blockFrames memory = .ok f)
    (hs : s.Forthcoming) : Holds channels (max blockFrames 1) s.data 0 f s := by
  rw [Framer.new] at hnew
  split_ifs at hnew with hchannels hroom
  obtain rfl := Except.ok.inj hnew
  have hsize : 0 < sampleBytes * channels :=
    Nat.mul_pos (by decide) (Nat.pos_of_ne_zero hchannels)
  refine ⟨rfl, rfl, by omega, ?_, ?_, hsize, hs⟩
  · rw [Nat.zero_mul]
    exact Nat.zero_le _
  · rw [Nat.zero_mul, List.drop_zero]
    rfl

/-- Where the end is answered, all whole frames were delivered. -/
theorem Delivers.frames_of_end
    (h : Delivers channels blockFrames bytes script frames (endAnswer channels bytes) frames')
    (hchannels : 0 < channels) : frames = bytes.length / (sampleBytes * channels) := by
  rcases h.cases hchannels with ⟨_, _, hblock, _⟩ | ⟨_, hlast⟩ | ⟨_, hfailed, _⟩
  · rw [endAnswer] at hblock
    split_ifs at hblock
    cases hblock
  · exact hlast
  · rw [endAnswer] at hfailed
    split_ifs at hfailed
    cases hfailed

/-- With a source that has nothing left to do, only the end is answered. -/
theorem Holds.answers_of_used_up (h : Holds channels blockFrames bytes frames f s)
    (hchannels : 0 < channels) (hnone : s.remaining = 0) (calls : Nat) :
    f.answers s calls = List.replicate calls (endAnswer channels bytes) := by
  refine List.eq_replicate_iff.2 ⟨length_answers f s calls, fun a ha => ?_⟩
  obtain ⟨_, hrun⟩ := h.delivered calls
  have hscript : s.script = [] := by
    rw [Source.remaining] at hnone
    exact List.length_eq_zero_iff.1 (by omega)
  rcases hrun.at_end hchannels (h.frames_eq_whole hnone) a ha with hend | ⟨cause, _, hcause⟩
  · exact hend
  · rw [hscript] at hcause
    cases hcause

/-- **A framer delivers the frames of its source.**  Whatever the source does at its read
calls, the blocks of a run of calls are the samples of the first frames of the data, in
order.  Each has at least one frame and no more than `max blockFrames 1`.  All else that is
answered are failures of the source, which lose nothing, and the end of the data, which
comes behind the last whole frame, stays, and tells what is left of the data.  Calls are
rows of read calls, each of them with room for a byte. -/
theorem blocks_of_source {channels blockFrames : Nat} {memory : Request → Bool} {f : Framer}
    {s : Source} (hnew : Framer.new channels blockFrames memory = .ok f) (hs : s.Forthcoming)
    (calls : Nat) :
    (∃ frames ≤ s.data.length / (sampleBytes * channels),
      (f.answers s calls).flatMap Answer.samples =
          (List.range (frames * channels)).map (sampleAt s.data) ∧
        (endAnswer channels s.data ∈ f.answers s calls ∨ s.remaining ≤ calls →
          frames = s.data.length / (sampleBytes * channels)) ∧
        (frames = s.data.length / (sampleBytes * channels) →
          ∀ later, ∀ a ∈ (f.after s calls).1.answers (f.after s calls).2 later,
            a = endAnswer channels s.data ∨
              ∃ cause, a = .error (.device cause) ∧ .fails cause ∈ s.script)) ∧
      (∀ a ∈ f.answers s calls,
        (∃ block count, a = .ok (some block) ∧ 0 < count ∧ count ≤ max blockFrames 1 ∧
            block.length = count * channels) ∨
          a = endAnswer channels s.data ∨
          ∃ cause, a = .error (.device cause) ∧ .fails cause ∈ s.script) ∧
      (s.remaining ≤ calls → ∀ later,
        (f.after s calls).1.answers (f.after s calls).2 later =
          List.replicate later (endAnswer channels s.data)) ∧
      (∃ reads, f.after s calls = f.afterReads s reads) ∧
      ∀ reads, 0 < (f.afterReads s reads).1.capacity := by
  have hholds := holds_of_new hnew hs
  have hchannels : 0 < channels := by
    rw [← hholds.channels_eq]
    exact f.channels_pos
  obtain ⟨frames, hrun⟩ := hholds.delivered calls
  have hwhole := hrun.holds.frames_le_whole
  refine ⟨⟨frames, hwhole, ?_, ?_, ?_⟩, ?_, ?_, hrun.reads, ?_⟩
  · rw [← samplesOf_eq_map, ← hrun.samples, Nat.zero_mul]
    rfl
  · rintro (hend | hcalls)
    · obtain ⟨before, behind, _, hbehind, hdelivers⟩ := hrun.answers _ hend
      have hup := hdelivers.frames_le
      have hlast := hdelivers.frames_of_end hchannels
      omega
    · have hleft := hrun.remaining
      exact hrun.holds.frames_eq_whole (by omega)
  · intro hall later a ha
    obtain ⟨_, hlater⟩ := hrun.holds.delivered later
    rcases hlater.at_end hchannels hall a ha with hend | ⟨cause, hfailed, hcause⟩
    · exact .inl hend
    · exact .inr ⟨cause, hfailed, hrun.script hcause⟩
  · intro a ha
    obtain ⟨_, _, _, _, hdelivers⟩ := hrun.answers a ha
    rcases hdelivers.cases hchannels with ⟨block, count, rfl, hpos, hle, hlength, _⟩ |
      ⟨hend, _⟩ | hfailed
    · exact .inl ⟨block, count, rfl, hpos, hle, hlength⟩
    · exact .inr (.inl hend)
    · exact .inr (.inr hfailed)
  · intro hcalls later
    have hleft := hrun.remaining
    exact hrun.holds.answers_of_used_up hchannels (by omega) later
  · intro reads
    obtain ⟨_, hbetween⟩ := hholds.afterReads reads
    exact hbetween.capacity_pos

/-- Two channels, and blocks of one frame.  Between an interruption and a failure two frames
and three bytes come in pieces that end inside samples and frames. -/
theorem blocks_of_source_torn :
    let bytes : List UInt8 := [0, 0, 0, 63, 0, 0, 128, 63, 0, 0, 128, 191, 0, 0, 0, 191, 1, 2, 3]
    let script : List ReadEvent :=
      [.atMost 3, .interrupted, .atMost 9, .fails (.other "gone"), .atMost 5]
    ∃ f, Framer.new 2 0 (fun _ => true) = .ok f ∧ Source.Forthcoming ⟨bytes, script, some 2⟩ ∧
      f.answers ⟨bytes, script, some 2⟩ 5 =
        [.ok (some [.ofBits _ 0x3f000000, .ofBits _ 0x3f800000]), .error (.device (.other "gone")),
          .ok (some [.ofBits _ 0xbf800000, .ofBits _ 0xbf000000]), .error (.trailingBytes 3),
          .error (.trailingBytes 3)] ∧
      ∀ later, ∀ a ∈ (f.after ⟨bytes, script, some 2⟩ 5).1.answers
          (f.after ⟨bytes, script, some 2⟩ 5).2 later,
        a = .error (.trailingBytes 3) ∨
          ∃ cause, a = .error (.device cause) ∧ .fails cause ∈ script := by
  intro bytes script
  have hs : Source.Forthcoming ⟨bytes, script, some 2⟩ := by
    constructor
    · intro count hcount
      simp only [script, List.mem_cons, ReadEvent.atMost.injEq, reduceCtorEq, List.not_mem_nil,
        or_false, false_or] at hcount
      omega
    · decide
  have hnew : Framer.new 2 0 (fun _ => true) = .ok ⟨2, by decide, 1, []⟩ := by decide +kernel
  have hanswers : Framer.answers ⟨2, by decide, 1, []⟩ ⟨bytes, script, some 2⟩ 5 =
      [.ok (some [.ofBits _ 0x3f000000, .ofBits _ 0x3f800000]), .error (.device (.other "gone")),
        .ok (some [.ofBits _ 0xbf800000, .ofBits _ 0xbf000000]), .error (.trailingBytes 3),
        .error (.trailingBytes 3)] := by
    decide +kernel
  have hanswer : endAnswer 2 bytes = .error (.trailingBytes 3) := by decide
  obtain ⟨⟨frames, -, -, hlast, hend⟩, -⟩ := blocks_of_source hnew hs 5
  refine ⟨_, hnew, hs, hanswers, ?_⟩
  rw [← hanswer]
  refine hend (hlast (.inl ?_))
  rw [hanswers, hanswer]
  decide

end Framer

end Peakfile
