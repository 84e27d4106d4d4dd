/-
# What stands in the way of a peak file

The making of a peak file may fail whatever bytes come in.  Most of what stands in its way
(`Command.Hindrance`) is noticed before the file is made: the settings, the input, the layout,
the length of a window, memory for the channels, the name of the file.  One thing of this kind
is enough to leave all files as they were.

Two things are noticed only behind the file (`Command.LateHindrance`): blocks that there is no
room for, and an input that is a directory.  If nothing else stands in the way, the file then
holds a header that counts no windows, in place of what it held before
(`Command.output_of_hindrances`).
-/
import Peakfile.Proofs.TreeRuns

namespace Peakfile

namespace Command

/-! ## Hindrances -/

/-- What stands in the way of a run and is noticed before its file is made, with the failure
that tells of it.  Several may do so at once. -/
inductive Hindrance (t : FileTree) (memory : Request → Bool) (rate : UInt32) (channels : Nat)
    (w : Wishes) : Failure → Prop
  /-- The settings file cannot be read, or holds no settings. -/
  | settings {name : String} {cause : Error} (hname : w.settings = some name)
      (hload : Settings.load t name = .error cause) :
      Hindrance t memory rate channels w ⟨some s!"Failed to load config {name}", .extraction cause⟩
  | depth {bits : Nat} (hbits : w.bits = some bits) (height : bits ≠ 8) (hsixteen : bits ≠ 16) :
      Hindrance t memory rate channels w (.plain (.extraction (.depth bits)))
  /-- The windows are too short or too long in seconds, or of no number of them. -/
  | windowLength {base : Settings} (hbase : StartsFrom t w base)
      (hseconds : ¬ (shortestWindow ≤ w.seconds.getD base.seconds ∧
        w.seconds.getD base.seconds ≤ longestWindow)) :
      Hindrance t memory rate channels w
        (.plain (.extraction (.windowLength (w.seconds.getD base.seconds))))
  /-- The input cannot be opened. -/
  | input {cause : StorageError} (hinput : w.input ≠ "-")
      (hfind : t.find w.input = .error cause) :
      Hindrance t memory rate channels w ⟨some s!"Failed to open input {w.input}", .storage cause⟩
  | noChannels (hchannels : channels = 0) :
      Hindrance t memory rate channels w (setupFailure (.layout .noChannels))
  | tooManyChannels (hchannels : UInt32.size ≤ channels) :
      Hindrance t memory rate channels w (setupFailure (.layout (.tooManyChannels channels)))
  | noRate (hrate : rate = 0) : Hindrance t memory rate channels w (setupFailure (.layout .noRate))
  /-- The length of a window rounds to no frames. -/
  | emptyWindow {s : Settings} (hs : Settled t w s) (hframes : s.roundedFrames rate = 0) :
      Hindrance t memory rate channels w (setupFailure (.emptyWindow s.seconds rate.toNat))
  /-- The length of a window in frames fits no header. -/
  | windowTooLong {s : Settings} (hs : Settled t w s)
      (hframes : UInt32.size ≤ s.roundedFrames rate) :
      Hindrance t memory rate channels w
        (setupFailure (.layout (.windowTooLong (s.roundedFrames rate))))
  /-- Memory for the bounds of the channels is not to be had. -/
  | channelMemory
      (hmemory : (Request.bounds channels).isMet (memory (.bounds channels)) = false) :
      Hindrance t memory rate channels w (setupFailure (.allocation channels))
  /-- The file cannot be made. -/
  | output {s : Settings} {name : String} {cause : StorageError} (hs : Settled t w s)
      (hname : s.output = some name) (hplace : t.placeToWrite name = .error cause) :
      Hindrance t memory rate channels w (setupFailure (.device cause))

/-- What stands in the way of a run and is noticed only behind its file. -/
inductive LateHindrance (t : FileTree) (memory : Request → Bool) (channels : Nat) (w : Wishes) :
    Failure → Prop
  /-- There is no room for a block. -/
  | block (hroom : Framer.hasRoom channels w.blockFrames memory = false) :
      LateHindrance t memory channels w (.plain (.input (.blockTooLarge channels w.blockFrames)))
  /-- The input can be opened, but not read. -/
  | directory (hinput : w.input ≠ "-") (hdirectory : t.isDirectory w.input = true) :
      LateHindrance t memory channels w (.plain (.input (.device .isADirectory)))

/-- Nothing stands in the way of a run before its file is made, and these are its settings and
the length of its windows in frames. -/
structure Clear (t : FileTree) (memory : Request → Bool) (rate : UInt32) (channels : Nat)
    (w : Wishes) (s : Settings) (window : Nat) : Prop where
  settled : Settled t w s
  opens : w.input = "-" ∨ ∃ found, t.find w.input = .ok found
  layout : (Layout.mk channels rate).check = .ok ()
  window_eq : s.windowFrames rate = .ok window
  granted : memory (.bounds channels) = true
  writable : ∀ content, ∃ t', storeOutput t s content = .ok t'

section Hindrances

variable {t : FileTree} {memory : Request → Bool} {rate : UInt32} {channels : Nat} {w : Wishes}
  {s : Settings} {window : Nat} {failure : Failure} (input : List UInt8)

/-- Where nothing stands in the way, there is no hindrance. -/
theorem Clear.not_hindrance (h : Clear t memory rate channels w s window) :
    ¬ Hindrance t memory rate channels w failure := by
  obtain ⟨base, hbase, -⟩ := h.settled
  obtain ⟨hbits, hrange, base', hbase', hseconds⟩ := h.settled.inRange
  obtain ⟨hpos, hlt⟩ := Layout.channels_of_check h.layout
  have hframes := hrange.windowFrames_eq rate
  rw [h.window_eq] at hframes
  intro hfailure
  cases hfailure with
  | settings hname hload =>
    cases hbase with
    | standard hnone => rw [hnone] at hname; cases hname
    | loaded hname' hload' =>
      obtain rfl := Option.some.inj (hname.symm.trans hname')
      rw [hload] at hload'
      cases hload'
  | depth hwished height hsixteen => exact hbits _ hwished ⟨height, hsixteen⟩
  | windowLength hfrom hout =>
    obtain rfl := hfrom.unique hbase'
    exact hout (hseconds ▸ hrange)
  | input hinput hfind =>
    obtain ⟨found, hfound⟩ := h.opens.resolve_left hinput
    rw [hfind] at hfound
    cases hfound
  | noChannels hchannels => exact absurd hchannels (Nat.ne_of_gt hpos)
  | tooManyChannels hchannels => exact absurd hchannels (Nat.not_le.2 hlt)
  | noRate hrate =>
    have hlayout := h.layout
    unfold Layout.check at hlayout
    split_ifs at hlayout
  | emptyWindow hs hempty =>
    obtain rfl := hs.unique h.settled
    rw [if_pos hempty] at hframes
    cases hframes
  | windowTooLong hs hlong =>
    obtain rfl := hs.unique h.settled
    split_ifs at hframes
  | channelMemory hmemory =>
    rw [h.granted, Request.isMet_true (Request.size_bounds_le hlt)] at hmemory
    cases hmemory
  | output hs hname hplace =>
    obtain rfl := hs.unique h.settled
    obtain ⟨t', hstore⟩ := h.writable []
    rw [storeOutput, hname] at hstore
    dsimp only at hstore
    rw [FileTree.store, hplace] at hstore
    cases hstore

/-! ## Before the file -/

/-- A layout that no header can describe stands in the way. -/
theorem hindrance_of_layout {cause : Error}
    (h : (Layout.mk channels rate).check = .error cause) :
    Hindrance t memory rate channels w (setupFailure cause) := by
  unfold Layout.check at h
  split_ifs at h with hnone hmany hrate
  · obtain rfl := Except.error.inj h
    exact .noChannels hnone
  · obtain rfl := Except.error.inj h
    exact .tooManyChannels hmany
  · obtain rfl := Except.error.inj h
    exact .noRate hrate

/-- So does a window of no frames or of too many. -/
theorem hindrance_of_windowFrames {cause : Error} (hs : Settled t w s)
    (h : s.windowFrames rate = .error cause) :
    Hindrance t memory rate channels w (setupFailure cause) := by
  obtain ⟨-, hrange, -⟩ := hs.inRange
  rw [hrange.windowFrames_eq rate] at h
  split_ifs at h with hempty hlong
  · obtain rfl := Except.error.inj h
    exact .emptyWindow hs hempty
  · obtain rfl := Except.error.inj h
    exact .windowTooLong hs hlong

/-- So does memory that is not granted. -/
theorem hindrance_of_memory (hpos : 0 < channels) (h : memory (.bounds channels) = false) :
    Hindrance t memory rate channels w (setupFailure (.allocation channels)) := by
  refine .channelMemory ?_
  rw [h]
  exact Request.isMet_false (Request.size_bounds_ne_zero hpos)

/-- What cannot be opened is one of these. -/
theorem hindrance_of_opening {cause : Error} (hs : Settled t w s)
    (ho : (Extraction.new s false).opening ⟨channels, rate⟩ (memory (.bounds channels)) =
      .error cause) :
    Hindrance t memory rate channels w (setupFailure cause) := by
  rcases hl : (Layout.mk channels rate).check with refused | _
  · rw [Extraction.opening, hl] at ho
    obtain rfl := Except.error.inj ho
    exact hindrance_of_layout hl
  rcases hw : s.windowFrames rate with refused | window
  · rw [Extraction.opening_of_windowFrames (l := ⟨channels, rate⟩) hl hw] at ho
    obtain rfl := Except.error.inj ho
    exact hindrance_of_windowFrames hs hw
  rcases hmemory : memory (.bounds channels)
  · have hpos : 0 < channels := (Layout.channels_of_check hl).1
    rw [hmemory, Extraction.opening_refused (x := .new s false) hl hw] at ho
    obtain rfl := Except.error.inj ho
    exact hindrance_of_memory hpos hmemory
  · rw [hmemory, Extraction.opening_eq (x := .new s false) hl hw] at ho
    cases ho

/-- With settings, nothing stands in the way of a run before its file is made, or it fails with
something that does, and leaves all files as they were. -/
theorem clear_or_hindered_of_settled (memory : Request → Bool) (rate : UInt32) (channels : Nat)
    (hs : Settled t w s) :
    (∃ window, Clear t memory rate channels w s window) ∨
      ∃ failure, Hindrance t memory rate channels w failure ∧
        (generateWith (FileTree.access input) memory rate channels w s).run t =
          (.error failure, t) := by
  by_cases hinput : w.input ≠ "-" ∧ ∃ cause, t.find w.input = .error cause
  · obtain ⟨hinput, cause, hfind⟩ := hinput
    exact .inr ⟨_, .input hinput hfind,
      run_generateWith_unopened input (run_openInput_refused input hinput hfind)⟩
  have hopens : w.input = "-" ∨ ∃ found, t.find w.input = .ok found := by
    rcases hfind : t.find w.input with cause | found
    · exact .inl (by_contra fun hdash => hinput ⟨hdash, cause, hfind⟩)
    · exact .inr ⟨found, rfl⟩
  have hopen := run_openInput input hopens
  rcases ho : (Extraction.new s false).opening ⟨channels, rate⟩ (memory (.bounds channels))
    with cause | start
  · exact .inr ⟨_, hindrance_of_opening hs ho, run_generateWith_of_opening input hopen ho⟩
  obtain ⟨hl, hmemory, window, hw⟩ := Extraction.check_of_opening ho
  replace hw : s.windowFrames rate = .ok window := hw
  rcases storeOutput_cases t s with hstore | ⟨name, cause, hname, hplace, hstore⟩
  · exact .inl ⟨window, hs, hopens, hl, hw, hmemory, hstore⟩
  · obtain ⟨x, hconfigure⟩ := run_configure_refused input hl hw (hstore [])
    rw [← hmemory] at hconfigure
    exact .inr ⟨_, .output hs hname hplace,
      run_generateWith_unconfigured input hopen hconfigure⟩

/-- Nothing stands in the way of a run before its file is made, or it fails with something that
does, and leaves all files as they were. -/
theorem clear_or_hindered (t : FileTree) (memory : Request → Bool) (rate : UInt32)
    (channels : Nat) (w : Wishes) :
    (∃ s window, Clear t memory rate channels w s window) ∨
      ∃ failure, Hindrance t memory rate channels w failure ∧
        (generate (FileTree.access input) memory rate channels w).run t = (.error failure, t) := by
  have hbase : (∃ base, StartsFrom t w base) ∨
      ∃ name cause, w.settings = some name ∧ Settings.load t name = .error cause := by
    rcases hname : w.settings with _ | name
    · exact .inl ⟨_, .standard hname⟩
    · rcases hload : Settings.load t name with cause | base
      · exact .inr ⟨name, cause, rfl, hload⟩
      · exact .inl ⟨base, .loaded hname hload⟩
  rcases hbase with ⟨base, hbase⟩ | ⟨name, cause, hname, hload⟩
  case inr =>
    exact .inr ⟨_, .settings hname hload, run_generate_of_base_error input
      (run_baseSettings_refused input hname hload)⟩
  have hgenerate := run_generate_of_over input memory rate channels hbase
  rcases over_cases w base with ⟨bits, hbits, height, hsixteen, hover⟩ | ⟨-, s, hseconds, hover⟩
  · rw [hover] at hgenerate
    exact .inr ⟨_, .depth hbits height hsixteen, hgenerate⟩
  by_cases hrange : s.InRange
  · rw [Settings.check_eq_ok_iff.2 hrange] at hover
    rw [hover] at hgenerate
    rcases clear_or_hindered_of_settled input memory rate channels
      ⟨base, hbase, hover⟩ with ⟨window, hclear⟩ | ⟨failure, hfailure, hrun⟩
    · exact .inl ⟨s, window, hclear⟩
    · exact .inr ⟨failure, hfailure, hgenerate.trans hrun⟩
  · have hcheck : s.check = .error (.windowLength s.seconds) := if_neg hrange
    rw [hcheck] at hover
    rw [hover, hseconds] at hgenerate
    rw [Settings.InRange, hseconds] at hrange
    exact .inr ⟨_, .windowLength hbase hrange, hgenerate⟩

/-! ## Behind the file -/

/-- Behind its file, a run that nothing has stood in the way of does what comes of reading: it
fails only with what that fails with, and if that leaves the extraction as it was, the header is
all that the file holds. -/
theorem Clear.run_of_reading (h : Clear t memory rate channels w s window) :
    let run := (generate (FileTree.access input) memory rate channels w).run t
    let reading := (readAndExtract (FileTree.access input) memory channels w
      (.begun s ⟨channels, rate⟩)).run
    ∃ t', storeOutput t s [] = .ok t' ∧
      (∀ result x failure, reading t' = ((result, x), t') → run.1 = .error failure →
        result = .error failure) ∧
      ∀ failure, reading t' = ((.error failure, .begun s ⟨channels, rate⟩), t') →
        run.1 = .error failure ∧
          storeOutput t s (s.header ⟨channels, rate⟩ window).encode = .ok run.2 := by
  intro run reading
  obtain ⟨base, hbase, hover⟩ := h.settled
  obtain ⟨t', hstore⟩ := h.writable []
  obtain ⟨t'', hfill⟩ := h.writable (s.header ⟨channels, rate⟩ window).encode
  have hopen := run_openInput input h.opens
  have hconfigure := run_configure input h.layout h.window_eq hstore
  rw [← h.granted] at hconfigure
  have hrun : run = (generateWith (FileTree.access input) memory rate channels w s).run t := by
    have hgenerate := run_generate_of_over input memory rate channels hbase
    rw [hover] at hgenerate
    exact hgenerate
  refine ⟨t', hstore, fun result x failure hwork hfailure => ?_, fun failure hwork => ?_⟩
  · obtain ⟨t₁, hclose⟩ : ∃ t₁, (close (FileTree.access input) x).run t' = ((), t₁) := ⟨_, rfl⟩
    rw [hrun, run_generateWith input hopen hconfigure hwork hclose] at hfailure
    cases result with
    | error cause => exact congrArg _ (Except.error.inj hfailure)
    | ok summary => cases hfailure
  · have hclose := run_close_begun input h.layout h.window_eq hstore hfill
    rw [hrun, run_generateWith input hopen hconfigure hwork hclose]
    exact ⟨rfl, hfill⟩

/-- Behind its file, a run that nothing has stood in the way of fails with a late hindrance and
leaves the header alone in the file, or without one, for its bytes if at all. -/
theorem Clear.run_cases (h : Clear t memory rate channels w s window) :
    let run := (generate (FileTree.access input) memory rate channels w).run t
    (∃ failure, LateHindrance t memory channels w failure ∧ run.1 = .error failure ∧
        storeOutput t s (s.header ⟨channels, rate⟩ window).encode = .ok run.2) ∨
      (∀ failure, ¬ LateHindrance t memory channels w failure) ∧
        ∀ failure, run.1 = .error failure →
          failure = .plain (.extraction .tooManyWindows) ∨
            ∃ count, failure = .plain (.input (.trailingBytes count)) := by
  intro run
  obtain ⟨t', hstore, hfails, hleft⟩ := h.run_of_reading input
  obtain ⟨-, haccepts, hreliable, -⟩ := Extraction.begun_accepts h.layout h.window_eq
  have hpos := (Layout.channels_of_check h.layout).1
  rcases hroom : Framer.hasRoom channels w.blockFrames memory
  · have hnew : Framer.new channels w.blockFrames memory =
        .error (.blockTooLarge channels w.blockFrames) := by
      rw [Framer.new, dif_neg (Nat.ne_of_gt hpos), if_neg (hroom ▸ Bool.false_ne_true)]
    exact .inl ⟨_, .block hroom, hleft _ (run_readAndExtract_of_error input hnew _)⟩
  obtain ⟨f, hnew⟩ : ∃ f, Framer.new channels w.blockFrames memory = .ok f := by
    rw [Framer.new, dif_neg (Nat.ne_of_gt hpos), if_pos hroom]
    exact ⟨_, rfl⟩
  have hwork := run_readAndExtract input (t := t') hnew (.begun s ⟨channels, rate⟩)
  rcases inputSource_cases input h.opens hstore with ⟨hdash, hdirectory, hsource⟩ |
    ⟨hread, hsteady⟩
  · rw [hsource, extract_of_fails] at hwork
    exact .inl ⟨_, .directory hdash hdirectory, hleft _ hwork⟩
  · refine .inr ⟨fun failure hlate => ?_, fun failure hfailure => ?_⟩
    · cases hlate with
      | block hroom' => cases hroom.symm.trans hroom'
      | directory hdash hdirectory => exact hread ⟨hdash, hdirectory⟩
    · exact extract_failure haccepts hreliable hnew hsteady (hfails _ _ _ hwork hfailure)

end Hindrances

/-- Whatever the system says to requests for memory, a run that something noticed early stands in
the way of fails with such a thing, and leaves all files as they were.  If only something noticed
late does, it fails with that, and its file then holds a header that counts no windows, whatever
it held before.  Otherwise only the bytes of the input make it fail: they end inside a frame, or
have more windows than can be counted. -/
theorem output_of_hindrances (t : FileTree) (memory : Request → Bool) (input : List UInt8)
    (rate : UInt32) (channels : Nat) (w : Wishes) :
    let run := (generate (FileTree.access input) memory rate channels w).run t
    let hindered := ∃ failure, Hindrance t memory rate channels w failure
    let late := ∃ failure, LateHindrance t memory channels w failure
    (hindered → ∃ failure, Hindrance t memory rate channels w failure ∧ run = (.error failure, t)) ∧
      (¬ hindered → late → ∃ s window failure, Settled t w s ∧
        s.windowFrames rate = .ok window ∧ LateHindrance t memory channels w failure ∧
        run.1 = .error failure ∧
        let header := (s.header ⟨channels, rate⟩ window).encode
        storeOutput t s header = .ok run.2 ∧
          ∀ name, s.output = some name → t.Grounded → run.2.contentOf name = .ok header) ∧
      (¬ hindered → ¬ late → ∀ failure, run.1 = .error failure →
        failure = .plain (.extraction .tooManyWindows) ∨
          ∃ count, failure = .plain (.input (.trailingBytes count))) := by
  intro run hindered late
  rcases clear_or_hindered input t memory rate channels w with ⟨s, window, hclear⟩ | hhindered
  · have hnone : ¬ hindered := by
      rintro ⟨failure, hfailure⟩
      exact hclear.not_hindrance hfailure
    rcases hclear.run_cases input with ⟨failure, hlate, hfailure, hstore⟩ | ⟨hnever, hbytes⟩
    · refine ⟨fun h => absurd h hnone, fun _ _ => ⟨s, window, failure, hclear.settled,
        hclear.window_eq, hlate, hfailure, hstore, fun name hname hgrounded => ?_⟩,
        fun _ h => absurd ⟨failure, hlate⟩ h⟩
      rw [storeOutput, hname] at hstore
      exact (FileTree.contentOf_store hgrounded hstore).2
    · have hno : ¬ late := by
        rintro ⟨failure, hlate⟩
        exact hnever failure hlate
      exact ⟨fun h => absurd h hnone, fun _ h => absurd h hno, fun _ _ => hbytes⟩
  · have hsome : hindered := hhindered.imp fun _ h => h.1
    exact ⟨fun _ => hhindered, fun h => absurd hsome h, fun h => absurd hsome h⟩

/-- With no rate, blocks that there is no room for do not cost the file. -/
theorem output_of_hindrances_rate :
    let t : FileTree := ⟨[(["peaks.dat"], .file [1, 2, 3])]⟩
    let w : Wishes := { output := some "peaks.dat", blockFrames := 10 ^ 18 }
    let run := (generate (FileTree.access []) Request.isAddressable 0 1 w).run t
    (∃ failure, Hindrance t Request.isAddressable 0 1 w failure ∧ run.1 = .error failure) ∧
      run.2 = t := by
  intro t w run
  obtain ⟨failure, hfailure, hrun⟩ :=
    (output_of_hindrances t Request.isAddressable [] 0 1 w).1 ⟨_, .noRate rfl⟩
  replace hrun : run = (.error failure, t) := hrun
  rw [hrun]
  exact ⟨⟨failure, hfailure, rfl⟩, rfl⟩

/-- Blocks that there is no room for cost the file that was there. -/
theorem output_lost_to_block :
    let t : FileTree := ⟨[(["peaks.dat"], .file [1, 2, 3])]⟩
    let w : Wishes :=
      { seconds := some shortestWindow, output := some "peaks.dat", blockFrames := 10 ^ 18 }
    let failure : Failure := .plain (.input (.blockTooLarge 1 (10 ^ 18)))
    let run := (generate (FileTree.access [0, 0, 0, 63]) Request.isAddressable 400 1 w).run t
    LateHindrance t Request.isAddressable 1 w failure ∧ run.1 = .error failure ∧
      t.contentOf "peaks.dat" = .ok [1, 2, 3] ∧
      run.2.contentOf "peaks.dat" =
        .ok [1, 0, 0, 0, 0, 0, 0, 0, 144, 1, 0, 0, 4, 0, 0, 0, 0, 0, 0, 0] := by
  refine ⟨.block (by decide), ?_, ?_, ?_⟩ <;> decide +kernel

end Command

end Peakfile
