/-
# A run on a tree, stage by stage

The making of a peak file goes through stages: the settings, the input, the file with its header
(`Extraction.begun`), the reading.  Each stage is answered apart on a tree of files, with what it
makes of the tree.  Where the device takes everything, an input that can be read to its end fails
only for its bytes (`Command.extract_failure`).
-/
import Peakfile.Proofs.Blocks
import Peakfile.Proofs.Storing
import Peakfile.Proofs.WindowLengths

namespace Peakfile

/-! ## What a reliable device leaves to fail -/

/-- A reliable device takes the count behind a header. -/
theorem Draft.Reliable.finish_ok {t : Draft} (h : t.Reliable) (hheader : t.headerWritten = true) :
    ∃ size, t.finish.1 = .ok size := by
  rw [Draft.finish, if_pos hheader]
  rcases hd : t.device with _ | d
  · exact ⟨t.size, rfl⟩
  · obtain ⟨d', hpatch, -⟩ := Draft.patchCount_accepted (h d hd) t.windows
    dsimp only
    rw [hpatch]
    exact ⟨t.size, rfl⟩

/-- On a reliable device and behind a header, a window is refused only if it cannot be
counted. -/
theorem Outlet.receive_keeps_counting (s : Settings) (window : List Extrema) (o : Outlet)
    (h : o.draft.Reliable ∧ o.draft.headerWritten = true) :
    ((receive s window o).2.draft.Reliable ∧
        (receive s window o).2.draft.headerWritten = true) ∧
      ∀ e, (receive s window o).1 = .error e → e = .tooManyWindows := by
  obtain ⟨hr, hheader⟩ := h
  have hwritten := (Draft.appendWindow_cases hheader (s.encodeWindow window)).1
  by_cases hfull : Draft.mostWindows ≤ o.draft.windows
  · have heq : o.draft.appendWindow (s.encodeWindow window) = (.error .tooManyWindows, o.draft) :=
      if_pos hfull
    refine ⟨⟨?_, hwritten⟩, fun e he => ?_⟩
    · show (o.draft.appendWindow (s.encodeWindow window)).2.Reliable
      rw [heq]
      exact hr
    · replace he : (o.draft.appendWindow (s.encodeWindow window)).1 = .error e := he
      rw [heq] at he
      exact (Except.error.inj he).symm
  · obtain ⟨hok, hr'⟩ := hr.appendWindow hheader (Nat.lt_of_not_le hfull) (s.encodeWindow window)
    refine ⟨⟨hr', hwritten⟩, fun e he => ?_⟩
    cases hok.symm.trans he

namespace Extraction

variable {x : Extraction} {channels : Nat} {samples : List Sample} {cause : Error}

theorem Accepts.headerWritten (h : x.Accepts channels) : x.outlet.draft.headerWritten = true := by
  obtain ⟨w, hstage, -⟩ := h.stage
  exact headerWritten_of_ready h.sound hstage

/-- On a reliable device, whole frames are refused only if their windows cannot be counted. -/
theorem Accepts.push_counting (h : x.Accepts channels) (hr : x.outlet.draft.Reliable)
    (hsamples : channels ∣ samples.length) :
    (x.push (.interleaved samples)).2.outlet.draft.Reliable ∧
      ∀ e, (x.push (.interleaved samples)).1 = .error e → e = .tooManyWindows := by
  obtain ⟨w, -, -, heq⟩ := h.push_eq_addFrames hsamples
  obtain ⟨hkept, herror⟩ := Windower.addFrames_keeps (Outlet.receive_keeps_counting x.settings) w
    (Cut.whole channels samples) ⟨hr, h.headerWritten⟩
  rw [heq]
  rcases hadd : w.addFrames (Outlet.receive x.settings) (Cut.whole channels samples) x.outlet with
    ⟨cause | _, w', o'⟩
  · rw [hadd] at hkept herror
    exact ⟨hkept.1, fun e he => herror e he⟩
  · rw [hadd] at hkept
    exact ⟨hkept.1, nofun⟩

/-- On a reliable device, the end is refused only if the last window cannot be counted. -/
theorem Accepts.finalize_counting (h : x.Accepts channels) (hr : x.outlet.draft.Reliable)
    (herror : x.finalize.1 = .error cause) : cause = .tooManyWindows := by
  obtain ⟨w, hstage, -⟩ := h.stage
  obtain ⟨hkept, hflushed⟩ := Windower.flush_keeps (Outlet.receive_keeps_counting x.settings) w
    ⟨hr, h.headerWritten⟩
  rcases finalize_cases hstage with ⟨e, w', o', hflush, heq⟩ |
    ⟨partialWindow, w', o', hflush, ⟨e, draft, hdraft, heq⟩ | ⟨size, draft, -, heq⟩⟩
  · rw [hflush] at hflushed
    rw [heq] at herror
    obtain rfl := Except.error.inj herror
    exact hflushed _ rfl
  · rw [hflush] at hkept
    obtain ⟨size, hok⟩ := Draft.Reliable.finish_ok hkept.1 hkept.2
    rw [hdraft] at hok
    cases hok
  · rw [heq] at herror
    cases herror

/-! ## Extractions that have begun -/

/-- Where a file is to be made, configuring writes the header to the new file. -/
theorem configure_file {name : String} (hs : x.stage = .unconfigured)
    (hx : x.destination = .file name) {l : Layout} {granted : Bool} {windower : Windower}
    {header : Header} (ho : x.opening l granted = .ok (windower, header)) {d : Device}
    {draft : Draft}
    (hheader : (Draft.onto d).writeHeader header = (.ok (), draft)) :
    x.configure l granted (.ok d) =
      (.ok (), { x with outlet := { x.outlet with draft }, stage := .ready windower }) := by
  unfold configure
  rw [hs, ho, hx]
  dsimp only
  rw [hheader]

/-- Where no file was made, configuring is answered with the reason. -/
theorem configure_file_refused {name : String} (hs : x.stage = .unconfigured)
    (hx : x.destination = .file name) {l : Layout} {granted : Bool} {start : Windower × Header}
    (ho : x.opening l granted = .ok start) (cause : StorageError) :
    (x.configure l granted (.error cause)).1 = .error (.device cause) := by
  unfold configure
  rw [hs, ho, hx]

variable {s : Settings} {l : Layout} {window : Nat}

theorem new_of_none (hs : s.output = none) : new s false = toward s .nowhere false := by
  rw [new, hs]
  rfl

theorem new_of_some {name : String} (hs : s.output = some name) :
    new s false = toward s (.file name) false := by
  rw [new, hs]
  rfl

/-- Without a length of a window in frames, nothing is opened. -/
theorem opening_of_windowFrames (hl : l.check = .ok ()) {cause : Error}
    (hw : s.windowFrames l.rate = .error cause) (granted : Bool) :
    (new s false).opening l granted = .error cause := by
  unfold opening
  rw [hl]
  dsimp only
  split
  · next cause' hcause =>
    obtain rfl := Except.error.inj (hcause.symm.trans hw)
    rfl
  · next frames hframes => cases hframes.symm.trans hw

/-- Behind its header, an extraction to a file accepts frames, and the file holds the header
alone. -/
theorem configure_new_file {name : String} (hs : s.output = some name) (hl : l.check = .ok ())
    (hw : s.windowFrames l.rate = .ok window) :
    let r := (new s false).configure l true (.ok {})
    r.1 = .ok () ∧ r.2.Fed s l window [] ∧ r.2.outlet.draft.Reliable ∧
      r.2.fileContent = some (name, (s.header l window).encode) := by
  have hcontent : (s.header l window).encode = s.content l window 0 [] := by
    rw [Settings.content, List.flatMap_nil, List.append_nil]
    rfl
  have hblank : Device.Blank {} := ⟨rfl, rfl, rfl⟩
  have hreliable : Device.Reliable {} := ⟨by simp, rfl, rfl, by simp, rfl⟩
  obtain ⟨hok, hkept⟩ := Draft.writeHeader_of_reliable hreliable (s.header l window)
  have hwrite := Draft.writeHeader_onto hblank (s.header l window)
  rcases hheader : (Draft.onto {}).writeHeader (s.header l window) with ⟨answer, draft⟩
  rw [hheader] at hok hkept hwrite
  obtain rfl : answer = .ok () := hok
  have hopening := opening_eq (x := toward s (.file name) false) hl hw
  have hconfigure := configure_file rfl rfl hopening hheader
  dsimp only
  rw [new_of_some hs, hconfigure]
  rcases hwrite with ⟨-, hholds⟩ | ⟨cause, hcause, -⟩
  · obtain ⟨device, hdevice, hdraft⟩ := hholds.device
    replace hholds : draft.Holds (s.content l window 0 []) 0 := hcontent ▸ hholds
    replace hdevice : draft.device = some device := hdevice
    refine ⟨rfl, ⟨rfl, _, rfl, .start _ hholds⟩, hkept, ?_⟩
    simp only [fileContent, toward, hdevice, hdraft.content_eq]
    rfl
  · cases hcause

/-- An extraction to no file accepts frames as well. -/
theorem configure_new_nowhere (hs : s.output = none) (hl : l.check = .ok ())
    (hw : s.windowFrames l.rate = .ok window) (created : Except StorageError Device) :
    let r := (new s false).configure l true created
    r.1 = .ok () ∧ r.2.Accepts l.channels ∧ r.2.outlet.draft.Reliable ∧
      r.2.fileContent = none := by
  have hfile : ∀ name, (toward s .nowhere false).destination ≠ .file name := by
    intro name hname
    cases hname
  dsimp only
  rw [new_of_none hs, configure_eq rfl hfile, opening_eq (x := toward s .nowhere false) hl hw]
  exact ⟨rfl, ⟨rfl, ⟨_, rfl, List.length_replicate⟩, (Layout.channels_of_check hl).1⟩, nofun, rfl⟩

/-- An extraction to the file that its settings name, if any, with its header written to a new
file. -/
def begun (s : Settings) (l : Layout) : Extraction := ((new s false).configure l true (.ok {})).2

/-- Behind its header, an extraction accepts frames, and its file, if any, holds the header
alone. -/
theorem begun_accepts (hl : l.check = .ok ()) (hw : s.windowFrames l.rate = .ok window) :
    (new s false).configure l true (.ok {}) = (.ok (), begun s l) ∧
      (begun s l).Accepts l.channels ∧ (begun s l).outlet.draft.Reliable ∧
      (begun s l).fileContent = s.output.map fun name => (name, (s.header l window).encode) := by
  rcases hs : s.output with _ | name
  · obtain ⟨hok, haccepts, hr, hfile⟩ := configure_new_nowhere hs hl hw (.ok {})
    exact ⟨Prod.ext hok rfl, haccepts, hr, hfile⟩
  · obtain ⟨hok, hfed, hr, hfile⟩ := configure_new_file hs hl hw
    exact ⟨Prod.ext hok rfl, hfed.accepts (Layout.channels_of_check hl).1, hr, hfile⟩

end Extraction

/-- There is a depth for eight bits and for sixteen. -/
theorem Depth.ofBits?_eq_none_iff {bits : Nat} :
    Depth.ofBits? bits = none ↔ bits ≠ 8 ∧ bits ≠ 16 := by
  unfold Depth.ofBits?
  split <;> simp_all

namespace Command

/-! ## Settings -/

/-- The settings that a run starts from: the standard, or those of its settings file. -/
inductive StartsFrom (t : FileTree) (w : Wishes) : Settings → Prop
  | standard (hname : w.settings = none) : StartsFrom t w .standard
  | loaded {name : String} {base : Settings} (hname : w.settings = some name)
      (hload : Settings.load t name = .ok base) : StartsFrom t w base

/-- The settings that a run comes to with its wishes. -/
def Settled (t : FileTree) (w : Wishes) (s : Settings) : Prop :=
  ∃ base, StartsFrom t w base ∧ w.over base = .ok s

section Stages

variable {t t' : FileTree} {rate : UInt32} {channels blockFrames window : Nat} {w : Wishes}
  {s base other : Settings} {l : Layout} {x : Extraction} {f : Framer} {source : Source}
  {failure : Failure} {memory : Request → Bool} (input : List UInt8)

theorem StartsFrom.unique (h : StartsFrom t w base) (hother : StartsFrom t w other) :
    base = other := by
  cases h with
  | standard hname =>
    cases hother with
    | standard => rfl
    | loaded hname' => rw [hname] at hname'; cases hname'
  | loaded hname hload =>
    cases hother with
    | standard hname' => rw [hname] at hname'; cases hname'
    | loaded hname' hload' =>
      obtain rfl := Option.some.inj (hname.symm.trans hname')
      exact Except.ok.inj (hload.symm.trans hload')

theorem Settled.unique (h : Settled t w s) (hother : Settled t w other) : s = other := by
  obtain ⟨base, hbase, hover⟩ := h
  obtain ⟨base', hbase', hover'⟩ := hother
  obtain rfl := hbase.unique hbase'
  exact Except.ok.inj (hover.symm.trans hover')

/-- Wishes are for bits that no depth has, or make settings whose window length is to be
checked. -/
theorem over_cases (w : Wishes) (base : Settings) :
    (∃ bits, w.bits = some bits ∧ bits ≠ 8 ∧ bits ≠ 16 ∧
        w.over base = .error (.depth bits)) ∨
      ((∀ bits, w.bits = some bits → ¬ (bits ≠ 8 ∧ bits ≠ 16)) ∧
        ∃ s : Settings, s.seconds = w.seconds.getD base.seconds ∧
          w.over base = s.check.map fun _ => s) := by
  rw [Wishes.over]
  rcases hbits : w.bits with _ | bits
  · exact .inr ⟨nofun, _, rfl, rfl⟩
  · rcases hdepth : Depth.ofBits? bits with _ | depth
    · obtain ⟨height, hsixteen⟩ := Depth.ofBits?_eq_none_iff.1 hdepth
      refine .inl ⟨bits, rfl, height, hsixteen, ?_⟩
      dsimp only
      rw [hdepth]
    · dsimp only
      rw [hdepth]
      refine .inr ⟨?_, _, ?_, rfl⟩
      · rintro _ ⟨⟩ hnone
        rw [Depth.ofBits?_eq_none_iff.2 hnone] at hdepth
        cases hdepth
      · rfl

/-- The settings that a run comes to have a depth and a window length in range. -/
theorem Settled.inRange (h : Settled t w s) :
    (∀ bits, w.bits = some bits → ¬ (bits ≠ 8 ∧ bits ≠ 16)) ∧ s.InRange ∧
      ∃ base, StartsFrom t w base ∧ s.seconds = w.seconds.getD base.seconds := by
  obtain ⟨base, hbase, hover⟩ := h
  rcases over_cases w base with ⟨bits, -, -, -, hdepth⟩ | ⟨hbits, wished, hseconds, hwished⟩
  · rw [hdepth] at hover
    cases hover
  · rw [hwished] at hover
    rcases hcheck : wished.check with cause | _
    · rw [hcheck] at hover
      cases hover
    · rw [hcheck] at hover
      obtain rfl := Except.ok.inj hover
      exact ⟨hbits, Settings.check_eq_ok_iff.1 hcheck, base, hbase, hseconds⟩

/-- The settings to start from leave the tree as it is, and so does their failure. -/
theorem run_baseSettings (h : StartsFrom t w base) :
    (baseSettings (FileTree.access input) w).run t = (.ok base, t) := by
  rw [baseSettings]
  cases h with
  | standard hname =>
    rw [hname]
    rfl
  | loaded hname hload =>
    rw [hname]
    rw [Settings.load] at hload
    simp only [StateT.run, FileTree.access, StateT.bind, bind, hload]
    rfl

theorem run_baseSettings_refused {name : String} {cause : Error} (hname : w.settings = some name)
    (hload : Settings.load t name = .error cause) :
    (baseSettings (FileTree.access input) w).run t =
      (.error ⟨some s!"Failed to load config {name}", .extraction cause⟩, t) := by
  rw [baseSettings, hname]
  rw [Settings.load] at hload
  simp only [StateT.run, FileTree.access, StateT.bind, bind, hload]
  rfl

/-! ## Input -/

theorem run_openInput (hopens : w.input = "-" ∨ ∃ found, t.find w.input = .ok found) :
    (openInput (FileTree.access input) w).run t = (.ok (), t) := by
  rw [openInput]
  split_ifs with hstandard
  · rfl
  · rcases hopens with hdash | ⟨found, hfound⟩
    · exact absurd (decide_eq_true hdash) hstandard
    · simp only [StateT.run, FileTree.access, StateT.bind, bind, hfound]
      rfl

theorem run_openInput_refused {cause : StorageError} (hinput : w.input ≠ "-")
    (hfind : t.find w.input = .error cause) :
    (openInput (FileTree.access input) w).run t =
      (.error ⟨some s!"Failed to open input {w.input}", .storage cause⟩, t) := by
  rw [openInput, if_neg (by simpa [Wishes.fromStandardInput] using hinput)]
  simp only [StateT.run, FileTree.access, StateT.bind, bind, hfind]
  rfl

/-! ## The file -/

/-- The failure of an extraction that cannot be configured. -/
def setupFailure (cause : Error) : Failure :=
  ⟨some "Failed to set up waveform output", .extraction cause⟩

/-- A tree with a file of the given content under the name that settings have for it, if any. -/
def storeOutput (t : FileTree) (s : Settings) (content : List UInt8) :
    Except StorageError FileTree :=
  match s.output with
  | none => .ok t
  | some name => t.store name content

/-- Whether there can be a file does not depend on its content. -/
theorem storeOutput_cases (t : FileTree) (s : Settings) :
    (∀ content, ∃ t', storeOutput t s content = .ok t') ∨
      ∃ name cause, s.output = some name ∧ t.placeToWrite name = .error cause ∧
        ∀ content, storeOutput t s content = .error cause := by
  rcases hs : s.output with _ | name
  · refine .inl fun content => ⟨t, ?_⟩
    rw [storeOutput, hs]
  · rcases hplace : t.placeToWrite name with cause | place
    · refine .inr ⟨name, cause, rfl, hplace, fun content => ?_⟩
      rw [storeOutput, hs]
      dsimp only
      rw [FileTree.store, hplace]
      rfl
    · refine .inl fun content => ⟨t.put place (.file content), ?_⟩
      rw [storeOutput, hs]
      dsimp only
      rw [FileTree.store, hplace]
      rfl

/-- What cannot be opened makes no file. -/
theorem run_configure_unopened {granted : Bool} {cause : Error}
    (ho : (Extraction.new s false).opening l granted = .error cause) :
    ∃ x, (configure (FileTree.access input) (.new s false) l granted).run t =
      ((.error (setupFailure cause), x), t) := by
  have hnone : (Extraction.new s false).fileToCreate l granted = none := by
    unfold Extraction.fileToCreate
    rw [ho]
    split
    · next hopening => cases hopening
    · rfl
  have hrefused : (Extraction.new s false).configure l granted (.ok {}) =
      (.error cause, Extraction.new s false) := by
    unfold Extraction.configure
    rw [ho]
    rfl
  refine ⟨Extraction.new s false, ?_⟩
  show (configure (FileTree.access input) (.new s false) l granted) t = _
  simp only [configure, hnone, bind, StateT.bind, pure, StateT.pure, Except.map, hrefused]
  rfl

/-- What can be opened asks for the file that the settings name. -/
theorem fileToCreate_new (hl : l.check = .ok ()) (hw : s.windowFrames l.rate = .ok window) :
    (Extraction.new s false).fileToCreate l true = s.output := by
  unfold Extraction.fileToCreate
  rcases hs : s.output with _ | name
  · rw [Extraction.new_of_none hs]
    rfl
  · rw [Extraction.new_of_some hs,
      Extraction.opening_eq (x := Extraction.toward s (.file name) false) hl hw]
    rfl

/-- A file that was made is empty until it is filled. -/
theorem run_configure (hl : l.check = .ok ()) (hw : s.windowFrames l.rate = .ok window)
    (hstore : storeOutput t s [] = .ok t') :
    (configure (FileTree.access input) (.new s false) l true).run t =
      ((.ok (), .begun s l), t') := by
  obtain ⟨hbegun, -⟩ := Extraction.begun_accepts hl hw
  show (configure (FileTree.access input) (.new s false) l true) t = _
  rw [configure, fileToCreate_new hl hw]
  rw [storeOutput] at hstore
  rcases hs : s.output with _ | name
  · rw [hs] at hstore
    obtain rfl := Except.ok.inj hstore
    simp only [bind, StateT.bind, pure, StateT.pure, Except.map, hbegun]
  · rw [hs] at hstore
    dsimp only at hstore
    simp only [FileTree.access, hstore, bind, StateT.bind, pure, StateT.pure, Except.map, hbegun]

/-- A file that cannot be made is not made. -/
theorem run_configure_refused {cause : StorageError} (hl : l.check = .ok ())
    (hw : s.windowFrames l.rate = .ok window) (hstore : storeOutput t s [] = .error cause) :
    ∃ x, (configure (FileTree.access input) (.new s false) l true).run t =
      ((.error (setupFailure (.device cause)), x), t) := by
  rw [storeOutput] at hstore
  rcases hs : s.output with _ | name
  · rw [hs] at hstore
    cases hstore
  rw [hs] at hstore
  dsimp only at hstore
  have hrefused : ((Extraction.new s false).configure l true (.error cause)).1 =
      .error (.device cause) := by
    rw [Extraction.new_of_some hs]
    exact Extraction.configure_file_refused rfl rfl
      (Extraction.opening_eq (x := Extraction.toward s (.file name) false) hl hw) cause
  rcases hconfigure : (Extraction.new s false).configure l true (.error cause) with ⟨answer, x⟩
  rw [hconfigure] at hrefused
  obtain rfl : answer = .error (.device cause) := hrefused
  refine ⟨x, ?_⟩
  show (configure (FileTree.access input) (.new s false) l true) t = _
  rw [configure, fileToCreate_new hl hw, hs]
  simp only [FileTree.access, hstore, bind, StateT.bind, pure, StateT.pure, Except.map,
    hconfigure]
  rfl

/-- An extraction that is left behind its header has its file filled with the header, over what
was made of it before. -/
theorem run_close_begun (hl : l.check = .ok ()) (hw : s.windowFrames l.rate = .ok window)
    {t'' : FileTree} (hstore : storeOutput t s [] = .ok t')
    (hfill : storeOutput t s (s.header l window).encode = .ok t'') :
    (close (FileTree.access input) (.begun s l)).run t' = ((), t'') := by
  obtain ⟨-, -, -, hcontent⟩ := Extraction.begun_accepts hl hw
  rw [storeOutput] at hstore hfill
  rw [close, hcontent]
  rcases hs : s.output with _ | name
  · rw [hs] at hstore hfill
    obtain rfl := Except.ok.inj hstore
    obtain rfl := Except.ok.inj hfill
    rfl
  · rw [hs] at hstore hfill
    have hagain := (FileTree.store_store hstore (s.header l window).encode).trans hfill
    simp only [StateT.run, Option.map_some, FileTree.access, hagain]

/-! ## Reading -/

/-- Raw audio from a steady source towards a reliable device fails only for its bytes: they
end inside a frame, or have more windows than a header can count. -/
theorem extract_failure (h : x.Accepts channels) (hr : x.outlet.draft.Reliable)
    (hnew : Framer.new channels blockFrames memory = .ok f) (hs : source.Steady)
    (hfailure : (extract x f source).1 = .error failure) :
    failure = .plain (.extraction .tooManyWindows) ∨
      ∃ count, failure = .plain (.input (.trailingBytes count)) := by
  have hwhole := Framer.dvd_length_samplesFrom channels source.data 0
  obtain ⟨hkept, hcounting⟩ := h.push_counting hr hwhole
  have htook := h.push hwhole
  rw [extract, h.feed_eq (Framer.holds_of_new hnew hs.forthcoming) hs.never_fails] at hfailure
  rcases hpush : x.push (.interleaved (Framer.samplesFrom channels source.data 0)) with
    ⟨cause | _, x'⟩
  · rw [hpush] at hfailure hcounting
    obtain rfl := Except.error.inj hfailure
    rw [hcounting cause rfl]
    exact .inl rfl
  · rw [hpush] at hfailure hkept htook
    dsimp only at hfailure
    rw [Framer.ending] at hfailure
    split_ifs at hfailure with hmod
    · dsimp only at hfailure
      rcases hfinalize : x'.finalize with ⟨cause | summary, x''⟩
      · have hcause := (htook rfl).finalize_counting hkept (congrArg Prod.fst hfinalize)
        rw [hfinalize] at hfailure
        obtain rfl := Except.error.inj hfailure
        rw [hcause]
        exact .inl rfl
      · rw [hfinalize] at hfailure
        cases hfailure
    · exact .inr ⟨_, (Except.error.inj hfailure).symm⟩

/-- Blocks that there is no room for are noticed before anything is read. -/
theorem run_readAndExtract_of_error {cause : InputError}
    (hnew : Framer.new channels w.blockFrames memory = .error cause) (x : Extraction) :
    (readAndExtract (FileTree.access input) memory channels w x).run t =
      ((.error (.plain (.input cause)), x), t) := by
  rw [readAndExtract, hnew]
  rfl

/-- The input as a source, standing in a tree. -/
def inputSource (input : List UInt8) (t : FileTree) (w : Wishes) : Source :=
  if w.fromStandardInput then { data := input }
  else
    match t.contentOf w.input with
    | .ok data => { data }
    | .error cause => { data := [], script := [.fails cause] }

theorem run_readAndExtract (hnew : Framer.new channels w.blockFrames memory = .ok f)
    (x : Extraction) :
    (readAndExtract (FileTree.access input) memory channels w x).run t =
      (extract x f (inputSource input t w), t) := by
  rw [readAndExtract, hnew]
  show (do return extract x f (← source _ w) : StateM FileTree _) t = _
  rw [source, inputSource]
  split_ifs
  · rfl
  · simp only [FileTree.access, bind, StateT.bind, pure, StateT.pure]
    rcases t.contentOf w.input with cause | data <;> rfl

/-- Input that cannot be read fails at the first reading, before anything is pushed. -/
theorem extract_of_fails (x : Extraction) (f : Framer) (cause : StorageError) :
    extract x f { data := [], script := [.fails cause] } =
      (.error (.plain (.input (.device cause))), x) := by
  have hnext : f.next { data := [], script := [.fails cause] } =
      (.error (.device cause), f, { data := [] }) := by
    rw [Framer.next]
    rfl
  have hfeed : x.feed f { data := [], script := [.fails cause] } =
      (.error (.input (.device cause)), x) := by
    rw [Extraction.feed]
    split <;> simp_all
  rw [extract, hfeed]
  rfl

/-- An input that was opened can be read to its end, unless it is a directory. -/
theorem inputSource_cases
    (hopens : w.input = "-" ∨ ∃ found, t.find w.input = .ok found)
    (hstore : storeOutput t s [] = .ok t') :
    (w.input ≠ "-" ∧ t.isDirectory w.input = true ∧
        inputSource input t' w = { data := [], script := [.fails .isADirectory] }) ∨
      (¬ (w.input ≠ "-" ∧ t.isDirectory w.input = true) ∧ (inputSource input t' w).Steady) := by
  have hsteady : ∀ data, Source.Steady { data } :=
    fun data => ⟨⟨nofun, nofun⟩, nofun⟩
  by_cases hdash : w.input = "-"
  · refine .inr ⟨fun h => h.1 hdash, ?_⟩
    rw [inputSource, if_pos (by simpa [Wishes.fromStandardInput] using hdash)]
    exact hsteady input
  · obtain ⟨⟨place, entry⟩, hfind⟩ := hopens.resolve_left hdash
    -- The file may have been made over the input, but never over a directory.
    have hfind' : ∃ entry', t'.find w.input = .ok (place, entry') ∧
        (entry' = .directory ↔ entry = .directory) := by
      rw [storeOutput] at hstore
      rcases hs : s.output with _ | name
      · rw [hs] at hstore
        obtain rfl := Except.ok.inj hstore
        exact ⟨entry, hfind, Iff.rfl⟩
      · rw [hs] at hstore
        exact FileTree.find_store hfind hstore
    obtain ⟨entry', hfind', hsame⟩ := hfind'
    rw [inputSource, if_neg (by simpa [Wishes.fromStandardInput] using hdash),
      FileTree.contentOf, hfind', FileTree.isDirectory, hfind]
    rcases entry' with _ | data
    · rw [hsame.1 rfl]
      exact .inl ⟨hdash, rfl, rfl⟩
    · rcases entry with _ | data'
      · cases hsame.2 rfl
      · exact .inr ⟨fun h => Bool.false_ne_true h.2, hsteady data⟩

/-! ## The whole run -/

theorem run_generateWith_unopened
    (hopen : (openInput (FileTree.access input) w).run t = (.error failure, t)) :
    (generateWith (FileTree.access input) memory rate channels w s).run t =
      (.error failure, t) := by
  replace hopen : (openInput (FileTree.access input) w) t = (.error failure, t) := hopen
  simp only [StateT.run, generateWith, bind, StateT.bind, hopen]
  rfl

theorem run_generateWith_unconfigured
    (hopen : (openInput (FileTree.access input) w).run t = (.ok (), t))
    (hconfigure : (configure (FileTree.access input) (.new s false) ⟨channels, rate⟩
      (memory (.bounds channels))).run t =
      ((.error failure, x), t)) :
    (generateWith (FileTree.access input) memory rate channels w s).run t =
      (.error failure, t) := by
  replace hopen : (openInput (FileTree.access input) w) t = (.ok (), t) := hopen
  replace hconfigure : (configure (FileTree.access input) (.new s false) ⟨channels, rate⟩
    (memory (.bounds channels))) t = ((.error failure, x), t) := hconfigure
  simp only [StateT.run, generateWith, bind, StateT.bind, hopen, hconfigure]
  rfl

/-- A run stops at what cannot be opened. -/
theorem run_generateWith_of_opening {cause : Error}
    (hopen : (openInput (FileTree.access input) w).run t = (.ok (), t))
    (ho : (Extraction.new s false).opening ⟨channels, rate⟩ (memory (.bounds channels)) =
      .error cause) :
    (generateWith (FileTree.access input) memory rate channels w s).run t =
      (.error (setupFailure cause), t) := by
  obtain ⟨x, hconfigure⟩ := run_configure_unopened (t := t) input ho
  exact run_generateWith_unconfigured input hopen hconfigure

/-- Behind its file, a run reads its input, and then fills the file. -/
theorem run_generateWith {t'' : FileTree} {x' : Extraction} {result : Except Failure Summary}
    (hopen : (openInput (FileTree.access input) w).run t = (.ok (), t))
    (hconfigure : (configure (FileTree.access input) (.new s false) ⟨channels, rate⟩
      (memory (.bounds channels))).run t =
      ((.ok (), x), t'))
    (hwork : (readAndExtract (FileTree.access input) memory channels w x).run t' =
      ((result, x'), t'))
    (hclose : (close (FileTree.access input) x').run t' = ((), t'')) :
    (generateWith (FileTree.access input) memory rate channels w s).run t =
      (result.map fun summary => summaryLine summary rate s.output, t'') := by
  replace hopen : (openInput (FileTree.access input) w) t = (.ok (), t) := hopen
  replace hconfigure : (configure (FileTree.access input) (.new s false) ⟨channels, rate⟩
    (memory (.bounds channels))) t = ((.ok (), x), t') := hconfigure
  replace hwork : (readAndExtract (FileTree.access input) memory channels w x) t' =
    ((result, x'), t') := hwork
  replace hclose : (close (FileTree.access input) x') t' = ((), t'') := hclose
  simp only [StateT.run, generateWith, bind, StateT.bind, hopen, hconfigure, hwork, hclose]
  rfl

theorem run_generate_of_base_error (hrun : (baseSettings (FileTree.access input) w).run t =
      (.error failure, t)) :
    (generate (FileTree.access input) memory rate channels w).run t = (.error failure, t) := by
  replace hrun : (baseSettings (FileTree.access input) w) t = (.error failure, t) := hrun
  simp only [StateT.run, generate, bind, StateT.bind, hrun]
  rfl

/-- Settings that there are decide the rest of a run. -/
theorem run_generate_of_over (memory : Request → Bool) (rate : UInt32) (channels : Nat)
    (hbase : StartsFrom t w base) :
    (generate (FileTree.access input) memory rate channels w).run t =
      match w.over base with
      | .error cause => (.error (.plain (.extraction cause)), t)
      | .ok s => (generateWith (FileTree.access input) memory rate channels w s).run t := by
  have hrun : (baseSettings (FileTree.access input) w) t = (.ok base, t) :=
    run_baseSettings input hbase
  show (generate (FileTree.access input) memory rate channels w) t = _
  simp only [generate, bind, StateT.bind, hrun]
  rcases w.over base with cause | s
  · rfl
  · rfl

end Stages

end Command

end Peakfile
