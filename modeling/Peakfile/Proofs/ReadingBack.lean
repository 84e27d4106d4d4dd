/-
# Finished files read back

A file is finished once finalizing is answered by totals, whatever its device did on the
way.  Its bytes are then read as a header that tells settings, layout, window length and the
count of windows, none of them cut to fit a word (`Header.Tells`), and as points of equal
size, so that each point of each window is found at a place of its own
(`Settings.take_drop_points`).  A report on the file calls it complete
(`Extraction.finished_file_reads_back`).
-/
import Peakfile.Command.Run
import Peakfile.Proofs.HeaderCodec
import Peakfile.Proofs.Points

namespace Peakfile

/-! ## Places of points -/

namespace Cut

variable {α β : Type} {f : α → List β} {n : Nat}

/-- Pieces of equal length take so many times that length. -/
theorem length_flatMap (hf : ∀ a, (f a).length = n) (as : List α) :
    (as.flatMap f).length = as.length * n := by
  rw [List.length_flatMap]
  simp only [hf]
  rw [List.map_const', List.sum_replicate, smul_eq_mul]

/-- Pieces of equal length stand at the multiples of that length. -/
theorem take_drop_flatMap (hf : ∀ a, (f a).length = n) {as : List α} {i : Nat}
    (hi : i < as.length) :
    ((as.flatMap f).drop (i * n)).take n = f as[i] := by
  induction as generalizing i with
  | nil => cases hi
  | cons a as ih =>
    rw [List.flatMap_cons]
    cases i with
    | zero => rw [Nat.zero_mul, List.drop_zero, List.take_left' (hf a), List.getElem_cons_zero]
    | succ i =>
      rw [Nat.succ_mul, Nat.add_comm, ← List.drop_drop, List.drop_left' (hf a),
        ih (Nat.lt_of_succ_lt_succ hi), List.getElem_cons_succ]

end Cut

namespace Settings

variable (s : Settings) (channels : Nat)

/-- A window has one point, or one for each channel. -/
theorem length_pairs (frames : List Frame) :
    (s.pairs channels frames).length = if s.split then channels else 1 := by
  rw [pairs]
  split_ifs
  · rw [List.length_map, List.length_range]
  · rfl

/-- The points of every window take the same room. -/
theorem length_points (frames : List Frame) :
    (s.points channels frames).length =
      s.depth.pointSize * if s.split then channels else 1 := by
  rw [points, Cut.length_flatMap (fun _ => Depth.length_encodePoint _ _ _),
    length_pairs, Nat.mul_comm]

/-- **Places of points.**  A point stands behind the points of all windows before its own
and behind those of the channels before its own. -/
theorem take_drop_points (groups : List (List Frame)) {i c : Nat} (hi : i < groups.length)
    (hc : c < if s.split then channels else 1) :
    ∃ pair, (s.pairs channels groups[i])[c]? = some pair ∧
      ((groups.flatMap (s.points channels)).drop
          (i * (s.depth.pointSize * if s.split then channels else 1) +
            c * s.depth.pointSize)).take s.depth.pointSize =
        s.depth.encodePoint pair.1 pair.2 := by
  have hpair : c < (s.pairs channels groups[i]).length := by
    rw [s.length_pairs]
    exact hc
  have hwindow := Cut.take_drop_flatMap (s.length_points channels) hi
  have hpoint := Cut.take_drop_flatMap
    (f := fun pair : Sample × Sample => s.depth.encodePoint pair.1 pair.2)
    (fun _ => Depth.length_encodePoint _ _ _) hpair
  rw [← points, ← hwindow] at hpoint
  refine ⟨_, List.getElem?_eq_getElem hpair, ?_⟩
  -- The place of the point lies in the room of its window.
  have hroom : s.depth.pointSize ≤
      (s.depth.pointSize * if s.split then channels else 1) - c * s.depth.pointSize := by
    have hnext := Nat.mul_le_mul_left s.depth.pointSize (Nat.succ_le_of_lt hc)
    rw [Nat.mul_succ, Nat.mul_comm _ c] at hnext
    omega
  rw [List.drop_take, List.take_take, Nat.min_eq_left hroom, List.drop_drop] at hpoint
  exact hpoint

end Settings

/-! ## Headers of files -/

/-- A header that tells what a file was made with and how many windows it has. -/
structure Header.Tells (h : Header) (s : Settings) (l : Layout) (window windows : Nat) : Prop where
  depth_eq : h.depth = s.depth
  sampleRate_eq : h.sampleRate = l.rate
  windowFrames_eq : h.windowFrames.toNat = window
  windows_eq : h.windows.toNat = windows
  channels_eq : h.channels.map UInt32.toNat = if s.split then some l.channels else none

namespace Header.Tells

variable {h : Header} {s : Settings} {l : Layout} {window windows : Nat}

/-- What a header tells of the points of a window. -/
theorem pointsPerWindow_eq (htells : h.Tells s l window windows) :
    h.pointsPerWindow = if s.split then l.channels else 1 := by
  have hchannels := htells.channels_eq
  rw [Header.pointsPerWindow]
  rcases hc : h.channels with _ | channels
  · rw [hc] at hchannels
    split_ifs at hchannels ⊢ with hsplit
    · cases hchannels
    · rfl
  · rw [hc] at hchannels
    split_ifs at hchannels ⊢ with hsplit
    · exact Option.some.inj hchannels
    · cases hchannels

/-- What a header tells of the room that the points of a window take. -/
theorem windowSize_eq (htells : h.Tells s l window windows) :
    h.windowSize = s.depth.pointSize * if s.split then l.channels else 1 := by
  rw [Header.windowSize_eq_mul, htells.pointsPerWindow_eq, htells.depth_eq]

/-- What a header tells of the room that all points take, if a word of 64 bits can tell it. -/
theorem payloadSize_eq (htells : h.Tells s l window windows)
    (hlt : windows * h.windowSize < UInt64.size) : h.payloadSize = windows * h.windowSize := by
  rw [← htells.windows_eq] at hlt ⊢
  exact Header.payloadSize_of_lt hlt

end Header.Tells

namespace Settings

variable {s : Settings} {l : Layout} {window : Nat}

/-- The header of a file with a count of windows. -/
def finishedHeader (s : Settings) (l : Layout) (window count : Nat) : Header :=
  { s.header l window with windows := .ofNat count }

/-- No word of a header is too small for what it has to tell. -/
theorem tells_finishedHeader (hl : l.check = .ok ()) (hw : window < UInt32.size) {count : Nat}
    (hcount : count < UInt32.size) : (s.finishedHeader l window count).Tells s l window count where
  depth_eq := rfl
  sampleRate_eq := rfl
  windowFrames_eq := UInt32.toNat_ofNat_of_lt' hw
  windows_eq := UInt32.toNat_ofNat_of_lt' hcount
  channels_eq := by
    have hchannels := (Layout.channels_of_check hl).2
    rw [finishedHeader, header]
    split_ifs
    · exact congrArg some (UInt32.toNat_ofNat_of_lt' hchannels)
    · rfl

/-- The bytes of a file are read as its header, and its points are what comes behind. -/
theorem decode_content (hl : l.check = .ok ()) (window count : Nat) (groups : List (List Frame)) :
    Header.decode (s.content l window count groups) =
      .ok (s.finishedHeader l window count, groups.flatMap (s.points l.channels)) := by
  obtain ⟨hpos, hlt⟩ := Layout.channels_of_check hl
  refine Header.decode_encode_append (h := s.finishedHeader l window count) ?_ _
  rw [finishedHeader, header]
  dsimp only
  split_ifs
  · intro hzero
    have hnone := congrArg UInt32.toNat (Option.some.inj hzero)
    rw [UInt32.toNat_ofNat_of_lt' hlt] at hnone
    exact absurd hnone (Nat.ne_of_gt hpos)
  · nofun

end Settings

/-! ## Reports on files -/

/-- The report on bytes that begin with a header. -/
theorem Report.ofBytes_of_decode {bytes payload : List UInt8} {header : Header}
    (h : Header.decode bytes = .ok (header, payload)) :
    Report.ofBytes bytes = .ok ⟨header, payload.length⟩ := by
  have hlength := congrArg List.length (Header.eq_encode_of_decode h).2
  rw [List.length_append, Header.length_encode] at hlength
  rw [ofBytes, h]
  dsimp only
  rw [hlength, Nat.add_sub_cancel_left]

/-- A report gives the count of the header. -/
theorem Report.data_points_mem_members (r : Report) :
    ("data_points", .whole r.header.windows.toNat) ∈ r.members := by
  rw [members]
  simp

/-- The report on bytes of the promised size calls the file complete. -/
theorem Report.complete_mem_members {r : Report} (h : r.held = r.header.payloadSize) :
    ("complete", .boolean true) ∈ r.members := by
  have hcomplete : r.isComplete = true := decide_eq_true h
  rw [members, hcomplete]
  simp

/-- Inspecting a file of a tree is reporting on its bytes, and leaves the tree alone. -/
theorem Command.run_inspect {t : FileTree} {name : String} {bytes : List UInt8}
    (h : t.contentOf name = .ok bytes) (input : List UInt8) :
    (Command.inspect (FileTree.access input) name).run t =
      match Report.ofBytes bytes with
      | .error cause =>
        (.error ⟨some s!"Failed to parse header of {name}", .extraction cause⟩, t)
      | .ok report => (.ok report, t) := by
  have hfind : ∃ entry, t.find name = .ok entry := by
    rw [FileTree.contentOf] at h
    rcases hfind : t.find name with cause | entry
    · rw [hfind] at h
      cases h
    · exact ⟨entry, rfl⟩
  obtain ⟨entry, hfind⟩ := hfind
  show (inspect (FileTree.access input) name) t = _
  simp only [inspect, FileTree.access, hfind, Except.map, h, bind, StateT.bind, pure]
  rcases Report.ofBytes bytes with cause | report <;> rfl

/-! ## Finished files -/

namespace Extraction

variable {x : Extraction}

/-- No call counts more windows than a header can. -/
theorem windows_call_le (hx : x.Sound) (h : x.outlet.draft.windows ≤ Draft.mostWindows)
    (c : Call) : (x.call c).2.outlet.draft.windows ≤ Draft.mostWindows := by
  by_cases hs : x.state = c.turn
  · cases c with
    | configure l granted created =>
      rw [call_configure]
      rcases configure_cases (stage_eq_unconfigured hs) l granted created with
        ⟨e, -, heq⟩ | ⟨name, cause, -, heq⟩ | ⟨w, header, draft, -, hdraft, heq⟩
      · rw [heq]
        exact h
      · rw [heq]
        exact h
      · have hbefore : draft.windows ≤ Draft.mostWindows := by
          rcases hdraft with rfl | ⟨name, device, -, rfl⟩
          · exact h
          · exact Nat.zero_le _
        have hafter := (draft.windows_writeHeader header).trans_le hbefore
        rw [heq]
        rcases hr : draft.writeHeader header with ⟨cause | _, draft'⟩
        all_goals
          rw [hr] at hafter
          exact hafter
    | push b =>
      obtain ⟨w, hstage⟩ := exists_stage_eq_ready hs
      have hkept := Windower.addFrames_preserves (Outlet.windows_receive_le x.settings) w
        (b.frames w.channels) h
      rw [call_push, push_eq hx hstage]
      rcases w.fault? b with _ | fault
      · dsimp only
        rcases hr : w.addFrames (Outlet.receive x.settings) (b.frames w.channels) x.outlet with
          ⟨cause | _, w', o'⟩
        all_goals
          rw [hr] at hkept
          exact hkept
      · exact h
    | finalize =>
      obtain ⟨w, hstage⟩ := exists_stage_eq_ready hs
      have hkept := Windower.flush_preserves (Outlet.windows_receive_le x.settings) w h
      rw [call_finalize]
      rcases finalize_cases hstage with ⟨cause, w', o', hflush, heq⟩ |
        ⟨partialWindow, w', o', hflush, ⟨cause, draft, hdraft, heq⟩ | ⟨size, draft, hdraft, heq⟩⟩
      · rw [hflush] at hkept
        rw [heq]
        exact hkept
      all_goals
        rw [hflush] at hkept
        have hfinish := o'.draft.windows_finish
        rw [hdraft] at hfinish
        rw [heq]
        exact hfinish.trans_le hkept
  · rw [call_of_ne_turn hs]
    exact h

/-- No run counts more windows than a header can. -/
theorem windows_after_le (hx : x.Sound) (h : x.outlet.draft.windows ≤ Draft.mostWindows)
    (calls : List Call) : (x.after calls).outlet.draft.windows ≤ Draft.mostWindows := by
  induction calls generalizing x with
  | nil => exact h
  | cons c calls ih => exact ih (stepped_call hx c).sound (windows_call_le hx h c)

/-- What an extraction that finalizing ended by totals had been given by then: frames of a
layout that passed its check, with a window length for its rate. -/
theorem fed_of_finalized (s : Settings) {d : Device} (hd : d.Blank) (listening : Bool)
    (calls : List Call) {summary : Summary}
    (hend : (((toward s (.device d) listening).after calls).call .finalize).1 =
      .ok (some summary)) :
    let x := toward s (.device d) listening
    let intake := x.intake calls
    ∃ l window, intake.layout = some l ∧ l.check = .ok () ∧ s.windowFrames l.rate = .ok window ∧
      (x.after calls).Fed s l window intake.frames ∧
      (x.after calls).finalize.1 = .ok summary := by
  intro x intake
  have hx : x.Sound := sound_toward s (.device d) listening
  have htracks : Tracks s intake (x.after calls) := by
    refine Tracks.after hx ?_ calls
    exact ⟨rfl, d, listening, hd, rfl⟩
  have hready : (x.after calls).state = .ready :=
    state_eq_turn (c := .finalize) (by rw [hend]; rfl)
  rw [Tracks, hready] at htracks
  obtain ⟨l, window, hlayout, -, hw, hfed⟩ := htracks
  have hl : l.check = .ok () := check_of_kept hx (fun l hl => by cases hl) calls l hlayout
  refine ⟨l, window, hlayout, hl, hw, hfed, ?_⟩
  rw [call_finalize] at hend
  rcases hr : (x.after calls).finalize.1 with cause | totals
  · rw [hr] at hend
    cases hend
  · rw [hr] at hend
    obtain rfl : totals = summary := by simpa [Except.map] using hend
    rfl

/-- **A finished file reads back.**  After any calls to an extraction towards a blank device,
the last of which finalized it, the layout was accepted, and of the groups of the frames that
were given:

* the bytes on the device are read as a header that tells settings, layout, window length and
  the number of groups, and as a payload of as many windows;
* if a word of 64 bits can tell the size of the payload, it is the size that the header
  promises, and a report on the bytes calls the file complete;
* the report has this number of data points, and so has one on any file with these bytes;
* at the place of each group and channel in the payload stand the stored values of the bounds
  that were computed. -/
theorem finished_file_reads_back (s : Settings) {d : Device} (hd : d.Blank) (listening : Bool)
    (calls : List Call) {summary : Summary}
    (hend : (((toward s (.device d) listening).after calls).call .finalize).1 =
      .ok (some summary)) :
    let x := toward s (.device d) listening
    let intake := x.intake calls
    ∃ l window device header payload report,
      intake.layout = some l ∧ l.check = .ok () ∧ s.windowFrames l.rate = .ok window ∧
      ((x.after calls).call .finalize).2.outlet.draft.device = some device ∧
      let groups := Cut.all window intake.frames
      summary.windows = groups.length ∧
      Header.decode device.content = .ok (header, payload) ∧
      header.Tells s l window groups.length ∧
      payload.length = groups.length * header.windowSize ∧
      Report.ofBytes device.content = .ok report ∧
      ("data_points", .whole groups.length) ∈ report.members ∧
      (groups.length * header.windowSize < UInt64.size →
        payload.length = header.payloadSize ∧ ("complete", .boolean true) ∈ report.members) ∧
      (∀ (t : FileTree) (name : String) (input : List UInt8),
        t.contentOf name = .ok device.content →
          (Command.inspect (FileTree.access input) name).run t = (.ok report, t)) ∧
      ∀ i (hi : i < groups.length), ∀ c < header.pointsPerWindow,
        ∃ pair, (s.pairs l.channels groups[i])[c]? = some pair ∧
          s.depth.decodePoint ((payload.drop (i * header.windowSize +
              c * s.depth.pointSize)).take s.depth.pointSize) =
            (s.depth.quantize pair.1, s.depth.quantize pair.2) := by
  intro x intake
  obtain ⟨l, window, hlayout, hl, hw, hfed, hok⟩ := fed_of_finalized s hd listening calls hend
  have hwindows : (x.after calls).outlet.draft.windows ≤ Draft.mostWindows :=
    windows_after_le (sound_toward s (.device d) listening) (Nat.zero_le _) calls
  obtain ⟨hcount, hsummary, device, hdevice, hcontent⟩ := hfed.finalize_of_ok hwindows hok
  have hlt : (Cut.all window intake.frames).length < UInt32.size := hcount.trans_lt (by decide)
  have htells := Settings.tells_finishedHeader (s := s) hl (Settings.windowFrames_bounds hw).2 hlt
  have hdecode := s.decode_content hl window (Cut.all window intake.frames).length
    (Cut.all window intake.frames)
  rw [← hcontent] at hdecode
  have hpayload := (Cut.length_flatMap (s.length_points l.channels)
    (Cut.all window intake.frames))
  rw [← htells.windowSize_eq] at hpayload
  -- From here on the header is known by what it tells only.
  generalize s.finishedHeader l window (Cut.all window intake.frames).length = header
    at htells hdecode hpayload
  have hreport := Report.ofBytes_of_decode hdecode
  have hpoints := Report.data_points_mem_members
    ⟨header, ((Cut.all window intake.frames).flatMap (s.points l.channels)).length⟩
  rw [htells.windows_eq] at hpoints
  refine ⟨l, window, device, header, _, _, hlayout, hl, hw, hdevice, ?_, hdecode, htells,
    hpayload, hreport, hpoints, fun hlt => ?_, fun t name input ht => ?_, fun i hi c hc => ?_⟩
  · rw [hsummary]
  · have hpromised := hpayload.trans (htells.payloadSize_eq hlt).symm
    exact ⟨hpromised, Report.complete_mem_members hpromised⟩
  · rw [Command.run_inspect ht, hreport]
  · rw [htells.pointsPerWindow_eq] at hc
    obtain ⟨pair, hpair, hplace⟩ := s.take_drop_points l.channels _ hi hc
    refine ⟨pair, hpair, ?_⟩
    rw [htells.windowSize_eq, hplace, Depth.decodePoint_encodePoint]

/-- Two channels with points of their own, and two windows, the second of one frame.  The
header promises the size of the payload, and the last point is that of the second channel in
that frame. -/
theorem finished_file_reads_back_split :
    let settings : Settings := ⟨Binary.ofNat _ 1, true, .sixteen, none, .extrema⟩
    let sample (bits : Nat) : Sample := .ofBits _ bits
    let d : Device := { transfer := some 5 }
    let frames := [[0x3f000000, 0x3f800000], [0xbf800000, 0], [0x3f800000, 0xbf000000]].map
      (List.map sample)
    let calls :=
      [Call.configure ⟨2, 2⟩ true (.error .noSpace), .push (.interleaved frames.flatten)]
    ∃ device header payload,
      (((toward settings (.device d) false).after calls).call .finalize).2.outlet.draft.device =
        some device ∧
      Header.decode device.content = .ok (header, payload) ∧ header.windows.toNat = 2 ∧
      payload.length = header.payloadSize ∧
      Depth.decodePoint .sixteen ((payload.drop 12).take 4) = (-16384, -16384) := by
  intro settings sample d frames calls
  have hend : (((toward settings (.device d) false).after calls).call .finalize).1 =
      .ok (some ⟨2, 3, 40, true⟩) := by
    decide +kernel
  have hlayout : ((toward settings (.device d) false).intake calls).layout = some ⟨2, 2⟩ := by
    decide +kernel
  have hframes : ((toward settings (.device d) false).intake calls).frames = frames := by
    decide +kernel
  have hwindow : settings.windowFrames 2 = .ok 2 := by decide +kernel
  obtain ⟨l, window, device, header, payload, report, hl, -, hw, hdevice, -, hdecode, htells, -,
    -, -, hpromised, -, hpoints⟩ :=
      finished_file_reads_back settings (d := d) ⟨rfl, rfl, rfl⟩ false calls hend
  obtain rfl : l = ⟨2, 2⟩ := Option.some.inj (hl.symm.trans hlayout)
  obtain rfl : window = 2 := Except.ok.inj (hw.symm.trans hwindow)
  rw [hframes] at htells hpoints hpromised
  have hgroups : (Cut.all 2 frames).length = 2 := by decide +kernel
  have hsmall : (Cut.all 2 frames).length * header.windowSize < UInt64.size := by
    rw [hgroups, htells.windowSize_eq]
    decide
  refine ⟨device, header, payload, hdevice, hdecode, htells.windows_eq.trans hgroups,
    (hpromised hsmall).1, ?_⟩
  have hsecond : 1 < (Cut.all 2 frames).length := by
    rw [hgroups]
    exact Nat.one_lt_two
  have hchannels : 1 < header.pointsPerWindow := by
    rw [htells.pointsPerWindow_eq]
    exact Nat.one_lt_two
  obtain ⟨pair, hpair, hpoint⟩ := hpoints 1 hsecond 1 hchannels
  rw [htells.windowSize_eq] at hpoint
  have hgroup : (Cut.all 2 frames)[1] = [[sample 0x3f800000, sample 0xbf000000]] :=
    (List.getElem_eq_iff hsecond).2 (by decide +kernel)
  have hvalues : (settings.pairs 2 [[sample 0x3f800000, sample 0xbf000000]])[1]?.map
      (fun pair => (Depth.quantize .sixteen pair.1, Depth.quantize .sixteen pair.2)) =
        some (-16384, -16384) := by
    decide +kernel
  rw [← hgroup, hpair, Option.map_some] at hvalues
  rw [← Option.some.inj hvalues]
  exact hpoint

end Extraction

end Peakfile
