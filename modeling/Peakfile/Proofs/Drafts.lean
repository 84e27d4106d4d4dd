/-
# Drafts on devices that may fail

A draft whose device took everything so far `Holds` the bytes that were put into it.
Every operation of a draft either puts its bytes behind them, or leaves the draft `Short`
of what it should have become: its device took a prefix of it and nothing else.
Finishing makes other calls than write calls, and only behind all bytes (`Patched`).
Where it succeeds it changes the count in the header and nothing else
(`Draft.finish_of_ok`), and on a reliable device no operation fails.
-/
import Peakfile.Proofs.DeviceLog
import Peakfile.Proofs.Windowing

namespace Peakfile

/-! ## The count in the header -/

namespace Header

/-- The count stands between four words and the channel count, if there is one. -/
theorem encode_eq (h : Header) :
    h.encode =
      ([h.version, h.flags, h.sampleRate.toNat, h.windowFrames.toNat].flatMap
          (LittleEndian.encode 4) ++
        LittleEndian.encode 4 h.windows.toNat) ++
      (h.channels.toList.map UInt32.toNat).flatMap (LittleEndian.encode 4) := by
  simp [encode, words]

/-- Overwriting the count gives the header with that count. -/
theorem overwrite_countOffset (h : Header) {windows : Nat} (hw : windows < UInt32.size)
    (payload : List UInt8) :
    overwrite (h.encode ++ payload) countOffset (LittleEndian.encode 4 windows) =
      { h with windows := .ofNat windows }.encode ++ payload := by
  have hoffset : countOffset = ([h.version, h.flags, h.sampleRate.toNat,
      h.windowFrames.toNat].flatMap (LittleEndian.encode 4)).length := by
    simp [countOffset]
  have hcount : (UInt32.ofNat windows).toNat = windows := by
    rw [UInt32.toNat_ofNat', Nat.mod_eq_of_lt hw]
  rw [encode_eq, encode_eq, hcount, List.append_assoc _ _ payload, hoffset,
    overwrite_append (by simp), List.append_assoc _ _ payload]
  rfl

/-- The count lies inside the header. -/
theorem countOffset_le (h : Header) : countOffset ≤ h.encode.length := by
  rw [length_encode, size, countOffset]
  split_ifs <;> omega

end Header

/-! ## Drafts -/

namespace Draft

/-- A draft with a header, whose device took every byte put into it and nothing else. -/
structure Holds (t : Draft) (bytes : List UInt8) (windows : Nat) : Prop where
  device : ∃ d, t.device = some d ∧ d.Holds bytes
  headerWritten : t.headerWritten = true
  windows_eq : t.windows = windows
  size_eq : t.size = bytes.length

/-- A draft whose device took a prefix of the bytes and nothing else. -/
def Short (t : Draft) (bytes : List UInt8) : Prop :=
  ∃ d part, t.device = some d ∧ part <+: bytes ∧ d.Holds part

/-- A draft whose device took exactly the bytes, up to the count at least, before it was
asked for its position, was told anything but to write only from then on, and from then on
took nothing but bytes of the count, which stand in their place. -/
def Patched (t : Draft) (bytes : List UInt8) : Prop :=
  ∃ d written fault calls, t.device = some d ∧ d.Recorded ∧
    d.log = calls ++ .tell fault :: written ∧
    (∀ c ∈ written, c.isWrite = true) ∧ (Tape.replay written).content = bytes ∧
    (∀ c ∈ calls, c.isQuery = false) ∧
    DeviceCall.takenBy calls <+: LittleEndian.encode 4 t.windows ∧
    Header.countOffset ≤ bytes.length ∧
    d.content = overwrite bytes Header.countOffset (DeviceCall.takenBy calls)

/-- A draft whose device, if it has one, is reliable. -/
def Reliable (t : Draft) : Prop := ∀ d, t.device = some d → d.Reliable

variable {t : Draft} {bytes more : List UInt8} {windows : Nat}

theorem Short.mono (h : t.Short bytes) (hmore : bytes <+: more) : t.Short more := by
  obtain ⟨d, part, hd, hpart, hholds⟩ := h
  exact ⟨d, part, hd, hpart.trans hmore, hholds⟩

theorem Holds.short (h : t.Holds bytes windows) (hmore : bytes <+: more) : t.Short more := by
  obtain ⟨d, hd, hholds⟩ := h.device
  exact ⟨d, bytes, hd, hmore, hholds⟩

/-! ## Putting bytes -/

/-- Bytes put are all taken, or the draft stays short of what it should have become. -/
theorem put_of_holds {d : Device} (hd : t.device = some d) (h : d.Holds bytes)
    (data : List UInt8) :
    (∃ d', t.put data = (.ok (), { t with device := some d', size := t.size + data.length }) ∧
        d'.Holds (bytes ++ data)) ∨
      ∃ cause, (t.put data).1 = .error (.device cause) ∧
        (t.put data).2.Short (bytes ++ data) := by
  obtain ⟨taken, hprefix, hholds, hall⟩ := h.writeAll data
  rw [put, hd]
  dsimp only
  rcases hw : d.writeAll data with ⟨cause | _, d'⟩
  · rw [hw] at hholds
    exact .inr ⟨cause, rfl, d', bytes ++ taken, rfl,
      (List.prefix_append_right_inj _).2 hprefix, hholds⟩
  · rw [hw] at hholds hall
    obtain rfl := hall rfl
    exact .inl ⟨d', rfl, hholds⟩

/-- Bytes put on a reliable device are taken. -/
theorem Reliable.put (h : t.Reliable) (data : List UInt8) :
    (t.put data).1 = .ok () ∧ (t.put data).2.Reliable := by
  unfold Draft.put
  rcases hd : t.device with _ | d
  · exact ⟨rfl, h⟩
  · obtain ⟨hok, hreliable⟩ := (h d hd).writeAll data
    dsimp only
    rcases hw : d.writeAll data with ⟨r, d'⟩
    rw [hw] at hok hreliable
    obtain rfl : r = .ok () := hok
    refine ⟨rfl, fun d'' hd'' => ?_⟩
    obtain rfl : d' = d'' := by simpa using hd''
    exact hreliable

/-! ## Headers and windows -/

/-- A draft onto a blank device takes its header, or stays short of it. -/
theorem writeHeader_onto {d : Device} (h : d.Blank) (header : Header) :
    let encoded := { header with windows := 0 }.encode
    (((onto d).writeHeader header).1 = .ok () ∧
        ((onto d).writeHeader header).2.Holds encoded 0) ∨
      ∃ cause, ((onto d).writeHeader header).1 = .error (.device cause) ∧
        ((onto d).writeHeader header).2.Short encoded := by
  intro encoded
  have hput := put_of_holds (t := { onto d with headerWritten := true }) rfl h.holds encoded
  rw [writeHeader, if_neg (by simp [onto])]
  rcases hput with ⟨d', heq, hholds⟩ | ⟨cause, herror, hshort⟩
  · rw [heq]
    exact .inl ⟨rfl, ⟨d', rfl, hholds⟩, rfl, rfl, Nat.zero_add _⟩
  · exact .inr ⟨cause, herror, hshort⟩

/-- A reliable device takes a header. -/
theorem writeHeader_of_reliable {d : Device} (h : d.Reliable) (header : Header) :
    ((onto d).writeHeader header).1 = .ok () ∧ ((onto d).writeHeader header).2.Reliable := by
  have hdraft : Reliable { onto d with headerWritten := true } := by
    rintro d' hd'
    obtain rfl : d = d' := by simpa [onto] using hd'
    exact h
  rw [writeHeader, if_neg (by simp [onto])]
  exact hdraft.put _

/-- A window is put behind the others and counted, or the draft stays short of what it
should have become. -/
theorem appendWindow_of_holds (h : t.Holds bytes windows) (points : List UInt8) :
    ((t.appendWindow points).1 = .ok () ∧
        (t.appendWindow points).2.Holds (bytes ++ points) (windows + 1)) ∨
      ∃ e, (t.appendWindow points).1 = .error e ∧
        (t.appendWindow points).2.Short (bytes ++ points) := by
  unfold appendWindow
  split_ifs
  · exact .inr ⟨_, rfl, h.short (List.prefix_append _ _)⟩
  · obtain ⟨d, hd, hholds⟩ := h.device
    rw [append, if_pos h.headerWritten]
    rcases put_of_holds hd hholds points with ⟨d', heq, hholds'⟩ | ⟨cause, herror, hshort⟩
    · rw [heq]
      refine .inl ⟨rfl, ⟨d', rfl, hholds'⟩, h.headerWritten, ?_, ?_⟩
      · rw [h.windows_eq]
      · rw [h.size_eq, List.length_append]
    · rcases hput : t.put points with ⟨r, t'⟩
      rw [hput] at herror hshort
      obtain rfl : r = .error (.device cause) := herror
      exact .inr ⟨_, rfl, hshort⟩

/-- On a reliable device, a window that can be counted is taken. -/
theorem Reliable.appendWindow (h : t.Reliable) (hheader : t.headerWritten = true)
    (hcount : t.windows < mostWindows) (points : List UInt8) :
    (t.appendWindow points).1 = .ok () ∧ (t.appendWindow points).2.Reliable := by
  obtain ⟨hok, hreliable⟩ := h.put points
  unfold Draft.appendWindow
  rw [if_neg (Nat.not_le.2 hcount), append, if_pos hheader]
  rcases hput : t.put points with ⟨r, t'⟩
  rw [hput] at hok hreliable
  obtain rfl : r = .ok () := hok
  exact ⟨rfl, hreliable⟩

/-- Putting bytes counts no windows. -/
theorem windows_put (t : Draft) (data : List UInt8) : (t.put data).2.windows = t.windows := by
  unfold put
  rcases t.device with _ | d
  · rfl
  · dsimp only
    rcases d.writeAll data with ⟨cause | _, d'⟩ <;> rfl

/-- A header counts no windows. -/
theorem windows_writeHeader (t : Draft) (header : Header) :
    (t.writeHeader header).2.windows = t.windows := by
  unfold writeHeader
  split_ifs
  · rfl
  · exact windows_put _ _

/-- Finishing counts no windows. -/
theorem windows_finish (t : Draft) : t.finish.2.windows = t.windows := by
  unfold finish
  split_ifs
  · rcases t.device with _ | d
    · rfl
    · dsimp only
      rcases patchCount d t.windows with ⟨cause | _, d'⟩ <;> rfl
  · rfl

/-- A window is counted exactly if it is written. -/
theorem windows_appendWindow (t : Draft) (points : List UInt8) :
    (t.appendWindow points).2.windows =
      t.windows + if (t.appendWindow points).1.isOk then 1 else 0 := by
  rw [appendWindow, append]
  by_cases hfull : mostWindows ≤ t.windows
  · rw [if_pos hfull]
    rfl
  · by_cases hheader : t.headerWritten = true
    · have hput := t.windows_put points
      rw [if_neg hfull, if_pos hheader]
      rcases hr : t.put points with ⟨cause | _, t'⟩
      · rw [hr] at hput
        exact hput
      · rfl
    · rw [if_neg hfull, if_neg hheader]
      rfl

/-- A window beyond those that a header can count is not counted. -/
theorem windows_appendWindow_le (h : t.windows ≤ mostWindows) (points : List UInt8) :
    (t.appendWindow points).2.windows ≤ mostWindows := by
  rw [windows_appendWindow]
  by_cases hfull : mostWindows ≤ t.windows
  · rw [appendWindow, if_pos hfull]
    exact h
  · split_ifs
    · exact Nat.lt_of_not_le hfull
    · exact h

/-! ## Finishing -/

/-- The count is put in its place by calls of which a query is the first.  As far as the
device takes it, it overwrites what stands there; all of it, unless an error is answered. -/
theorem overwrote_patchCount {d : Device} (h : Header.countOffset ≤ d.content.length)
    (windows : Nat) :
    ∃ taken, taken <+: LittleEndian.encode 4 windows ∧
      Device.Overwrote Header.countOffset (d.countSeek.note (.tell d.nextSeekFault)) taken
        (patchCount d windows).2 ∧
      ((patchCount d windows).1 = .ok () → taken = LittleEndian.encode 4 windows) := by
  unfold patchCount
  rw [Device.tell_eq]
  -- From here on each call comes later than the query, whether or not it is the last.
  generalize hd₁ : d.countSeek.note (.tell d.nextSeekFault) = d₁
  have hinside : Header.countOffset ≤ d₁.content.length := by
    rw [← hd₁]
    exact h
  have hstart := Device.Overwrote.refl hinside
  rcases d.nextSeekFault with _ | cause
  · have hseek := hstart.seek Header.countOffset
    dsimp only [Option.elim]
    rcases hs : d₁.seek Header.countOffset with ⟨cause | _, d₂⟩
    · rw [hs] at hseek
      exact ⟨[], List.nil_prefix, hseek, nofun⟩
    · rw [hs] at hseek
      obtain ⟨taken, hprefix, hwritten, hall⟩ := hseek.writeAll hinside
        (Device.position_of_seek hs) (LittleEndian.encode 4 windows)
      refine ⟨taken, hprefix, ?_⟩
      dsimp only
      rcases hw : d₂.writeAll (LittleEndian.encode 4 windows) with ⟨cause | _, d₃⟩
      · rw [hw] at hwritten
        exact ⟨hwritten, nofun⟩
      · rw [hw] at hwritten hall
        have hback := hwritten.seek d.position
        dsimp only
        rcases hb : d₃.seek d.position with ⟨cause | _, d₄⟩
        · rw [hb] at hback
          exact ⟨hback, nofun⟩
        · rw [hb] at hback
          exact ⟨hback.flush, fun _ => hall rfl⟩
  · exact ⟨[], List.nil_prefix, hstart, nofun⟩

/-- A reliable device takes the count, and goes back to where it was. -/
theorem patchCount_accepted {d : Device} (hr : d.Reliable) (windows : Nat) :
    ∃ d', patchCount d windows = (.ok (), d') ∧ d'.position = d.position ∧ d'.Reliable := by
  obtain ⟨htell, hr₁⟩ := hr.tell
  obtain ⟨d₂, hseek, hr₂⟩ := hr₁.seek Header.countOffset
  obtain ⟨hok, hr₃⟩ := hr₂.writeAll (LittleEndian.encode 4 windows)
  rcases hw : d₂.writeAll (LittleEndian.encode 4 windows) with ⟨r, d₃⟩
  rw [hw] at hok hr₃
  obtain rfl : r = .ok () := hok
  obtain ⟨d₄, hback, hr₄⟩ := hr₃.seek d.position
  have heq : patchCount d windows = (.ok (), d₄.flush.2) := by
    simp only [patchCount, htell, hseek, hw, hback]
    exact Prod.ext hr₄.flush rfl
  refine ⟨d₄.flush.2, heq, ?_, ?_⟩
  · rw [Device.position, d₄.flush_effect.2]
    exact Device.position_of_seek hback
  · unfold Device.flush
    split <;> exact ⟨hr₄.1, hr₄.2, hr₄.3, hr₄.4, hr₄.5⟩

/-- A reliable device gets the count in its place. -/
theorem patchCount_of_reliable {d : Device} (hr : d.Reliable)
    (h : Header.countOffset ≤ d.content.length) (windows : Nat) :
    ∃ d', patchCount d windows = (.ok (), d') ∧ d'.position = d.position ∧
      d'.content = overwrite d.content Header.countOffset (LittleEndian.encode 4 windows) := by
  obtain ⟨d', heq, hposition, -⟩ := patchCount_accepted hr windows
  obtain ⟨taken, -, hover, hall⟩ := overwrote_patchCount h windows
  rw [heq] at hover hall
  obtain rfl := hall rfl
  exact ⟨d', heq, hposition, hover.content_eq⟩

/-- Finishing leaves the bytes alone until it asks for the position, and then touches only
the count. -/
theorem patched_finish (h : t.Holds bytes windows)
    (hlength : Header.countOffset ≤ bytes.length) : t.finish.2.Patched bytes := by
  obtain ⟨d, hd, hholds⟩ := h.device
  have hinside : Header.countOffset ≤ d.content.length := by
    rw [hholds.content_eq]
    exact hlength
  obtain ⟨taken, hprefix, hover, -⟩ := overwrote_patchCount hinside t.windows
  have hcontent : (Tape.replay d.log).content = bytes := by
    rw [← hholds.recorded]
    exact hholds.content_eq
  rw [finish, if_pos h.headerWritten, hd]
  dsimp only
  rcases hp : patchCount d t.windows with ⟨cause | _, d'⟩
  all_goals
    rw [hp] at hover
    obtain ⟨calls, hlog, rfl, hqueries⟩ := hover.noted
    exact ⟨d', d.log, _, calls, rfl, hover.recorded hholds.recorded, hlog, hholds.onlyWrites,
      hcontent, hqueries, hprefix, hlength,
      hover.content_eq.trans (congrArg (overwrite · _ _) hholds.content_eq)⟩

/-- **Finishing.**  Where it is answered by a size, the count is in the header and no other
byte is changed. -/
theorem finish_of_ok {header : Header} {payload : List UInt8}
    (h : t.Holds (header.encode ++ payload) windows) (hw : windows < UInt32.size) {size : Nat}
    (hok : t.finish.1 = .ok size) :
    size = (header.encode ++ payload).length ∧ ∃ d, t.finish.2.device = some d ∧
      d.content = { header with windows := .ofNat windows }.encode ++ payload := by
  obtain ⟨d, hd, hholds⟩ := h.device
  have hinside : Header.countOffset ≤ d.content.length := by
    rw [hholds.content_eq, List.length_append]
    exact (header.countOffset_le).trans (Nat.le_add_right _ _)
  obtain ⟨taken, -, hover, hall⟩ := overwrote_patchCount hinside t.windows
  rw [finish, if_pos h.headerWritten, hd] at hok ⊢
  dsimp only at hok ⊢
  rcases hp : patchCount d t.windows with ⟨cause | _, d'⟩
  · rw [hp] at hok
    cases hok
  · rw [hp] at hok hover hall
    obtain rfl := hall rfl
    refine ⟨(Except.ok.inj hok).symm.trans h.size_eq, d', rfl, ?_⟩
    rw [hover.content_eq, ← header.overwrite_countOffset hw, ← h.windows_eq]
    exact congrArg (overwrite · _ _) hholds.content_eq

/-- A reliable device lets a draft be finished. -/
theorem finish_of_reliable {header : Header} {payload : List UInt8}
    (h : t.Holds (header.encode ++ payload) windows) (hr : t.Reliable) :
    t.finish.1 = .ok (header.encode ++ payload).length := by
  obtain ⟨d, hd, hholds⟩ := h.device
  have hinside : Header.countOffset ≤ d.content.length := by
    rw [hholds.content_eq, List.length_append]
    exact (header.countOffset_le).trans (Nat.le_add_right _ _)
  obtain ⟨d', hpatch, -⟩ := patchCount_of_reliable (hr d hd) hinside t.windows
  rw [finish, if_pos h.headerWritten, hd]
  dsimp only
  rw [hpatch, h.size_eq]

end Draft

/-! ## Windows on their way to a draft -/

namespace Outlet

variable (s : Settings) {o : Outlet} {bytes : List UInt8} {windows : Nat}

/-- A window received ends in the draft behind the others, or leaves it short of that. -/
theorem receive_of_holds (h : o.draft.Holds bytes windows) (window : List Extrema) :
    ((receive s window o).1 = .ok () ∧ (receive s window o).2.draft.Holds
        (bytes ++ s.encodeWindow window) (windows + 1)) ∨
      ∃ e, (receive s window o).1 = .error e ∧
        (receive s window o).2.draft.Short (bytes ++ s.encodeWindow window) :=
  Draft.appendWindow_of_holds h _

/-- On a reliable device, a window that can be counted is received. -/
theorem receive_of_reliable (hr : o.draft.Reliable) (h : o.draft.Holds bytes windows)
    (hcount : windows < Draft.mostWindows) (window : List Extrema) :
    (receive s window o).1 = .ok () ∧ (receive s window o).2.draft.Reliable :=
  hr.appendWindow h.headerWritten (h.windows_eq ▸ hcount) _

/-- Windows handed over end in the draft one behind the other, or leave it short of
that. -/
theorem handOver_of_holds (h : o.draft.Holds bytes windows) (handed : List (List Extrema)) :
    let r := Windower.handOver (receive s) handed o
    let points := handed.flatMap s.encodeWindow
    (r.1 = .ok () ∧ r.2.draft.Holds (bytes ++ points) (windows + handed.length)) ∨
      ∃ e, r.1 = .error e ∧ r.2.draft.Short (bytes ++ points) := by
  induction handed generalizing o bytes windows with
  | nil => exact .inl ⟨rfl, by simpa [Windower.handOver] using h⟩
  | cons window handed ih =>
    have hpoints : bytes ++ (window :: handed).flatMap s.encodeWindow =
        bytes ++ s.encodeWindow window ++ handed.flatMap s.encodeWindow := by
      rw [List.flatMap_cons, List.append_assoc]
    have hlength : windows + (window :: handed).length = windows + 1 + handed.length := by
      rw [List.length_cons, Nat.add_assoc, Nat.add_comm 1]
    have hone := receive_of_holds s h window
    dsimp only
    rw [hpoints, hlength, Windower.handOver]
    rcases hr : receive s window o with ⟨answer, o'⟩
    rw [hr] at hone
    rcases hone with ⟨rfl, hholds⟩ | ⟨e, rfl, hshort⟩
    · exact ih hholds
    · exact .inr ⟨e, rfl, hshort.mono (List.prefix_append _ _)⟩

/-- On a reliable device, windows that can be counted are all taken. -/
theorem handOver_of_reliable (hr : o.draft.Reliable) (h : o.draft.Holds bytes windows)
    {handed : List (List Extrema)} (hcount : windows + handed.length ≤ Draft.mostWindows) :
    (Windower.handOver (receive s) handed o).1 = .ok () ∧
      (Windower.handOver (receive s) handed o).2.draft.Reliable := by
  induction handed generalizing o bytes windows with
  | nil => exact ⟨rfl, hr⟩
  | cons window handed ih =>
    rw [List.length_cons] at hcount
    have hone := receive_of_holds s h window
    obtain ⟨hok, hr'⟩ := receive_of_reliable s hr h (by omega) window
    rw [Windower.handOver]
    rcases hreceive : receive s window o with ⟨answer, o'⟩
    rw [hreceive] at hone hok hr'
    obtain rfl : answer = .ok () := hok
    rcases hone with ⟨-, hholds⟩ | ⟨e, he, -⟩
    · exact ih hr' hholds (by omega)
    · cases he

end Outlet

end Peakfile
