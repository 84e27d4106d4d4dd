/-
# Drafts on devices that hold bytes already

A draft writes wherever its device stands, and its device may hold other bytes in front of
that place and behind it.  Header and payload end up there whatever the device held
(`Draft.Placed`).  Only the count does not: it is put at the sixteenth byte of the device,
which is its place in the file for a draft that began with the first byte.  Anywhere else the
header keeps its zero count, and four bytes that are not the draft's own are overwritten
(`Draft.finish_elsewhere`).
-/
import Peakfile.Proofs.CountWord

namespace Peakfile

/-! ## Bytes written over bytes -/

/-- From the position on stands what was written, and behind it what stood there before. -/
theorem getElem?_overwrite_add (content : List UInt8) (position : Nat) (data : List UInt8)
    (i : Nat) :
    (overwrite content position data)[position + i]? =
      if i < data.length then data[i]? else content[position + i]? := by
  have hfront : (content.take position ++
      List.replicate (position - content.length) 0).length = position := by
    simp only [List.length_append, List.length_take, List.length_replicate]
    omega
  rw [overwrite, List.append_assoc, List.getElem?_append_right (by omega), hfront,
    Nat.add_sub_cancel_left]
  split_ifs with hi
  · rw [List.getElem?_append_left hi]
  · rw [List.getElem?_append_right (by omega), List.getElem?_drop]
    congr 1
    omega

/-- What stands in front of the position does not depend on what is written. -/
theorem getElem?_overwrite_of_lt (content : List UInt8) {position i : Nat} (hi : i < position)
    (data other : List UInt8) :
    (overwrite content position data)[i]? = (overwrite content position other)[i]? := by
  have hfront : i < (content.take position ++
      List.replicate (position - content.length) 0).length := by
    simp only [List.length_append, List.length_take, List.length_replicate]
    omega
  rw [overwrite, overwrite, List.append_assoc _ data, List.append_assoc _ other,
    List.getElem?_append_left hfront, List.getElem?_append_left hfront]

/-- Overwriting a part of what was just written is writing with that part replaced. -/
theorem overwrite_add (content : List UInt8) (position : Nat) {data part : List UInt8}
    {offset : Nat} (h : offset + part.length ≤ data.length) :
    overwrite (overwrite content position data) (position + offset) part =
      overwrite content position (overwrite data offset part) := by
  have hinside : offset ≤ data.length := by omega
  apply List.ext_getElem?
  intro i
  by_cases hi : i < position + offset
  · -- In front of the part everything is as it was written.
    have hlength : position + offset ≤ (overwrite content position data).length := by
      rw [length_overwrite]
      omega
    rw [getElem?_overwrite_of_lt _ hi part [], overwrite_nil hlength]
    by_cases hp : i < position
    · exact getElem?_overwrite_of_lt _ hp _ _
    · obtain ⟨j, rfl⟩ := Nat.exists_eq_add_of_le (Nat.not_lt.1 hp)
      rw [getElem?_overwrite_add, getElem?_overwrite_add, length_overwrite,
        if_pos (by omega), if_pos (by omega),
        getElem?_overwrite_of_lt data (Nat.lt_of_add_lt_add_left hi) part [],
        overwrite_nil hinside]
  · obtain ⟨j, rfl⟩ := Nat.exists_eq_add_of_le (Nat.not_lt.1 hi)
    rw [getElem?_overwrite_add, Nat.add_assoc, getElem?_overwrite_add, getElem?_overwrite_add,
      getElem?_overwrite_add, length_overwrite]
    split_ifs <;> first | rfl | omega

/-- Overwriting with what stands there already changes nothing. -/
theorem overwrite_eq_self {content data : List UInt8} {position : Nat}
    (h : ∀ i < data.length, content[position + i]? = data[i]?)
    (hinside : position + data.length ≤ content.length) :
    overwrite content position data = content := by
  apply List.ext_getElem?
  intro i
  by_cases hi : i < position
  · rw [getElem?_overwrite_of_lt _ hi data [], overwrite_nil (by omega)]
  · obtain ⟨j, rfl⟩ := Nat.exists_eq_add_of_le (Nat.not_lt.1 hi)
    rw [getElem?_overwrite_add]
    split_ifs with hj
    · exact (h j hj).symm
    · rfl

/-! ## A count in two places -/

/-- Bytes that repeat later ones, with zeros behind the last, are zeros. -/
theorem eq_replicate_of_shifted {count : List UInt8} {shift : Nat} (hshift : shift ≠ 0)
    (h : ∀ i < count.length, count[i]? = if shift + i < count.length then count[shift + i]? else
      some 0) : count = List.replicate count.length 0 := by
  -- The last byte is a zero, and each one before it repeats a byte closer to the end.
  have hzero : ∀ k i, count.length ≤ i + k → i < count.length → count[i]? = some 0 := by
    intro k
    induction k with
    | zero =>
      intro i hlast hi
      omega
    | succ k ih =>
      intro i hlast hi
      rw [h i hi]
      split_ifs with hlater
      · exact ih (shift + i) (by omega) hlater
      · rfl
  apply List.ext_getElem?
  intro i
  by_cases hi : i < count.length
  · rw [hzero count.length i (by omega) hi, List.getElem?_replicate_of_lt hi]
  · rw [List.getElem?_eq_none (by omega),
      List.getElem?_eq_none (by rw [List.length_replicate]; omega)]

namespace Header

/-- The bytes of no count are zeros. -/
theorem encode_eq_replicate_iff {windows : Nat} (hw : windows < UInt32.size) :
    LittleEndian.encode 4 windows = List.replicate 4 0 ↔ windows = 0 := by
  constructor
  · intro h
    have hread := congrArg LittleEndian.decode h
    rw [LittleEndian.decode_encode 4 windows hw] at hread
    exact hread
  · rintro rfl
    rfl

/-- **A count in its place.**  Where bytes have a zero count at some position, putting a
count at the start of the bytes is putting it at that position only if the position is the
start, or if there is nothing to count and no byte at the start that would change. -/
theorem overwrite_countOffset_eq_iff {content : List UInt8} {position windows : Nat}
    (hw : windows < UInt32.size) (hlength : position + countOffset + 4 ≤ content.length)
    (hzeros : ∀ i < 4, content[position + countOffset + i]? = some 0) :
    overwrite content countOffset (LittleEndian.encode 4 windows) =
        overwrite content (position + countOffset) (LittleEndian.encode 4 windows) ↔
      position = 0 ∨ windows = 0 ∧ countBytes content = List.replicate 4 0 := by
  have hcount : (LittleEndian.encode 4 windows).length = 4 := LittleEndian.length_encode 4 windows
  have hfour : ∀ i < 4, (List.replicate 4 (0 : UInt8))[i]? = some 0 :=
    fun i hi => List.getElem?_replicate_of_lt hi
  -- Without windows the count is there already.
  have hsame : windows = 0 →
      overwrite content (position + countOffset) (LittleEndian.encode 4 windows) = content := by
    intro hnone
    rw [(encode_eq_replicate_iff hw).2 hnone]
    refine overwrite_eq_self (fun i hi => ?_) (by rw [List.length_replicate]; omega)
    rw [List.length_replicate] at hi
    rw [hzeros i hi, hfour i hi]
  constructor
  · intro h
    by_cases hp : position = 0
    · exact .inl hp
    · have hshifted : ∀ i < (LittleEndian.encode 4 windows).length,
          (LittleEndian.encode 4 windows)[i]? =
            if position + i < (LittleEndian.encode 4 windows).length then
              (LittleEndian.encode 4 windows)[position + i]?
            else some 0 := by
        intro i hi
        have hat := congrArg (·[position + countOffset + i]?) h
        rw [getElem?_overwrite_add, if_pos hi, Nat.add_comm position, Nat.add_assoc,
          getElem?_overwrite_add, ← Nat.add_assoc, Nat.add_comm countOffset,
          hzeros i (hcount ▸ hi)] at hat
        exact hat.symm
      have hzero := eq_replicate_of_shifted hp hshifted
      rw [hcount, encode_eq_replicate_iff hw] at hzero
      refine .inr ⟨hzero, ?_⟩
      rw [hsame hzero] at h
      have hbytes := congrArg countBytes h
      rw [countBytes_overwrite (by omega) (by omega), hcount, hzero] at hbytes
      rw [← hbytes, countBytes, List.drop_of_length_le (by rw [List.length_take]; omega)]
      rfl
  · rintro (rfl | ⟨hnone, hbytes⟩)
    · rw [Nat.zero_add]
    · rw [hsame hnone, (encode_eq_replicate_iff hw).2 hnone, ← hbytes]
      refine overwrite_eq_self (fun i hi => ?_) ?_
      · rw [hbytes, List.length_replicate] at hi
        rw [countBytes, List.getElem?_take_of_lt hi, List.getElem?_drop]
      · rw [hbytes, List.length_replicate]
        omega

/-- A file written with no count, whose count is then put at the start of the bytes, is the
file with that count only under the same conditions. -/
theorem count_in_place_iff (h : Header) (content : List UInt8) (position : Nat)
    (payload : List UInt8) {windows : Nat} (hw : windows < UInt32.size) :
    let unfinished := overwrite content position ({ h with windows := 0 }.encode ++ payload)
    overwrite unfinished countOffset (LittleEndian.encode 4 windows) =
        overwrite content position ({ h with windows := .ofNat windows }.encode ++ payload) ↔
      position = 0 ∨ windows = 0 ∧ countBytes unfinished = List.replicate 4 0 := by
  intro unfinished
  have hroom : countOffset + 4 ≤ ({ h with windows := 0 }.encode ++ payload).length := by
    have hsize : countOffset + 4 ≤ h.size := by
      rw [size, countOffset]
      split_ifs <;> omega
    rw [List.length_append, length_encode]
    exact hsize.trans (Nat.le_add_right _ _)
  have hfile : overwrite content position
        ({ h with windows := .ofNat windows }.encode ++ payload) =
      overwrite unfinished (position + countOffset) (LittleEndian.encode 4 windows) := by
    rw [overwrite_add content position (by rw [LittleEndian.length_encode]; exact hroom),
      overwrite_countOffset _ hw]
  have hzeros : ∀ i < 4, unfinished[position + countOffset + i]? = some 0 := by
    intro i hi
    have hcount : (countBytes ({ h with windows := 0 }.encode ++ payload))[i]? = some 0 := by
      have hnone : LittleEndian.encode 4 (0 : UInt32).toNat = List.replicate 4 0 :=
        (encode_eq_replicate_iff (by decide)).2 rfl
      rw [countBytes_encode, hnone]
      exact List.getElem?_replicate_of_lt hi
    rw [countBytes, List.getElem?_take_of_lt hi, List.getElem?_drop] at hcount
    rw [Nat.add_assoc, getElem?_overwrite_add, if_pos (by omega), hcount]
  have hinside : position + countOffset + 4 ≤ unfinished.length := by
    rw [length_overwrite]
    omega
  rw [hfile]
  exact overwrite_countOffset_eq_iff hw hinside hzeros

end Header

/-! ## Calls to drafts -/

namespace Draft

/-- A call to a draft, but for the one that finishes it. -/
inductive Call where
  | writeHeader (h : Header)
  | append (bytes : List UInt8)
  | appendWindow (points : List UInt8)
  deriving DecidableEq

/-- Make a call. -/
def call (t : Draft) : Call → Except Error Unit × Draft
  | .writeHeader h => t.writeHeader h
  | .append bytes => t.append bytes
  | .appendWindow points => t.appendWindow points

/-- The draft after calls. -/
def after (t : Draft) (calls : List Call) : Draft := calls.foldl (fun t c => (t.call c).2) t

/-- What stands behind a header: bytes, and how many windows are counted for them. -/
structure Payload where
  bytes : List UInt8 := []
  windows : Nat := 0
  deriving DecidableEq

namespace Payload

/-- What a call is answered behind a header and this payload, if no device fails. -/
def answer (p : Payload) : Call → Except Error Unit
  | .writeHeader _ => .error (.wrongState .headerWritten)
  | .append _ => .ok ()
  | .appendWindow _ => if mostWindows ≤ p.windows then .error .tooManyWindows else .ok ()

/-- What a call makes of the payload, if no device fails. -/
def add (p : Payload) : Call → Payload
  | .writeHeader _ => p
  | .append bytes => { p with bytes := p.bytes ++ bytes }
  | .appendWindow points =>
    if mostWindows ≤ p.windows then p else ⟨p.bytes ++ points, p.windows + 1⟩

/-- The payload that calls make, if no device fails. -/
def of (calls : List Call) : Payload := calls.foldl add {}

/-- No call counts more windows than a header can. -/
theorem windows_add_le {p : Payload} (h : p.windows ≤ mostWindows) (c : Call) :
    (p.add c).windows ≤ mostWindows := by
  cases c with
  | writeHeader header => exact h
  | append bytes => exact h
  | appendWindow points =>
    rw [add]
    split_ifs with hfull
    · exact h
    · exact Nat.lt_of_not_le hfull

/-- A payload never has more windows than a header can count. -/
theorem windows_of_lt (calls : List Call) : (of calls).windows < UInt32.size := by
  have hle : ∀ p : Payload, p.windows ≤ mostWindows →
      (calls.foldl add p).windows ≤ mostWindows := by
    induction calls with
    | nil => exact fun _ h => h
    | cons c calls ih => exact fun p h => ih _ (windows_add_le h c)
  have hmost : mostWindows < UInt32.size := by decide
  exact (hle {} (Nat.zero_le _)).trans_lt hmost

end Payload

/-- A draft with a header, whose reliable device wrote header and payload from where
another device stood. -/
structure Placed (origin : Device) (header : Header) (p : Payload) (t : Draft) : Prop where
  device : ∃ d, t.device = some d ∧ d.Reliable ∧
    origin.Wrote ({ header with windows := 0 }.encode ++ p.bytes) d
  headerWritten : t.headerWritten = true
  windows_eq : t.windows = p.windows
  size_eq : t.size = header.size + p.bytes.length

variable {origin : Device} {header : Header} {p : Payload} {t : Draft}

/-- A reliable device takes what is put on it, wherever it stands. -/
theorem put_anywhere {d : Device} (hd : t.device = some d) (hr : d.Reliable)
    {data : List UInt8} (hdata : d.position ≤ d.content.length ∨ data ≠ []) :
    ∃ d', t.put data = (.ok (), { t with device := some d', size := t.size + data.length }) ∧
      d'.Reliable ∧ d.Wrote data d' := by
  obtain ⟨hok, hreliable⟩ := hr.writeAll data
  have hwrote := Device.wrote_of_writeAll_ok hdata hok
  rcases hw : d.writeAll data with ⟨answer, d'⟩
  rw [hw] at hok hreliable hwrote
  obtain rfl : answer = .ok () := hok
  refine ⟨d', ?_, hreliable, hwrote⟩
  simp only [put, hd, hw]

/-- The header goes where the device stands. -/
theorem placed_writeHeader (hr : origin.Reliable) (header : Header) :
    ((onto origin).writeHeader header).1 = .ok () ∧
      Placed origin header {} ((onto origin).writeHeader header).2 := by
  have hlength : { header with windows := 0 }.encode.length = header.size :=
    Header.length_encode _
  have hne : { header with windows := 0 }.encode ≠ [] := by
    intro hnil
    have hpos := Header.countOffset_le { header with windows := 0 }
    rw [hnil] at hpos
    cases hpos
  obtain ⟨d', hput, hr', hwrote⟩ :=
    put_anywhere (t := { onto origin with headerWritten := true }) rfl hr (.inr hne)
  rw [writeHeader, if_neg (by simp [onto]), hput]
  refine ⟨rfl, ⟨d', rfl, hr', ?_⟩, rfl, rfl, ?_⟩
  · rw [List.append_nil]
    exact hwrote
  · rw [hlength]
    exact Nat.zero_add _

/-- Bytes go behind those that are there. -/
theorem Placed.append (h : Placed origin header p t) (bytes : List UInt8) :
    (t.append bytes).1 = .ok () ∧
      Placed origin header { p with bytes := p.bytes ++ bytes } (t.append bytes).2 := by
  obtain ⟨d, hd, hr, hwrote⟩ := h.device
  have hinside : d.position ≤ d.content.length ∨ bytes ≠ [] := .inl hwrote.position_le
  obtain ⟨d', hput, hr', hwrote'⟩ := put_anywhere hd hr hinside
  rw [Draft.append, if_pos h.headerWritten, hput]
  refine ⟨rfl, ⟨d', rfl, hr', ?_⟩, h.headerWritten, h.windows_eq, ?_⟩
  · rw [← List.append_assoc]
    exact hwrote.trans hwrote'
  · rw [h.size_eq, List.length_append, Nat.add_assoc]

/-- A call is answered as its payload says, and adds to the payload what it should. -/
theorem Placed.call (h : Placed origin header p t) (c : Call) :
    (t.call c).1 = p.answer c ∧ Placed origin header (p.add c) (t.call c).2 := by
  cases c with
  | writeHeader other =>
    rw [Draft.call, writeHeader, if_pos h.headerWritten]
    exact ⟨rfl, h⟩
  | append bytes => exact h.append bytes
  | appendWindow points =>
    rw [Draft.call, Draft.appendWindow, h.windows_eq, Payload.answer, Payload.add]
    split_ifs with hfull
    · exact ⟨rfl, h⟩
    · obtain ⟨hok, hplaced⟩ := h.append points
      rcases happend : t.append points with ⟨answer, t'⟩
      rw [happend] at hok hplaced
      obtain rfl : answer = .ok () := hok
      exact ⟨rfl, hplaced.device, hplaced.headerWritten, rfl, hplaced.size_eq⟩

/-- Calls in any order make the payload that they should. -/
theorem Placed.after (h : Placed origin header p t) (calls : List Call) :
    Placed origin header (calls.foldl Payload.add p) (t.after calls) := by
  induction calls generalizing p t with
  | nil => exact h
  | cons c calls ih => exact ih (h.call c).2

/-! ## Finishing -/

/-- Finishing puts the count at the sixteenth byte of the device and comes back. -/
theorem Placed.finish (h : Placed origin header p t) :
    t.finish.1 = .ok (header.size + p.bytes.length) ∧ ∃ d, t.finish.2.device = some d ∧
      d.position = origin.position + (header.size + p.bytes.length) ∧
      d.content = overwrite
        (overwrite origin.content origin.position
          ({ header with windows := 0 }.encode ++ p.bytes))
        Header.countOffset (LittleEndian.encode 4 p.windows) := by
  obtain ⟨d, hd, hr, hwrote⟩ := h.device
  have hlength : ({ header with windows := 0 }.encode ++ p.bytes).length =
      header.size + p.bytes.length := by
    rw [List.length_append, Header.length_encode]
    rfl
  have hinside : Header.countOffset ≤ d.content.length := by
    have hheader := Header.countOffset_le { header with windows := 0 }
    rw [hwrote.content_eq, length_overwrite, List.length_append]
    omega
  obtain ⟨d', hpatch, hposition, hcontent⟩ := patchCount_of_reliable hr hinside t.windows
  rw [Draft.finish, if_pos h.headerWritten, hd]
  dsimp only
  rw [hpatch]
  refine ⟨by rw [h.size_eq], d', rfl, ?_, ?_⟩
  · rw [hposition, hwrote.position_eq, hlength]
  · rw [hcontent, hwrote.content_eq, h.windows_eq]

/-- **Drafts anywhere.**  On a reliable device that holds any bytes and stands anywhere:

* every call is answered, header and payload go to where the device stood, and finishing
  answers their size and leaves the device behind them;
* finishing puts the count at the sixteenth byte of the device;
* the device then holds the file where it stood, and else what it held before, exactly if it
  stood at its first byte, or if there are no windows and zeros where the count was put. -/
theorem finish_elsewhere (header : Header) {d : Device} (hr : d.Reliable) (calls : List Call)
    (next : Call) :
    let p := Payload.of calls
    let file := { header with windows := .ofNat p.windows }.encode ++ p.bytes
    let unfinished := overwrite d.content d.position
      ({ header with windows := 0 }.encode ++ p.bytes)
    let t := ((onto d).writeHeader header).2.after calls
    ((onto d).writeHeader header).1 = .ok () ∧
      (t.call next).1 = p.answer next ∧
      t.finish.1 = .ok file.length ∧
      ∃ d', t.finish.2.device = some d' ∧
        d'.position = d.position + file.length ∧
        d'.content =
          overwrite unfinished Header.countOffset (LittleEndian.encode 4 p.windows) ∧
        (d'.content = overwrite d.content d.position file ↔
          d.position = 0 ∨ p.windows = 0 ∧ Header.countBytes unfinished = [0, 0, 0, 0]) := by
  intro p file unfinished t
  obtain ⟨hheader, hplaced⟩ := placed_writeHeader hr header
  have hafter : Placed d header p t := hplaced.after calls
  have hlength : file.length = header.size + p.bytes.length := by
    rw [List.length_append, Header.length_encode]
    rfl
  have hwindows : p.windows < UInt32.size := Payload.windows_of_lt calls
  obtain ⟨hfinish, d', hd', hposition, hcontent⟩ := hafter.finish
  rw [hlength]
  refine ⟨hheader, (hafter.call next).1, hfinish, d', hd', hposition, hcontent, ?_⟩
  rw [hcontent]
  exact header.count_in_place_iff d.content d.position p.bytes hwindows

/-- One window behind twenty other bytes, on a device that takes three bytes at a time.  The
draft is finished, and the device does not hold the file. -/
theorem finish_elsewhere_behind :
    let header : Header := ⟨.sixteen, 8000, 80, 0, none⟩
    let d : Device := { tape := .holding (List.replicate 20 0xff) 20, transfer := some 3 }
    let t := ((onto d).writeHeader header).2.after [.appendWindow [1, 0, 2, 0]]
    let file := { header with windows := 1 }.encode ++ [1, 0, 2, 0]
    t.finish.1 = .ok file.length ∧ ∃ d', t.finish.2.device = some d' ∧
      d'.content ≠ overwrite d.content d.position file := by
  intro header d t file
  have hreliable : d.Reliable := ⟨by simp [d], rfl, rfl, by simp [d], rfl⟩
  obtain ⟨-, -, hfinish, d', hd', -, -, hiff⟩ :=
    finish_elsewhere header hreliable [.appendWindow [1, 0, 2, 0]] (.append [])
  refine ⟨hfinish, d', hd', fun hcontent => ?_⟩
  -- The device did not stand at its first byte, and there is a window to count.
  rcases hiff.1 hcontent with hposition | ⟨hwindows, -⟩
  · exact absurd hposition (by decide)
  · exact absurd hwindows (by decide)

/-- One window behind twenty other bytes.  Four of these are overwritten with the count, and
the header behind them counts no windows. -/
theorem count_among_other_bytes :
    let header : Header := ⟨.sixteen, 8000, 80, 0, none⟩
    let d : Device := { tape := .holding (List.replicate 20 0xff) 20 }
    let t := ((onto d).writeHeader header).2.after [.appendWindow [1, 0, 2, 0]]
    t.finish.1 = .ok 24 ∧ t.finish.2.device.map Device.content =
        some (List.replicate 16 0xff ++ [1, 0, 0, 0] ++ header.encode ++ [1, 0, 2, 0]) ∧
      t.finish.2.device.map Device.content ≠
        some (List.replicate 20 0xff ++ { header with windows := 1 }.encode ++ [1, 0, 2, 0]) := by
  decide +kernel

end Draft

end Peakfile
