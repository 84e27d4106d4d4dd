/-
# The books of a draft

A draft counts the windows and the bytes that its device took, whatever the device does in
between.  Only calls that were answered without an error count (`Draft.booked_after`).

Finishing is a short list of operations on the device.  `Operation.Fares` says what calls one
of them takes and what comes of it, and `InOrder` that a list of them is made one after the
other up to the first that fails (`Draft.performed_patchCount`).
-/
import Peakfile.Proofs.HeaderFirst

namespace Peakfile

/-! ## Operations on a device -/

/-- What a device may be made to do. -/
inductive Operation where
  | query
  | move (position : Nat)
  | write (data : List UInt8)
  | flush

/-- How an operation fares: the calls that it takes, the first one first, and what comes of
it.  Bytes are written by as many calls as it takes, each for what is left of them. -/
inductive Operation.Fares : Operation → List DeviceCall → Except StorageError Unit → Prop
  | query (fault : Option StorageError) :
      Fares .query [.tell fault] (fault.elim (.ok ()) .error)
  | move (position : Nat) (fault : Option StorageError) :
      Fares (.move position) [.seek position fault] (fault.elim (.ok ()) .error)
  | flush (fault : Option StorageError) : Fares .flush [.flush fault] (fault.elim (.ok ()) .error)
  | nothing : Fares (.write []) [] (.ok ())
  | part {data count calls answer} (h : data ≠ [])
      (rest : Fares (.write (data.drop (count + 1))) calls answer) :
      Fares (.write data) (.write data (.took (count + 1)) :: calls) answer
  | again {data calls answer} (h : data ≠ []) (rest : Fares (.write data) calls answer) :
      Fares (.write data) (.write data .interrupted :: calls) answer
  | stuck {data} (h : data ≠ []) :
      Fares (.write data) [.write data (.took 0)] (.error .tookNothing)
  | broken {data cause} (h : data ≠ []) :
      Fares (.write data) [.write data (.failed cause)] (.error cause)

/-- Operations made one after the other, up to the first that fails: the calls that they take,
the first one first, and what comes of them. -/
inductive InOrder : List Operation → List DeviceCall → Except StorageError Unit → Prop
  | done : InOrder [] [] (.ok ())
  | fails {op ops calls cause} (h : op.Fares calls (.error cause)) :
      InOrder (op :: ops) calls (.error cause)
  | next {op ops calls more answer} (h : op.Fares calls (.ok ())) (rest : InOrder ops more answer) :
      InOrder (op :: ops) (calls ++ more) answer

/-- A query is a single call. -/
theorem Operation.Fares.calls_of_query {calls : List DeviceCall}
    {answer : Except StorageError Unit} (h : Operation.query.Fares calls answer) :
    ∃ fault, calls = [.tell fault] := by
  cases h
  exact ⟨_, rfl⟩

/-- Where the first of the operations is a query, the first call asks for the position. -/
theorem InOrder.head_query {ops : List Operation} {calls : List DeviceCall}
    {answer : Except StorageError Unit} (h : InOrder (.query :: ops) calls answer) :
    ∃ fault more, calls = .tell fault :: more := by
  cases h with
  | fails h =>
    obtain ⟨fault, rfl⟩ := h.calls_of_query
    exact ⟨fault, [], rfl⟩
  | next h rest =>
    obtain ⟨fault, rfl⟩ := h.calls_of_query
    exact ⟨fault, _, rfl⟩

namespace Device

/-- One device comes from another by an operation. -/
def Made (d : Device) (op : Operation) (answer : Except StorageError Unit) (d' : Device) : Prop :=
  ∃ calls, d'.log = calls.reverse ++ d.log ∧ op.Fares calls answer

/-- One device comes from another by operations, made one after the other. -/
def Performed (d : Device) (ops : List Operation) (answer : Except StorageError Unit)
    (d' : Device) : Prop :=
  ∃ calls, d'.log = calls.reverse ++ d.log ∧ InOrder ops calls answer

variable {d d' d'' : Device} {op : Operation} {ops : List Operation}

theorem Made.fails {cause : StorageError} (h : d.Made op (.error cause) d') :
    d.Performed (op :: ops) (.error cause) d' := by
  obtain ⟨calls, hlog, hfares⟩ := h
  exact ⟨calls, hlog, .fails hfares⟩

theorem Made.next {answer : Except StorageError Unit} (h : d.Made op (.ok ()) d')
    (hrest : d'.Performed ops answer d'') : d.Performed (op :: ops) answer d'' := by
  obtain ⟨calls, hlog, hfares⟩ := h
  obtain ⟨more, hmore, horder⟩ := hrest
  exact ⟨calls ++ more, by rw [hmore, hlog, List.reverse_append, List.append_assoc],
    .next hfares horder⟩

theorem Made.last {answer : Except StorageError Unit} (h : d.Made op answer d') :
    d.Performed [op] answer d' := by
  rcases answer with cause | _
  · exact h.fails
  · exact h.next ⟨[], rfl, .done⟩

theorem made_tell (d : Device) : d.Made .query (d.tell.1.map fun _ => ()) d.tell.2 := by
  rw [tell_eq]
  refine ⟨[.tell d.nextSeekFault], rfl, ?_⟩
  rcases d.nextSeekFault with _ | cause
  · exact .query none
  · exact .query (some cause)

theorem made_seek (d : Device) (position : Nat) :
    d.Made (.move position) (d.seek position).1 (d.seek position).2 := by
  unfold seek
  rcases d.nextSeekFault with _ | cause
  · exact ⟨_, rfl, .move position none⟩
  · exact ⟨_, rfl, .move position (some cause)⟩

theorem made_flush (d : Device) : d.Made .flush d.flush.1 d.flush.2 := by
  unfold flush
  rcases d.nextFlushFault with _ | cause
  · exact ⟨_, rfl, .flush none⟩
  · exact ⟨_, rfl, .flush (some cause)⟩

/-- Writing everything is a row of write calls, each for what is left. -/
theorem made_writeAll (d : Device) (data : List UInt8) :
    d.Made (.write data) (d.writeAll data).1 (d.writeAll data).2 := by
  -- One call more in front of those for what is left.
  have hcons : ∀ {d d' : Device} {data rest : List UInt8} {reply : WriteReply},
      d.write data = (reply, d') →
      (∀ calls answer, (Operation.write rest).Fares calls answer →
        (Operation.write data).Fares (.write data reply :: calls) answer) →
      d'.Made (.write rest) (d'.writeAll rest).1 (d'.writeAll rest).2 →
      d.Made (.write data) (d'.writeAll rest).1 (d'.writeAll rest).2 := by
    rintro d d' data rest reply hw hfares ⟨calls, hlog, hrest⟩
    have hfirst := (write_effect d data).1
    rw [hw] at hfirst
    refine ⟨.write data reply :: calls, ?_, hfares calls _ hrest⟩
    rw [hlog, hfirst, List.reverse_cons, List.append_assoc]
    rfl
  induction d, data using writeAll.induct with
  | case1 d =>
    rw [writeAll, if_pos rfl]
    exact ⟨[], rfl, .nothing⟩
  | case2 d data hne d' hw =>
    have hlog := (write_effect d data).1
    rw [hw] at hlog
    rw [writeAll_eq d hne, hw]
    exact ⟨[_], hlog, .stuck hne⟩
  | case3 d data hne count d' hw ih =>
    rw [writeAll_eq d hne, hw]
    exact hcons hw (fun _ _ h => .part hne h) ih
  | case4 d data hne d' hw ih =>
    rw [writeAll_eq d hne, hw]
    exact hcons hw (fun _ _ h => .again hne h) ih
  | case5 d data hne cause d' hw =>
    have hlog := (write_effect d data).1
    rw [hw] at hlog
    rw [writeAll_eq d hne, hw]
    exact ⟨[_], hlog, .broken hne⟩

end Device

namespace Draft

/-- How a count gets to its place on a device, and the device back. -/
def countOperations (d : Device) (windows : Nat) : List Operation :=
  [.query, .move Header.countOffset, .write (LittleEndian.encode 4 windows), .move d.position,
    .flush]

/-- The count is put in its place by these operations. -/
theorem performed_patchCount (d : Device) (windows : Nat) :
    d.Performed (countOperations d windows) (patchCount d windows).1 (patchCount d windows).2 := by
  have hquery := d.made_tell
  unfold patchCount
  rcases ht : d.tell with ⟨cause | position, d₁⟩
  · rw [ht] at hquery
    exact hquery.fails
  · have hposition : position = d.position := by
      rw [Device.tell_eq] at ht
      rcases hf : d.nextSeekFault with _ | cause <;> rw [hf] at ht <;> cases ht
      rfl
    rw [ht] at hquery
    rw [countOperations, ← hposition]
    refine hquery.next ?_
    have hmove := d₁.made_seek Header.countOffset
    dsimp only
    rcases hs : d₁.seek Header.countOffset with ⟨cause | _, d₂⟩
    · rw [hs] at hmove
      exact hmove.fails
    · rw [hs] at hmove
      refine hmove.next ?_
      have hwrite := d₂.made_writeAll (LittleEndian.encode 4 windows)
      dsimp only
      rcases hw : d₂.writeAll (LittleEndian.encode 4 windows) with ⟨cause | _, d₃⟩
      · rw [hw] at hwrite
        exact hwrite.fails
      · rw [hw] at hwrite
        refine hwrite.next ?_
        have hback := d₃.made_seek position
        dsimp only
        rcases hb : d₃.seek position with ⟨cause | _, d₄⟩
        · rw [hb] at hback
          exact hback.fails
        · rw [hb] at hback
          exact hback.next d₄.made_flush.last

variable {t : Draft}

/-- Behind a header, finishing puts the count in its place, and is answered by the size
unless the device fails. -/
theorem finish_performs (h : t.headerWritten = true) {d : Device} (hd : t.device = some d) :
    ∃ answer d', d.Performed (countOperations d t.windows) answer d' ∧
      t.finish = ((answer.mapError .device).map fun _ => t.size, { t with device := some d' }) := by
  refine ⟨_, _, performed_patchCount d t.windows, ?_⟩
  rw [finish, if_pos h, hd]
  dsimp only
  rcases patchCount d t.windows with ⟨cause | _, d'⟩ <;> rfl

/-! ## Windows and bytes taken -/

/-- Whether a call is for a window. -/
def Call.isWindow : Call → Bool
  | .appendWindow _ => true
  | .writeHeader _ | .append _ => false

/-- The bytes that a call is to add to the file. -/
def Call.bytes : Call → List UInt8
  | .writeHeader h => { h with windows := 0 }.encode
  | .append bytes => bytes
  | .appendWindow points => points

/-- The calls that were not answered by an error. -/
def granted (entries : List (Call × Except Error Unit)) : List Call :=
  (entries.filter fun entry => entry.2.isOk).map (·.1)

/-- One draft comes from another by an answer to a call for bytes and windows: they are
counted unless it is an error, and the bytes only if there is a device. -/
structure Booked (t : Draft) (bytes : List UInt8) (windows : Nat) (answer : Except Error Unit)
    (t' : Draft) : Prop where
  device : t'.device.isSome = t.device.isSome
  windows_eq : t'.windows = t.windows + if answer.isOk then windows else 0
  size_eq : t'.size = t.size + if answer.isOk && t.device.isSome then bytes.length else 0

theorem Booked.refused (t : Draft) (bytes : List UInt8) (windows : Nat) (e : Error) :
    Booked t bytes windows (.error e) t :=
  ⟨rfl, rfl, rfl⟩

theorem booked_put (t : Draft) (data : List UInt8) :
    Booked t data 0 (t.put data).1 (t.put data).2 := by
  rcases hd : t.device with _ | d
  · rw [put, hd]
    exact ⟨rfl, rfl, by rw [hd]; rfl⟩
  · rw [put, hd]
    dsimp only
    rcases d.writeAll data with ⟨cause | _, d'⟩
    all_goals exact ⟨by rw [hd]; rfl, rfl, by rw [hd]; rfl⟩

theorem booked_append (t : Draft) (bytes : List UInt8) :
    Booked t bytes 0 (t.append bytes).1 (t.append bytes).2 := by
  rw [append]
  split_ifs
  · exact booked_put t bytes
  · exact .refused t bytes 0 _

/-- Every call is booked: what it is for is counted if it is granted, and nothing else. -/
theorem booked_call (t : Draft) (c : Call) :
    Booked t c.bytes c.isWindow.toNat (t.call c).1 (t.call c).2 := by
  cases c with
  | writeHeader header =>
    rw [call, writeHeader]
    split_ifs
    · exact .refused _ _ _ _
    · obtain ⟨hdevice, hwindows, hsize⟩ :=
        booked_put { t with headerWritten := true } { header with windows := 0 }.encode
      exact ⟨hdevice, hwindows, hsize⟩
  | append bytes => exact booked_append t bytes
  | appendWindow points =>
    have happend := booked_append t points
    rw [call, appendWindow]
    split_ifs
    · exact .refused _ _ _ _
    · rcases happ : t.append points with ⟨cause | _, t'⟩
      · rw [happ] at happend
        exact ⟨happend.device, happend.windows_eq, happend.size_eq⟩
      · rw [happ] at happend
        exact ⟨happend.device, rfl, happend.size_eq⟩

/-- What was not granted counts for nothing. -/
theorem Booked.of_error {t t' : Draft} {bytes : List UInt8} {windows : Nat} {e : Error}
    (h : Booked t bytes windows (.error e) t') : Booked t [] 0 (.ok ()) t' where
  device := h.device
  windows_eq := h.windows_eq
  size_eq := h.size_eq.trans (by cases t.device <;> rfl)

/-- What was granted one after the other counts together. -/
theorem Booked.trans {t t' t'' : Draft} {first second : List UInt8} {m n : Nat}
    (h : Booked t first m (.ok ()) t') (h' : Booked t' second n (.ok ()) t'') :
    Booked t (first ++ second) (m + n) (.ok ()) t'' where
  device := h'.device.trans h.device
  windows_eq := by
    rw [h'.windows_eq, h.windows_eq]
    exact Nat.add_assoc _ _ _
  size_eq := by
    rw [h'.size_eq, h.size_eq, h.device, List.length_append, Nat.add_assoc]
    cases t.device <;> rfl

/-- Calls are booked for what was granted of them. -/
theorem booked_after (t : Draft) (calls : List Call) :
    let taken := granted (t.transcript calls)
    Booked t (taken.flatMap Call.bytes) (taken.countP Call.isWindow) (.ok ()) (t.after calls) := by
  induction calls generalizing t with
  | nil => exact ⟨rfl, rfl, by cases t.device <;> rfl⟩
  | cons c calls ih =>
    have hcall := booked_call t c
    have hrest := ih (t.call c).2
    rw [transcript]
    rcases hanswer : (t.call c).1 with e | _
    · rw [hanswer] at hcall
      have hboth := hcall.of_error.trans hrest
      rw [Nat.zero_add] at hboth
      exact hboth
    · rw [hanswer] at hcall
      have hcount : ∀ taken : List Call, (c :: taken).countP Call.isWindow =
          c.isWindow.toNat + taken.countP Call.isWindow := by
        intro taken
        rw [List.countP_cons, Nat.add_comm]
        cases c.isWindow <;> rfl
      have hboth := hcall.trans hrest
      rw [← hcount] at hboth
      exact hboth

/-- Windows beyond those that a header can count are not counted. -/
theorem windows_after_le (h : t.windows ≤ mostWindows) (calls : List Call) :
    (t.after calls).windows ≤ mostWindows := by
  induction calls generalizing t with
  | nil => exact h
  | cons c calls ih =>
    have hstep : (t.call c).2.windows ≤ mostWindows := by
      cases c with
      | appendWindow points => exact windows_appendWindow_le h points
      | writeHeader _ | append _ =>
        rw [(booked_call t _).windows_eq]
        exact le_of_eq_of_le (Nat.add_eq_left.2 (ite_self 0)) h
    exact ih hstep

/-- The headers that were granted are those whose answers are no errors. -/
theorem countP_header_granted (t : Draft) (calls : List Call) :
    (granted (t.transcript calls)).countP (fun c => c.header.isSome) =
      (t.headerAnswers calls).countP fun answer => answer.isOk := by
  rw [granted, headerAnswers, List.countP_map, List.countP_filter, List.countP_map,
    List.countP_filter]
  exact List.countP_congr fun entry _ => by simp [and_comm]

/-- One header is granted at most. -/
theorem Bare.countP_header_granted_le (h : t.Bare) (calls : List Call) :
    (granted (t.transcript calls)).countP (fun c => c.header.isSome) ≤ 1 := by
  rw [countP_header_granted]
  rcases hfirst : firstHeader calls with _ | header
  · rw [(h.after_eq hfirst).2]
    exact Nat.zero_le _
  · obtain ⟨refused, hanswers, hrefused⟩ := h.headerAnswers_eq hfirst
    have hnone : refused.countP (fun answer => answer.isOk) = 0 := by
      refine List.countP_eq_zero.2 fun answer hin => ?_
      rw [hrefused answer hin]
      exact Bool.false_ne_true
    rw [hanswers, List.countP_cons, hnone, Nat.zero_add]
    split_ifs <;> omega

/-! ## Draft and device in the end -/

/-- **Books and the end.**  Of a draft with any device, or without one, after any calls:

* as many windows are counted as calls for one were granted, and the bytes of the granted
  calls if there is a device, of which a header is one at most;
* a call that is answered by an error changes neither count;
* there are never more windows than a header can count, and once there are as many, a further
  one is refused without a call to the device;
* finishing is refused without a call to the device, if no header was asked for; else it is
  answered by the count of bytes at once, if there is no device, or the device is asked for
  its position, moved to the place of the count, given the count, moved back and flushed, in
  this order and up to the first failure, and the answer is the count of bytes if there is
  none. -/
theorem books_and_end (device : Option Device) (calls : List Call) :
    let t : Draft := { device }
    let now := t.after calls
    let taken := granted (t.transcript calls)
    (now.windows = taken.countP Call.isWindow ∧
        now.size = (if device.isSome then (taken.flatMap Call.bytes).length else 0) ∧
        taken.countP (fun c => c.header.isSome) ≤ 1) ∧
      (∀ c e, (now.call c).1 = .error e →
        (now.call c).2.windows = now.windows ∧ (now.call c).2.size = now.size) ∧
      (now.windows ≤ mostWindows ∧ (now.windows = mostWindows → ∀ points,
        now.call (.appendWindow points) = (.error .tooManyWindows, now))) ∧
      (firstHeader calls = none → now.finish = (.error (.wrongState .headerMissing), now)) ∧
      (firstHeader calls ≠ none → device = none → now.finish = (.ok now.size, now)) ∧
      (firstHeader calls ≠ none → device ≠ none → ∃ d answer d', now.device = some d ∧
        d.Performed (countOperations d now.windows) answer d' ∧ now.finish =
          ((answer.mapError .device).map fun _ => now.size, { now with device := some d' })) := by
  intro t now taken
  have hbare : t.Bare := bare device
  have hbooks : Booked t (taken.flatMap Call.bytes) (taken.countP Call.isWindow) (.ok ()) now :=
    booked_after t calls
  have hpresent : now.device.isSome = device.isSome := hbooks.device
  have hwritten : firstHeader calls ≠ none → now.headerWritten = true := by
    intro hasked
    rw [headerWritten_after, Option.isSome_iff_ne_none.2 hasked, Bool.or_true]
  refine ⟨⟨?_, ?_, hbare.countP_header_granted_le calls⟩, fun c e he => ?_,
    ⟨windows_after_le (Nat.zero_le _) calls, fun hfull points => ?_⟩, fun hnone => ?_,
    fun hasked hdevice => ?_, fun hasked hdevice => ?_⟩
  · exact hbooks.windows_eq.trans (Nat.zero_add _)
  · exact hbooks.size_eq.trans (Nat.zero_add _)
  · have hcall := booked_call now c
    rw [he] at hcall
    exact ⟨hcall.windows_eq, hcall.size_eq⟩
  · rw [call, appendWindow, if_pos hfull.ge]
  · have hsame : now = t := (hbare.after_eq hnone).1
    rw [hsame]
    rfl
  · rw [hdevice, Option.isSome_none, Option.isSome_eq_false_iff, Option.isNone_iff_eq_none]
      at hpresent
    rw [finish, if_pos (hwritten hasked), hpresent]
  · rw [Option.isSome_iff_ne_none.2 hdevice] at hpresent
    obtain ⟨d, hd⟩ := Option.isSome_iff_exists.1 hpresent
    obtain ⟨answer, d', hperformed, hfinish⟩ := finish_performs (hwritten hasked) hd
    exact ⟨d, answer, d', hd, hperformed, hfinish⟩

/-- A draft that was asked for nothing is not finished, and its device is not even asked for
its position. -/
theorem finish_of_no_call :
    let t : Draft := onto {}
    t.finish.1 = .error (.wrongState .headerMissing) ∧
      ∃ d d', t.device = some d ∧ t.finish.2.device = some d' ∧
        ∀ answer, ¬ d.Performed (countOperations d t.windows) answer d' := by
  intro t
  refine ⟨rfl, {}, {}, rfl, rfl, ?_⟩
  rintro answer ⟨calls, hlog, horder⟩
  obtain ⟨fault, more, rfl⟩ := horder.head_query
  rw [List.reverse_cons, List.append_assoc] at hlog
  exact List.cons_ne_nil _ _ (List.append_eq_nil_iff.1 hlog.symm).2

end Draft

end Peakfile
