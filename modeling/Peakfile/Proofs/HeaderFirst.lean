/-
# The header comes first

Until a draft was asked for a header it refuses bytes, windows and its end, and asks its
device for nothing (`Draft.Bare.request_eq`).  Of the calls for a header the first one alone
reaches the device, and all others are refused (`Draft.Bare.headerAnswers_eq`).

What a draft notes of its header is that it was attempted, and not that it was taken.  As
soon as the device fails to take the header, nothing is refused any more, and bytes, windows
and the count go to a device without a header (`Draft.guarded_iff`).
-/
import Peakfile.Proofs.Lifecycle
import Peakfile.Proofs.Placement

namespace Peakfile

namespace Draft

/-! ## Calls and their answers -/

/-- The header that a call asks for, if it does. -/
def Call.header : Call → Option Header
  | .writeHeader h => some h
  | .append _ | .appendWindow _ => none

/-- The first header that calls ask for, if any. -/
def firstHeader (calls : List Call) : Option Header := calls.findSome? Call.header

/-- Calls with their answers. -/
def transcript (t : Draft) : List Call → List (Call × Except Error Unit)
  | [] => []
  | c :: calls => (c, (t.call c).1) :: transcript (t.call c).2 calls

/-- The answers to the calls for a header, in order. -/
def headerAnswers (t : Draft) (calls : List Call) : List (Except Error Unit) :=
  ((t.transcript calls).filter fun entry => entry.1.header.isSome).map (·.2)

/-- What may be asked of a draft behind its header. -/
inductive Request where
  | append (bytes : List UInt8)
  | appendWindow (points : List UInt8)
  | finish
  deriving DecidableEq

/-- Ask for something.  The answer is the size of the file, if it was finished. -/
def request (t : Draft) : Request → Except Error (Option Nat) × Draft
  | .append bytes => ((t.append bytes).1.map fun _ => none, (t.append bytes).2)
  | .appendWindow points => ((t.appendWindow points).1.map fun _ => none, (t.appendWindow points).2)
  | .finish => (t.finish.1.map some, t.finish.2)

/-- A draft refuses a request for the order of calls, and stays as it is with its device and
all that the device was told. -/
def Refuses (t : Draft) (q : Request) : Prop :=
  ∃ state, t.request q = (.error (.wrongState state), t)

variable {t : Draft} {calls : List Call} {header : Header}

theorem firstHeader_cons (c : Call) (calls : List Call) :
    firstHeader (c :: calls) = c.header.or (firstHeader calls) := by
  cases c <;> rfl

theorem headerAnswers_cons_some {c : Call} (h : c.header = some header) :
    t.headerAnswers (c :: calls) = (t.call c).1 :: (t.call c).2.headerAnswers calls := by
  rw [headerAnswers, transcript, List.filter_cons_of_pos (by simp [h])]
  rfl

theorem headerAnswers_cons_none {c : Call} (h : c.header = none) :
    t.headerAnswers (c :: calls) = (t.call c).2.headerAnswers calls := by
  rw [headerAnswers, transcript, List.filter_cons_of_neg (by simp [h])]
  rfl

/-! ## Before a header -/

/-- A draft that was asked for no header, and so has fewer windows than a header can count. -/
structure Bare (t : Draft) : Prop where
  headerWritten : t.headerWritten = false
  windows_lt : t.windows < mostWindows

theorem bare (device : Option Device) : Bare { device } where
  headerWritten := rfl
  windows_lt := show 0 < mostWindows by decide

/-- Without a header, nothing is taken. -/
theorem Bare.request_eq (h : t.Bare) (q : Request) :
    t.request q = (.error (.wrongState .headerMissing), t) := by
  have happend : ∀ bytes, t.append bytes = (.error (.wrongState .headerMissing), t) :=
    fun bytes => by rw [append, h.headerWritten, if_neg Bool.false_ne_true]
  cases q with
  | append bytes => rw [request, happend, Except.map]
  | appendWindow points =>
    rw [request, appendWindow, if_neg (Nat.not_le.2 h.windows_lt), happend, Except.map]
  | finish => rw [request, finish, h.headerWritten, if_neg Bool.false_ne_true, Except.map]

/-- Without a header, calls for anything else change nothing. -/
theorem Bare.call_eq (h : t.Bare) {c : Call} (hc : c.header = none) : (t.call c).2 = t := by
  cases c with
  | writeHeader header => cases hc
  | append bytes => exact congrArg Prod.snd (h.request_eq (.append bytes))
  | appendWindow points => exact congrArg Prod.snd (h.request_eq (.appendWindow points))

/-- Calls that ask for no header leave a draft without one as it is. -/
theorem Bare.after_eq (h : t.Bare) (hnone : firstHeader calls = none) :
    t.after calls = t ∧ t.headerAnswers calls = [] := by
  induction calls with
  | nil => exact ⟨rfl, rfl⟩
  | cons c calls ih =>
    rw [firstHeader_cons, Option.or_eq_none_iff] at hnone
    obtain ⟨hc, hrest⟩ := hnone
    obtain ⟨hafter, hanswers⟩ := ih hrest
    have hsame := h.call_eq hc
    refine ⟨?_, ?_⟩
    · rw [after, List.foldl_cons, hsame]
      exact hafter
    · rw [headerAnswers_cons_none hc, hsame, hanswers]

/-! ## From the first header on -/

/-- Every call keeps the note of a header, and a call for one makes it. -/
theorem headerWritten_call (t : Draft) (c : Call) :
    (t.call c).2.headerWritten = (t.headerWritten || c.header.isSome) := by
  have happend : ∀ bytes, (t.append bytes).2.headerWritten = t.headerWritten := by
    intro bytes
    rw [append]
    split_ifs
    · exact (put_cases t bytes).1
    · rfl
  cases c with
  | writeHeader header =>
    rw [call, writeHeader, Call.header, Option.isSome_some, Bool.or_true]
    split_ifs with h
    · exact h
    · exact (put_cases _ _).1
  | append bytes =>
    rw [Call.header, Option.isSome_none, Bool.or_false]
    exact happend bytes
  | appendWindow points =>
    have hput := happend points
    rw [call, appendWindow, Call.header, Option.isSome_none, Bool.or_false]
    split_ifs
    · rfl
    · rcases happ : t.append points with ⟨cause | _, t'⟩
      all_goals
        rw [happ] at hput
        exact hput

/-- Calls note a header exactly if one of them asks for it. -/
theorem headerWritten_after (t : Draft) (calls : List Call) :
    (t.after calls).headerWritten = (t.headerWritten || (firstHeader calls).isSome) := by
  induction calls generalizing t with
  | nil => exact (Bool.or_false _).symm
  | cons c calls ih =>
    have hstep : (t.after (c :: calls)).headerWritten =
        (t.headerWritten || c.header.isSome || (firstHeader calls).isSome) := by
      rw [← headerWritten_call]
      exact ih _
    rw [hstep, firstHeader_cons, Bool.or_assoc, Option.isSome_or]

/-- Behind a header, nothing is refused for the order of calls. -/
theorem request_of_headerWritten (h : t.headerWritten = true) (q : Request)
    (state : CallState) : (t.request q).1 ≠ .error (.wrongState state) := by
  cases q with
  | append bytes =>
    rw [request, append, if_pos h]
    rcases (put_cases t bytes).2 with hok | ⟨cause, herror⟩
    · rw [hok]
      rintro ⟨⟩
    · rw [herror]
      rintro ⟨⟩
  | appendWindow points =>
    have hcause := (appendWindow_cases h points).2
    rw [request]
    rcases hr : (t.appendWindow points).1 with e | _
    · rintro ⟨⟩
      cases hcause _ hr
    · rintro ⟨⟩
  | finish =>
    have hcause := finish_cases h
    rw [request]
    rcases hr : t.finish.1 with e | size
    · rintro ⟨⟩
      cases hcause _ hr
    · rintro ⟨⟩

/-- Behind a header, every call for another one is refused. -/
theorem headerAnswers_of_headerWritten (h : t.headerWritten = true) (calls : List Call) :
    ∀ answer ∈ t.headerAnswers calls, answer = .error (.wrongState .headerWritten) := by
  induction calls generalizing t with
  | nil => simp [headerAnswers, transcript]
  | cons c calls ih =>
    have hnext : (t.call c).2.headerWritten = true := by rw [headerWritten_call, h, Bool.true_or]
    rcases hc : c.header with _ | header
    · rw [headerAnswers_cons_none hc]
      exact ih hnext
    · rw [headerAnswers_cons_some hc]
      refine List.forall_mem_cons.2 ⟨?_, ih hnext⟩
      cases c with
      | writeHeader other => rw [call, writeHeader, if_pos h]
      | append bytes | appendWindow points => cases hc

/-- **One header.**  The first call for a header goes to the device as it was at the
beginning, and all others are refused. -/
theorem Bare.headerAnswers_eq (h : t.Bare) (hfirst : firstHeader calls = some header) :
    ∃ refused, t.headerAnswers calls = (t.writeHeader header).1 :: refused ∧
      ∀ answer ∈ refused, answer = .error (.wrongState .headerWritten) := by
  induction calls with
  | nil => cases hfirst
  | cons c calls ih =>
    rw [firstHeader_cons] at hfirst
    cases c with
    | writeHeader other =>
      obtain rfl : other = header := Option.some.inj hfirst
      exact ⟨_, headerAnswers_cons_some rfl,
        headerAnswers_of_headerWritten (writeHeader_cases h.headerWritten other).1 calls⟩
    | append bytes | appendWindow points =>
      rw [headerAnswers_cons_none rfl, h.call_eq rfl]
      exact ih hfirst

/-! ## Requests in their order -/

/-- **Nothing without a header.**  Of a draft with any device, or without one, after any
calls:

* a request is refused, and makes no call to the device, unless an earlier header was written:
  this holds exactly if no earlier header failed on the device;
* it is refused where no header was asked for;
* it is not refused where one was, whatever came of it;
* no header fails on a reliable device, or without a device. -/
theorem guarded_iff (device : Option Device) (calls : List Call) (q : Request) :
    let t : Draft := { device }
    let now := t.after calls
    let answers := t.headerAnswers calls
    ((.ok () ∉ answers → now.Refuses q) ↔ ∀ cause, .error (.device cause) ∉ answers) ∧
      (firstHeader calls = none → now.request q = (.error (.wrongState .headerMissing), now)) ∧
      (firstHeader calls ≠ none → ∀ state, (now.request q).1 ≠ .error (.wrongState state)) ∧
      (t.Reliable → ∀ cause, .error (.device cause) ∉ answers) := by
  intro t now answers
  have hbare : t.Bare := bare device
  rcases hfirst : firstHeader calls with _ | header
  · -- Nothing has happened at all.
    obtain ⟨hafter, hanswers⟩ := hbare.after_eq hfirst
    have hnone : ∀ answer, answer ∉ answers := List.eq_nil_iff_forall_not_mem.1 hanswers
    have hsame : now = t := hafter
    have hrefused : now.request q = (.error (.wrongState .headerMissing), now) := by
      rw [hsame]
      exact hbare.request_eq q
    exact ⟨⟨fun _ _ => hnone _, fun _ _ => ⟨_, hrefused⟩⟩, fun _ => hrefused,
      fun h => absurd rfl h, fun _ _ => hnone _⟩
  · obtain ⟨refused, hanswers, hrefused⟩ := hbare.headerAnswers_eq hfirst
    have hwritten : now.headerWritten = true := by
      rw [headerWritten_after, hfirst]
      rfl
    have hopen := request_of_headerWritten hwritten q
    -- The answer to the first header is the only one that can be a failure or none.
    have hmem : ∀ answer, answer ≠ .error (.wrongState .headerWritten) →
        (answer ∈ answers ↔ answer = (t.writeHeader header).1) := by
      intro answer hne
      have hcons : answers = (t.writeHeader header).1 :: refused := hanswers
      rw [hcons, List.mem_cons, or_iff_left fun h => hne (hrefused answer h)]
    have hok := hmem (.ok ()) nofun
    have hfails := fun cause => hmem (.error (.device cause)) nofun
    refine ⟨?_, nofun, fun _ => hopen, fun hr cause hin => ?_⟩
    · rcases (writeHeader_cases hbare.headerWritten header).2 with htaken | ⟨cause, hbroken⟩
      · refine iff_of_true (fun h => absurd (hok.2 htaken.symm) h) fun cause hin => ?_
        cases htaken.symm.trans ((hfails cause).1 hin).symm
      · refine iff_of_false (fun h => ?_) fun h => h cause ((hfails cause).2 hbroken.symm)
        obtain ⟨state, hstate⟩ := h fun hin => by cases hbroken.symm.trans (hok.1 hin).symm
        exact hopen state (congrArg Prod.fst hstate)
    · have hput : (t.writeHeader header).1 = .ok () := by
        rw [writeHeader, hbare.headerWritten, if_neg Bool.false_ne_true]
        exact (Reliable.put (t := { t with headerWritten := true }) hr _).1
      cases hput.symm.trans ((hfails cause).1 hin).symm

/-- A header fails on the device, and bytes behind it are taken all the same.  The draft is
then finished as a file of four bytes. -/
theorem append_behind_failed_header :
    let d : Device := { writeFaults := [(1, .fails "write failure")] }
    let calls := [.writeHeader ⟨.sixteen, 8000, 80, 0, none⟩, .append [1, 0, 2, 0]]
    let now := (onto d).after calls
    (onto d).transcript calls = calls.zip [.error (.device (.other "write failure")), .ok ()] ∧
      .ok () ∉ (onto d).headerAnswers calls ∧
      (now.request .finish).1 = .ok (some 4) ∧
      (now.request .finish).2.device.map Device.content =
        some ([1, 0, 2, 0] ++ List.replicate 16 0) := by
  decide +kernel

end Draft

end Peakfile
