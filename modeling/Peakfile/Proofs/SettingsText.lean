/-
# Reading settings

The text of settings is an object whose members may be fields with values of their kind, or
anything else that is well formed under another name.  A member is read to its end whatever it
is (`Json.readMember_append`), and only a field leaves a trace.  So reading a text comes to
noting its fields in their order, until one of them is repeated (`Settings.ofText_object`).
-/
import Peakfile.Proofs.Grammar
import Peakfile.Settings.File

namespace Peakfile

open Json

/-! ## The bytes of a text -/

theorem toList_loop (b : ByteArray) (i : Nat) (done : List UInt8) :
    ByteArray.toList.loop b i done = done.reverse ++ b.data.toList.drop i := by
  fun_induction ByteArray.toList.loop b i done with
  | case1 i done hlt ih =>
    have hi : i < b.data.toList.length := hlt
    have hget : b.get! i = b.data.toList[i] := by
      have hsize : i < b.data.size := hlt
      show b.data[i]! = _
      rw [getElem!_pos b.data i hsize]
      exact (Array.getElem_toList _).symm
    rw [ih, List.reverse_cons, List.append_assoc, List.drop_eq_getElem_cons hi, hget]
    rfl
  | case2 i done hge =>
    rw [List.drop_eq_nil_of_le (Nat.not_lt.1 hge), List.append_nil]

/-- The bytes of a text are the text again. -/
theorem fromUTF8?_toUTF8 (s : String) : String.fromUTF8? ⟨s.toUTF8.toList.toArray⟩ = some s := by
  have hlist : s.toUTF8.toList = s.toUTF8.data.toList := by
    rw [ByteArray.toList, toList_loop]
    rfl
  have hbytes : (⟨s.toUTF8.toList.toArray⟩ : ByteArray) = s.toUTF8 := by
    rw [hlist, Array.toArray_toList]
  rw [hbytes]
  exact dif_pos s.isValidUTF8

/-! ## Fields with values -/

theorem Field.ofName?_name (field : Field) : ofName? field.name = some field := by
  cases field <;> decide

theorem Given.has_empty (field : Field) : ({} : Given).has field = false := by
  cases field <;> rfl

/-- A field of the settings with a value. -/
inductive Setting where
  | seconds (x : Double)
  | split (each : Bool)
  | depth (d : Depth)
  | output (name : Option String)
  | anchor (a : Anchor)
  deriving DecidableEq

namespace Setting

/-- The field that is set. -/
def field : Setting → Field
  | seconds _ => .seconds
  | split _ => .split
  | depth _ => .depth
  | output _ => .output
  | anchor _ => .anchor

/-- Settings with the field set. -/
def apply (s : Settings) : Setting → Settings
  | seconds x => { s with seconds := x }
  | split each => { s with split := each }
  | depth d => { s with depth := d }
  | output name => { s with output := name }
  | anchor a => { s with anchor := a }

/-- What was given, with the field noted. -/
def note (g : Given) : Setting → Given
  | seconds x => { g with seconds := some x }
  | split each => { g with split := some each }
  | depth d => { g with depth := some d }
  | output name => { g with output := some name }
  | anchor a => { g with anchor := some a }

theorem settings_note (g : Given) (e : Setting) : (e.note g).settings = e.apply g.settings := by
  cases e <;> rfl

theorem has_note (g : Given) (e : Setting) (f : Field) :
    (e.note g).has f = (f = e.field || g.has f) := by
  cases e <;> cases f <;> rfl

/-- Setting a field again leaves nothing of the first time. -/
theorem apply_apply_of_field_eq (s : Settings) {e e' : Setting} (h : e.field = e'.field) :
    e'.apply (e.apply s) = e'.apply s := by
  cases e <;> cases e' <;> first | rfl | cases h

/-- Different fields are set in any order. -/
theorem apply_comm (s : Settings) {e e' : Setting} (h : e.field ≠ e'.field) :
    e'.apply (e.apply s) = e.apply (e'.apply s) := by
  cases e <;> cases e' <;> first | rfl | exact absurd rfl h

end Setting

namespace Json

/-! ## Entries -/

/-- Note an entry, unless its field was noted before. -/
def noteEntry (g : Given) : Option Setting → Except Field Given
  | none => .ok g
  | some e => if g.has e.field then .error e.field else .ok (e.note g)

/-- Note entries in order, up to the first of a field that was noted before. -/
def noteAll (g : Given) (entries : List (Option Setting)) : Except Field Given :=
  entries.foldlM noteEntry g

/-- The known ones of entries, in order. -/
def known (entries : List (Option Setting)) : List Setting := entries.filterMap id

theorem known_some (e : Setting) (entries : List (Option Setting)) :
    known (some e :: entries) = e :: known entries := rfl

theorem noteAll_some {g : Given} {e : Setting} (h : g.has e.field = false)
    (entries : List (Option Setting)) :
    noteAll g (some e :: entries) = noteAll (e.note g) entries := by
  rw [noteAll, List.foldlM_cons, noteEntry, h]
  rfl

/-- Different fields are all noted. -/
theorem noteAll_of_nodup {g : Given} {entries : List (Option Setting)}
    (hnew : ∀ e ∈ known entries, g.has e.field = false)
    (hnodup : ((known entries).map Setting.field).Nodup) :
    ∃ g', noteAll g entries = .ok g' ∧
      g'.settings = (known entries).foldl Setting.apply g.settings := by
  induction entries generalizing g with
  | nil => exact ⟨g, rfl, rfl⟩
  | cons entry entries ih =>
    rcases entry with _ | e
    · exact ih hnew hnodup
    · rw [known_some, List.map_cons, List.nodup_cons] at hnodup
      obtain ⟨hfield, hnodup⟩ := hnodup
      have hnext : ∀ e' ∈ known entries, (e.note g).has e'.field = false := by
        intro e' he'
        rw [Setting.has_note, hnew e' (List.mem_cons_of_mem _ he'), Bool.or_false,
          decide_eq_false_iff_not]
        intro heq
        exact hfield (heq ▸ List.mem_map_of_mem he')
      obtain ⟨g', hg', hsettings⟩ := ih hnext hnodup
      refine ⟨g', ?_, ?_⟩
      · rw [noteAll_some (hnew e List.mem_cons_self), hg']
      · rw [hsettings, known_some, List.foldl_cons, Setting.settings_note]

/-- The first field that is repeated is the fault. -/
theorem noteAll_of_repeated {g : Given} {entries : List (Option Setting)}
    {before after : List Setting} {e : Setting} (hknown : known entries = before ++ e :: after)
    (hnew : ∀ e' ∈ before, g.has e'.field = false) (hnodup : (before.map Setting.field).Nodup)
    (hagain : g.has e.field = true ∨ e.field ∈ before.map Setting.field) :
    noteAll g entries = .error e.field := by
  induction entries generalizing g before with
  | nil => exact absurd hknown.symm (by simp [known])
  | cons entry entries ih =>
    rcases entry with _ | first
    · exact ih hknown hnew hnodup hagain
    · rw [known_some] at hknown
      rcases before with _ | ⟨first', before⟩
      · obtain ⟨rfl, -⟩ := List.cons.inj hknown
        have hhas : g.has first.field = true := hagain.resolve_right List.not_mem_nil
        rw [noteAll, List.foldlM_cons, noteEntry, hhas]
        rfl
      · obtain ⟨rfl, hrest⟩ := List.cons.inj hknown
        rw [List.map_cons, List.nodup_cons] at hnodup
        obtain ⟨hfield, hnodup⟩ := hnodup
        rw [noteAll_some (hnew first List.mem_cons_self)]
        refine ih hrest (fun e' he' => ?_) hnodup ?_
        · rw [Setting.has_note, hnew e' (List.mem_cons_of_mem _ he'), Bool.or_false,
            decide_eq_false_iff_not]
          intro heq
          exact hfield (heq ▸ List.mem_map_of_mem he')
        · rw [Setting.has_note]
          rw [List.map_cons, List.mem_cons] at hagain
          rcases hagain with hhas | heq | hmem
          · exact .inl (by rw [hhas, Bool.or_true])
          · exact .inl (by rw [decide_eq_true heq, Bool.true_or])
          · exact .inr hmem

/-- What reading members comes to: what was noted, and the rest of the text, or a fault that
names the field that was repeated. -/
def ComesTo (outcome : Except Field Given) (rest : List Char)
    (reading : Except Fault (Given × List Char)) : Prop :=
  match outcome with
  | .ok g => reading = .ok (g, rest)
  | .error field => ∃ unread, reading = .error (.misfit (.repeatedField field.name) unread)

/-- A fault about a repeated field stays one, wherever its place is put. -/
theorem ComesTo.mapError {outcome : Except Field Given} {rest : List Char}
    {reading : Except Fault (Given × List Char)} (h : ComesTo outcome rest reading)
    (later : List Char → List Char) :
    ComesTo outcome rest (reading.mapError (·.defer later)) := by
  rcases outcome with field | g
  · obtain ⟨unread, rfl⟩ := h
    exact ⟨_, rfl⟩
  · obtain rfl : reading = .ok (g, rest) := h
    rfl

/-- The name of an anchor is read to its closing quote. -/
theorem readAnchorName_append {a : Anchor} {text : List Char} {parts : List Piece}
    (hbody : Body text parts) (hchars : Denotes parts a.name.toList) (rest : List Char) :
    readAnchorName (text ++ '\x22' :: rest) = .ok (a, rest) := by
  have hname : Anchor.ofName? a.name = some a := by cases a <;> decide
  rw [readAnchorName, readString_append hbody hchars, String.ofList_toList]
  dsimp only
  rw [hname]

/-! ## The text of a value -/

variable [NumberReading]

/-- The number that a numeral stands for, unless it is beyond every number. -/
def Numeral.number? (n : Numeral) : Option Double :=
  match n.found with
  | .ok (.unsigned value) => some (Binary.ofNat _ value)
  | .ok (.negative value) => some (-Binary.ofNat _ value)
  | .ok (.decimal x) => some x
  | _ => none

/-- The text of a value of the right kind: a numeral, a truth value, a count of bits, null or a
name, and the name of an anchor, or an object that has it as the name of null. -/
inductive ValueText : Setting → List Char → Prop
  | seconds {x : Double} {n : Numeral} {text : List Char} (numeral : NumeralText text n)
      (number : n.number? = some x) : ValueText (.seconds x) text
  | true : ValueText (.split true) "true".toList
  | false : ValueText (.split false) "false".toList
  | eight : ValueText (.depth .eight) ['8']
  | sixteen : ValueText (.depth .sixteen) ['1', '6']
  | nowhere : ValueText (.output none) "null".toList
  | file {text chars : List Char} {parts : List Piece} (body : Body text parts)
      (denotes : Denotes parts chars) :
      ValueText (.output (some (String.ofList chars))) ('\x22' :: (text ++ ['\x22']))
  | anchor {a : Anchor} {text : List Char} {parts : List Piece} (body : Body text parts)
      (denotes : Denotes parts a.name.toList) :
      ValueText (.anchor a) ('\x22' :: (text ++ ['\x22']))
  | member {a : Anchor} {first text second third fourth : List Char} {parts : List Piece}
      (hfirst : Blanks first) (body : Body text parts) (denotes : Denotes parts a.name.toList)
      (hsecond : Blanks second) (hthird : Blanks third) (hfourth : Blanks fourth) :
      ValueText (.anchor a) ('\x7b' :: (first ++ '\x22' :: (text ++ '\x22' :: (second ++
        ':' :: (third ++ ("null".toList ++ (fourth ++ ['\x7d'])))))))

variable {text rest : List Char} {e : Setting}

theorem ValueText.starts (h : ValueText e text) : Starts text := by
  cases h with
  | seconds hnumeral => exact hnumeral.starts
  | true => exact ScalarText.true.starts
  | false => exact ScalarText.false.starts
  | eight => exact starts_cons (by decide) (by decide) (by decide) _
  | sixteen => exact starts_cons (by decide) (by decide) (by decide) _
  | nowhere => exact ScalarText.null.starts
  | file => exact starts_cons (by decide) (by decide) (by decide) _
  | anchor => exact starts_cons (by decide) (by decide) (by decide) _
  | member => exact starts_cons (by decide) (by decide) (by decide) _

/-! ## Reading values -/

theorem readNumeral_append {n : Numeral} (h : NumeralText text n) (expected : Misfit.Expected)
    (hrest : Stops rest) :
    readNumeral expected (text ++ rest) = n.found.map (·, rest) := by
  have hread := numeral_append h .endsEarly hrest
  obtain ⟨c, tail, rfl, hc⟩ := h.exists_cons
  rw [readNumeral, hread]
  exact if_pos hc

theorem readNumber_append {n : Numeral} {x : Double} (h : NumeralText text n)
    (hx : n.number? = some x) (hrest : Stops rest) :
    readNumber (text ++ rest) = .ok (x, rest) := by
  rw [Numeral.number?] at hx
  rw [readNumber, readNumeral_append h .number hrest]
  split at hx
  · next hfound =>
    rw [hfound]
    exact congrArg (fun x => Except.ok (x, rest)) (Option.some.inj hx)
  · next hfound =>
    rw [hfound]
    exact congrArg (fun x => Except.ok (x, rest)) (Option.some.inj hx)
  · next hfound =>
    rw [hfound]
    exact congrArg (fun x => Except.ok (x, rest)) (Option.some.inj hx)
  · cases hx

/-- Digits that make a small number are a numeral that stands for it. -/
theorem readDepth_append {d : Depth} {run : List Char} (hrun : Digits run)
    (hlead : run.head? = some '0' → run = ['0']) (hbits : Decimal.ofDigits run = d.bits)
    (hrest : Stops rest) : readDepth (run ++ rest) = .ok (d, rest) := by
  have hnumeral : NumeralText run ⟨false, run, none, none⟩ :=
    ⟨hrun, hlead, [], [], .none, .none, by simp⟩
  have hsmall : d.bits < 256 := by cases d <;> decide
  have hfound : (⟨false, run, none, none⟩ : Numeral).found = .ok (.unsigned d.bits) := by
    have hlt : d.bits < UInt64.size := hsmall.trans (by decide)
    rw [Numeral.found]
    dsimp only
    rw [hbits, if_neg Bool.false_ne_true, if_pos hlt]
  rw [readDepth, readByte, readNumeral_append hnumeral .byte hrest, hfound]
  dsimp only [Except.map]
  rw [if_pos hsmall]
  dsimp only
  rw [Depth.ofBits?_bits]

/-- **Values.**  A value of the right kind is read to its end and noted. -/
theorem readField_append (h : ValueText e text) (g : Given) (hrest : Stops rest) :
    g.readField e.field (text ++ rest) = .ok (e.note g, rest) := by
  cases h with
  | @seconds x n _ hnumeral hx =>
    show (readNumber (text ++ rest)).map _ = _
    rw [readNumber_append hnumeral hx hrest]
    rfl
  | true =>
    show ((word "rue".toList ("rue".toList ++ rest)).map _).map _ = _
    rw [word_append]
    rfl
  | false =>
    show ((word "alse".toList ("alse".toList ++ rest)).map _).map _ = _
    rw [word_append]
    rfl
  | eight =>
    show (readDepth (['8'] ++ rest)).map _ = _
    rw [readDepth_append (d := .eight) ⟨by decide, by simp⟩ (by decide) rfl hrest]
    rfl
  | sixteen =>
    show (readDepth (['1', '6'] ++ rest)).map _ = _
    rw [readDepth_append (d := .sixteen) ⟨by decide, by simp⟩ (by decide) rfl hrest]
    rfl
  | nowhere =>
    show ((word "ull".toList ("ull".toList ++ rest)).map _).map _ = _
    rw [word_append]
    rfl
  | @file text chars parts hbody hchars =>
    have hread := readString_append hbody hchars rest
    rw [List.cons_append, List.append_assoc]
    show ((readString (text ++ '\x22' :: rest)).map _).map _ = _
    rw [hread]
    rfl
  | @anchor a text parts hbody hchars =>
    have hread := readAnchorName_append hbody hchars rest
    rw [List.cons_append, List.append_assoc]
    show (readAnchorName (text ++ '\x22' :: rest)).map _ = _
    rw [hread]
    rfl
  | @member a first text second third fourth parts hfirst hbody hchars hsecond hthird hfourth =>
    have hnull : skipBlanks (third ++ ("null".toList ++ (fourth ++ '\x7d' :: rest))) =
        "null".toList ++ (fourth ++ '\x7d' :: rest) :=
      ScalarText.null.starts.skipBlanks hthird _
    have hword : readNothing ("null".toList ++ (fourth ++ '\x7d' :: rest)) =
        .ok (fourth ++ '\x7d' :: rest) := word_append "ull".toList _
    have hmember : readAnchorMember (first ++ '\x22' :: (text ++ '\x22' :: (second ++
        ':' :: (third ++ ("null".toList ++ (fourth ++ '\x7d' :: rest)))))) = .ok (a, rest) := by
      rw [readAnchorMember, skipBlanks_append hfirst, skipBlanks_cons (by decide)]
      simp only [readAnchorName_append hbody hchars, skipColon_append hsecond, hnull, hword]
      rw [skipBlanks_append hfourth, skipBlanks_cons (by decide)]
      exact if_pos rfl
    simp only [List.cons_append, List.append_assoc, List.nil_append]
    show (readAnchorMember _).map _ = _
    rw [hmember]
    rfl

/-! ## The text of members -/

/-- The name of a member and the text of its value: a field with a value of its kind, or a name
of no field with any value that is well formed. -/
inductive EntryText : List Char → List Char → Option Setting → Prop
  | known {e : Setting} {text : List Char} (value : ValueText e text) :
      EntryText e.field.name.toList text (some e)
  | unknown {chars text : List Char} (unknown : Field.ofName? (String.ofList chars) = none)
      (value : WellFormed .value text) : EntryText chars text none

/-- The text of a member, with blanks wherever they may stand. -/
inductive MemberText : List Char → Option Setting → Prop
  | mk {before name between gap text behind chars : List Char} {parts : List Piece}
      {entry : Option Setting} (hbefore : Blanks before) (hname : Body name parts)
      (hchars : Denotes parts chars) (hbetween : Blanks between) (hgap : Blanks gap)
      (hvalue : EntryText chars text entry) (hbehind : Blanks behind) :
      MemberText (before ++ '\x22' :: (name ++ '\x22' :: (between ++
        ':' :: (gap ++ (text ++ behind))))) entry

/-- The text of members with commas between them. -/
inductive MembersText : List Char → List (Option Setting) → Prop
  | last {text : List Char} {entry : Option Setting} (member : MemberText text entry) :
      MembersText text [entry]
  | more {text others : List Char} {entry : Option Setting} {entries : List (Option Setting)}
      (member : MemberText text entry) (rest : MembersText others entries) :
      MembersText (text ++ ',' :: others) (entry :: entries)

/-- The text of settings: an object with these entries, of which the unknown ones say
nothing. -/
inductive ObjectText : List Char → List (Option Setting) → Prop
  | empty {before inside behind : List Char} (hbefore : Blanks before) (hinside : Blanks inside)
      (hbehind : Blanks behind) :
      ObjectText (before ++ '\x7b' :: (inside ++ '\x7d' :: behind)) []
  | members {before text behind : List Char} {entries : List (Option Setting)}
      (hbefore : Blanks before) (hmembers : MembersText text entries) (hbehind : Blanks behind) :
      ObjectText (before ++ '\x7b' :: (text ++ '\x7d' :: behind)) entries

/-! ## Reading members -/

/-- **Members.**  A member is read to its end, and noted if it is known. -/
theorem readMember_append {name between gap chars : List Char} {parts : List Piece}
    {entry : Option Setting} (hbody : Body name parts) (hchars : Denotes parts chars)
    (hbetween : Blanks between) (hgap : Blanks gap) (hentry : EntryText chars text entry)
    (g : Given) (hrest : Stops rest) :
    ComesTo (noteEntry g entry) rest (g.readMember (name ++ '\x22' :: (between ++
      ':' :: (gap ++ (text ++ rest))))) := by
  rw [Given.readMember, readString_append hbody hchars]
  dsimp only
  cases hentry with
  | @known e _ hvalue =>
    rw [String.ofList_toList, Field.ofName?_name]
    dsimp only
    rw [noteEntry]
    split_ifs
    · exact ⟨_, rfl⟩
    · rw [skipColon_append hbetween]
      dsimp only
      rw [hvalue.starts.skipBlanks hgap]
      exact readField_append hvalue g hrest
  | unknown hunknown hvalue =>
    rw [hunknown]
    dsimp only
    rw [skipColon_append hbetween]
    dsimp only
    rw [skip_append hvalue hgap hrest]
    rfl

/-- A member is read together with what stands behind it: a comma, and more members, or the end
of the object. -/
theorem readMembers_member {entry : Option Setting} (h : MemberText text entry) (g : Given)
    (count : Nat) {c : Char} (hc : c = ',' ∨ c = '\x7d') (rest : List Char) :
    match noteEntry g entry with
    | .ok g' => Given.readMembers (count + 1) g (skipBlanks (text ++ c :: rest)) =
        if c = '\x7d' then .ok (g', rest) else Given.readMembers count g' (skipBlanks rest)
    | .error field => ∃ unread, Given.readMembers (count + 1) g (skipBlanks (text ++ c :: rest)) =
        .error (.misfit (.repeatedField field.name) unread) := by
  have hstops : Stops (c :: rest) := by
    rcases hc with rfl | rfl
    · exact stops_comma rest
    · exact stops_closing .object rest
  have hblank : isBlank c = false := by rcases hc with rfl | rfl <;> decide
  obtain ⟨hbefore, hbody, hchars, hbetween, hgap, hentry, hbehind⟩ := h
  have hread := readMember_append hbody hchars hbetween hgap hentry g (hstops.blanks hbehind)
  simp only [List.append_assoc, List.cons_append]
  rw [skipBlanks_append hbefore, skipBlanks_cons (by decide), Given.readMembers, if_pos rfl]
  rcases hnote : noteEntry g entry with field | g'
  · rw [hnote] at hread
    obtain ⟨unread, hread⟩ := hread
    rw [hread]
    exact ⟨unread, rfl⟩
  · rw [hnote] at hread
    replace hread : g.readMember _ = .ok (g', _) := hread
    rw [hread]
    dsimp only
    rw [skipBlanks_append hbehind, skipBlanks_cons hblank]
    dsimp only
    rcases hc with rfl | rfl
    · rfl
    · rfl

/-- **Objects.**  Members are read up to the end of the object, or to the first that is
repeated. -/
theorem readMembers_append {entries : List (Option Setting)} (h : MembersText text entries)
    (g : Given) {count : Nat} (hcount : entries.length ≤ count) (rest : List Char) :
    ComesTo (noteAll g entries) rest
      (Given.readMembers count g (skipBlanks (text ++ '\x7d' :: rest))) := by
  induction h generalizing g count with
  | @last text entry hmember =>
    obtain ⟨count, rfl⟩ := Nat.exists_eq_succ_of_ne_zero (Nat.ne_of_gt hcount)
    have hread := readMembers_member hmember g count (.inr rfl) rest
    rw [noteAll, List.foldlM_cons]
    rcases hnote : noteEntry g entry with field | g'
    · rw [hnote] at hread
      exact hread
    · rw [hnote] at hread
      exact hread
  | @more text others entry entries hmember _ ih =>
    obtain ⟨count, rfl⟩ := Nat.exists_eq_succ_of_ne_zero (Nat.ne_of_gt
      (Nat.lt_of_lt_of_le (Nat.succ_pos _) hcount))
    have hread := readMembers_member hmember g count (.inl rfl) (others ++ '\x7d' :: rest)
    rw [List.append_assoc, List.cons_append, noteAll, List.foldlM_cons]
    rcases hnote : noteEntry g entry with field | g'
    · rw [hnote] at hread
      exact hread
    · rw [hnote] at hread
      replace hread : Given.readMembers (count + 1) g _ = Given.readMembers count g' _ := hread
      rw [hread]
      exact ih g' (Nat.le_of_succ_le_succ hcount)

/-! ## Reading objects -/

theorem MembersText.exists_cons {entries : List (Option Setting)} (h : MembersText text entries)
    (rest : List Char) : ∃ tail, skipBlanks (text ++ rest) = '\x22' :: tail := by
  have hmember : ∀ {text : List Char} {entry : Option Setting}, MemberText text entry →
      ∀ rest, ∃ tail, skipBlanks (text ++ rest) = '\x22' :: tail := by
    intro text entry hmember rest
    obtain ⟨hbefore, -, -, -, -, -, -⟩ := hmember
    rw [List.append_assoc, skipBlanks_append hbefore, List.cons_append,
      skipBlanks_cons (by decide)]
    exact ⟨_, rfl⟩
  cases h with
  | last h => exact hmember h rest
  | more h =>
    rw [List.append_assoc]
    exact hmember h _

/-- There are no more members than characters. -/
theorem MembersText.length_le {entries : List (Option Setting)} (h : MembersText text entries)
    (rest : List Char) : entries.length ≤ (skipBlanks (text ++ rest)).length := by
  induction h with
  | last h =>
    obtain ⟨tail, htail⟩ := (MembersText.last h).exists_cons rest
    rw [htail]
    exact Nat.succ_le_succ (Nat.zero_le _)
  | @more text others entry entries h _ ih =>
    have hless : (skipBlanks (others ++ rest)).length < (',' :: (others ++ rest)).length :=
      Nat.lt_succ_of_le (length_skipBlanks _)
    obtain ⟨hbefore, -, -, -, -, -, -⟩ := h
    simp only [List.append_assoc, List.cons_append]
    rw [skipBlanks_append hbefore, skipBlanks_cons (by decide)]
    simp only [List.length_cons, List.length_append] at ih hless ⊢
    omega

theorem readObject_append {entries : List (Option Setting)} (h : MembersText text entries)
    (rest : List Char) :
    ComesTo (noteAll {} entries) rest (Given.readObject (text ++ '\x7d' :: rest)) := by
  have hread := readMembers_append h {} (h.length_le ('\x7d' :: rest)) rest
  obtain ⟨tail, htail⟩ := h.exists_cons ('\x7d' :: rest)
  rw [htail] at hread
  rw [Given.readObject, htail]
  exact hread

/-- **Texts.**  The text of settings is read to its end, up to the first field that is
repeated. -/
theorem readWhole_object {entries : List (Option Setting)} (h : ObjectText text entries) :
    match noteAll {} entries with
    | .ok g => readWhole Given.read text = .ok g
    | .error field => ∃ unread,
        readWhole Given.read text = .error (.misfit (.repeatedField field.name) unread) := by
  obtain ⟨before, inner, behind, rfl, hbefore, hbehind, hobject⟩ :
      ∃ before inner behind, text = before ++ '\x7b' :: inner ∧ Blanks before ∧ Blanks behind ∧
        ComesTo (noteAll {} entries) behind (Given.readObject inner) := by
    cases h with
    | @empty before inside behind hbefore hinside hbehind =>
      refine ⟨before, _, behind, rfl, hbefore, hbehind, ?_⟩
      rw [Given.readObject, skipBlanks_append hinside, skipBlanks_cons (by decide)]
      rfl
    | @members before text behind _ hbefore hmembers hbehind =>
      exact ⟨before, _, behind, rfl, hbefore, hbehind, readObject_append hmembers behind⟩
  have hread := hobject.mapError Given.afterObjectEnd
  have hall : skipBlanks behind = [] := by
    have hnone := skipBlanks_append hbehind []
    rw [List.append_nil] at hnone
    exact hnone
  have hopen : Given.read ('\x7b' :: inner) =
      (Given.readObject inner).mapError (·.defer Given.afterObjectEnd) := by
    rw [Given.read, if_pos rfl]
  rw [readWhole, skipBlanks_append hbefore, skipBlanks_cons (by decide), hopen]
  rcases hnote : noteAll {} entries with field | g
  · rw [hnote] at hread
    obtain ⟨unread, hread⟩ := hread
    rw [hread]
    exact ⟨unread, rfl⟩
  · rw [hnote] at hread
    replace hread : (Given.readObject inner).mapError _ = .ok (g, behind) := hread
    rw [hread]
    exact if_pos hall

end Json

namespace Settings

variable [NumberReading] {text : List Char} {entries : List (Option Setting)}

/-- Settings are what was noted over the standard settings, if they pass their check, and a
field that is repeated is named. -/
theorem ofText_object (h : ObjectText text entries) :
    match noteAll {} entries with
    | .ok g => ofText (String.ofList text) = g.settings.check.map fun _ => g.settings
    | .error field => ∃ place, ofText (String.ofList text) =
        .error (.settings (.misfit (.repeatedField field.name) place)) := by
  have hread := readWhole_object h
  rw [ofText, String.toList_ofList]
  rcases hnote : noteAll {} entries with field | g
  · rw [hnote] at hread
    obtain ⟨unread, hread⟩ := hread
    rw [hread]
    exact ⟨_, rfl⟩
  · rw [hnote] at hread
    rw [hread]

/-- Settings are loaded by reading the text that a file holds. -/
theorem load_of_content {t : FileTree} {name text : String}
    (h : t.contentOf name = .ok text.toUTF8.toList) : load t name = ofText text := by
  rw [load, h, ofReading, ofBytes, fromUTF8?_toUTF8]

end Settings

end Peakfile
