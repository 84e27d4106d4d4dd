/-
# Settings that are saved are loaded again

Settings are written as an object with a line for each field, whose texts are values of their
kind: a name with its quotes, backslashes and controls escaped, and the length of a window in the
shortest digits that round back to it.  So reading the text notes every field as it was
(`Settings.objectText_write`), and settings that pass their check are loaded as they were saved,
if numerals are read as the numbers nearest to them (`Settings.load_of_save`).  The scaled reading
does so where the numeral is short (`Settings.ofText_write_of_short`).
-/
import Peakfile.Proofs.ScaledReading
import Peakfile.Proofs.SettingsText
import Peakfile.Proofs.Storing

namespace Peakfile

open Json

namespace Json

/-! ## Reading numbers that were written -/

section
variable [NumberReading]

/-- A way of reading that takes the number nearest to a numeral, where there is one. -/
def ReadsNearest : Prop :=
  ∀ (n : Numeral) (x : Double), n.nearest? = some x → NumberReading.double? n = some x

/-- A number is written as a numeral that is read as this number. -/
def ReadsBack (x : Double) : Prop :=
  ∃ n, NumeralText (x.text .data).toList n ∧ n.IsDecimal ∧ NumberReading.double? n = some x

theorem ReadsNearest.readsBack (h : ReadsNearest) {x : Double}
    (hx : x.magnitude < BinaryFormat.double.infinity) : ReadsBack x := by
  obtain ⟨n, htext, hdecimal, hnearest⟩ := Binary.exists_numeralText hx .data
  exact ⟨n, htext, hdecimal rfl, h n x hnearest⟩

theorem Numeral.number?_of_isDecimal {n : Numeral} {x : Double} (h : n.IsDecimal)
    (hx : NumberReading.double? n = some x) : n.number? = some x := by
  have hdouble : n.toDouble = .ok x := by rw [toDouble, hx]
  have hfound : n.found = .ok (.decimal x) := by
    rw [found, hdouble]
    split
    · next hfraction hexponent => exact absurd h (by simp [IsDecimal, hfraction, hexponent])
    · rfl
  rw [number?, hfound]

/-- A finite number is written as the text of a value. -/
theorem ReadsBack.valueText {x : Double} (h : ReadsBack x)
    (hx : x.magnitude < BinaryFormat.double.infinity) :
    ValueText (.seconds x) (Scalar.number x).write.toList := by
  obtain ⟨n, htext, hdecimal, hread⟩ := h
  have hnan : x.isNaN = false := decide_eq_false hx.not_gt
  have hfinite : x.isInfinite = false := decide_eq_false hx.ne
  have hwrite : (Scalar.number x).write = x.text .data := by
    rw [Scalar.write, hnan, hfinite]
    rfl
  rw [hwrite]
  exact .seconds htext (n.number?_of_isDecimal hdecimal hread)

end

/-- The scaled reading takes the nearest number where the numeral is short. -/
theorem readsBack_of_short {x : Double} (hx : x.magnitude < BinaryFormat.double.infinity)
    {n : Numeral} (htext : NumeralText (x.text .data).toList n) (hshort : n.Short) :
    ReadsBack x := by
  obtain ⟨n', htext', hdecimal, hnearest⟩ := Binary.exists_numeralText hx .data
  obtain rfl : n = n' := htext.unique htext'
  exact ⟨n, htext, hdecimal rfl, (n.scaled?_eq_nearest? hshort).trans hnearest⟩

/-! ## Lines of a record -/

theorem toList_quote (s : String) :
    (quote s).toList = '\x22' :: (s.toList.flatMap escape ++ ['\x22']) := by
  rw [quote, String.toList_ofList]
  rfl

variable [NumberReading]

/-- A member of a record is written as an entry. -/
def WrittenAs (m : String × Scalar) (entry : Option Setting) : Prop :=
  EntryText m.1.toList m.2.write.toList entry

/-- The line of a member. -/
theorem memberText_line {m : String × Scalar} {entry : Option Setting} (h : WrittenAs m entry)
    {behind : List Char} (hbehind : Blanks behind) :
    MemberText ('\n' :: ("  " ++ quote m.1 ++ ": " ++ m.2.write).toList ++ behind) entry := by
  obtain ⟨parts, hbody, hchars⟩ := exists_body m.1.toList
  have hspace : Blanks [' '] := blanks_cons rfl blanks_nil
  have hbefore : Blanks ['\n', ' ', ' '] := blanks_cons rfl (blanks_cons rfl hspace)
  have hmember := MemberText.mk hbefore hbody hchars blanks_nil hspace h hbehind
  simp only [String.toList_append, toList_quote]
  simpa using hmember

/-- Lines that are written, with commas between them. -/
theorem membersText_lines {members : List (String × Scalar)} {entries : List (Option Setting)}
    (hne : members ≠ [])
    (h : List.Forall₂ WrittenAs members entries) :
    MembersText ('\n' :: (",\n".intercalate
      (members.map fun m => "  " ++ quote m.1 ++ ": " ++ m.2.write)).toList ++ ['\n']) entries := by
  have hend : Blanks ['\n'] := blanks_cons rfl blanks_nil
  induction h with
  | nil => exact absurd rfl hne
  | @cons m entry members entries hfirst hrest ih =>
    rcases members with _ | ⟨m', members⟩
    · cases hrest
      have hline := memberText_line hfirst hend
      rw [List.map_cons, List.map_nil, String.toList_intercalate]
      exact .last (by simpa using hline)
    · have hlines := ih (List.cons_ne_nil _ _)
      have hline := memberText_line hfirst blanks_nil
      have hall := MembersText.more hline hlines
      rw [List.map_cons, List.map_cons, String.intercalate_cons_cons]
      rw [List.map_cons] at hall
      simpa using hall

/-- **Records.**  A record that is written is the text of an object with its entries. -/
theorem objectText_writeLines {members : List (String × Scalar)}
    {entries : List (Option Setting)} (hne : members ≠ [])
    (h : List.Forall₂ WrittenAs members entries) :
    ObjectText (writeLines members).toList entries := by
  have hobject := ObjectText.members blanks_nil (membersText_lines hne h) blanks_nil
  rw [writeLines]
  simpa using hobject

end Json

namespace Settings

variable {s : Settings}

/-- The fields of settings with their values, in the order in which they are written. -/
def given (s : Settings) : List Setting :=
  [.seconds s.seconds, .split s.split, .depth s.depth, .output s.output, .anchor s.anchor]

/-- A window length that passes the check is finite. -/
theorem magnitude_lt_of_check (h : s.check = .ok ()) :
    s.seconds.magnitude < BinaryFormat.double.infinity := by
  obtain ⟨hnan, hfinite, -, -⟩ := (check_eq_ok_iff.1 h).positive
  exact lt_of_le_of_ne (Binary.magnitude_le hnan) (of_decide_eq_false hfinite)

section
variable [NumberReading]

theorem valueText_output (output : Option String) :
    ValueText (.output output) (output.elim .null .text : Scalar).write.toList := by
  rcases output with _ | name
  · exact .nowhere
  · obtain ⟨parts, hbody, hchars⟩ := exists_body name.toList
    have hvalue := ValueText.file hbody hchars
    rw [String.ofList_toList] at hvalue
    show ValueText _ (quote name).toList
    rw [toList_quote]
    exact hvalue

theorem valueText_anchor (a : Anchor) :
    ValueText (.anchor a) (Scalar.text a.name).write.toList := by
  obtain ⟨parts, hbody, hchars⟩ := exists_body a.name.toList
  show ValueText _ (quote a.name).toList
  rw [toList_quote]
  exact .anchor hbody hchars

/-- **Settings that are written** are the text of an object with every field as it is. -/
theorem objectText_write (hreading : ReadsBack s.seconds) (h : s.check = .ok ()) :
    ObjectText s.write.toList (s.given.map some) := by
  have hseconds := hreading.valueText (magnitude_lt_of_check h)
  have hsplit : ValueText (.split s.split) (Scalar.boolean s.split).write.toList := by
    rcases s.split with _ | _
    · exact .false
    · exact .true
  have hdepth : ValueText (.depth s.depth) (Scalar.whole s.depth.bits).write.toList := by
    rcases s.depth with _ | _
    · exact .eight
    · exact .sixteen
  exact objectText_writeLines (List.cons_ne_nil _ _)
    (.cons (.known hseconds) (.cons (.known hsplit) (.cons (.known hdepth)
      (.cons (.known (valueText_output s.output)) (.cons (.known (valueText_anchor s.anchor))
        .nil)))))

/-- The text of settings that pass their check is read as these settings. -/
theorem ofText_write (hreading : ReadsBack s.seconds) (h : s.check = .ok ()) :
    ofText s.write = .ok s := by
  have hknown : known (s.given.map some) = s.given := rfl
  have hfields : ((known (s.given.map some)).map Setting.field).Nodup := by
    show Field.all.Nodup
    decide
  obtain ⟨g, hnote, hsettings⟩ := noteAll_of_nodup (fun e _ => Given.has_empty e.field) hfields
  have hall : g.settings = s := by rw [hsettings, hknown]; rfl
  have htext := ofText_object (objectText_write hreading h)
  rw [hnote, String.ofList_toList] at htext
  rw [htext, hall, h]
  rfl

/-- **Saving and loading.**  Settings that pass their check are loaded as they were saved, bit for
bit, whatever the name of their file, wherever the text that was saved is found.  In a tree
without loose ends it is found where it was saved. -/
theorem load_of_save (hreading : ReadsNearest) (h : s.check = .ok ()) :
    (∀ {t : FileTree} {name : String}, t.contentOf name = .ok s.write.toUTF8.toList →
      load t name = .ok s) ∧
    ∀ {t t' : FileTree} {name : String}, t.Grounded → s.save t name = .ok t' →
      t'.contentOf name = .ok s.write.toUTF8.toList ∧ load t' name = .ok s := by
  have hload : ∀ {t : FileTree} {name : String}, t.contentOf name = .ok s.write.toUTF8.toList →
      load t name = .ok s := by
    intro t name hfile
    rw [load_of_content hfile, ofText_write (hreading.readsBack (magnitude_lt_of_check h)) h]
  refine ⟨hload, ?_⟩
  intro t t' name ht hsave
  rw [save] at hsave
  split at hsave
  · cases hsave
  · next made hmade =>
    split at hsave
    · cases hsave
    · next stored hstored =>
      obtain rfl : stored = t' := Except.ok.inj hsave
      obtain ⟨-, hfile⟩ := FileTree.contentOf_store (grounded_makeRoom ht hmade) hstored
      exact ⟨hfile, hload hfile⟩

end

/-- A tenth of a second and a name with a quote, a backslash, a control and a letter that is not
ASCII, saved to a directory that has to be made, by the reading that takes the nearest number. -/
theorem load_of_save_nested :
    let reading : NumberReading := ⟨Numeral.nearest?⟩
    let tenth : Double := .ofBits _ 0x3fb999999999999a
    let s : Settings := ⟨tenth, true, .eight, some "a\"b\\c\x01é.dat", .zero⟩
    ∃ t, s.save .empty "nested/c.json" = .ok t ∧ @load reading t "nested/c.json" = .ok s := by
  intro reading tenth s
  have hcheck : s.check = .ok () := by
    have hrange : shortestWindow ≤ tenth ∧ tenth ≤ longestWindow := by decide +kernel
    exact if_pos hrange
  have hreading : @ReadsNearest reading := fun _ _ h => h
  have hsave : ∀ s : Settings, s.save .empty "nested/c.json" = .ok
      ⟨[(["nested"], .directory), (["nested", "c.json"], .file s.write.toUTF8.toList)]⟩ :=
    fun _ => rfl
  obtain ⟨-, hloaded⟩ := @load_of_save s reading hreading hcheck
  exact ⟨_, hsave s, (hloaded FileTree.grounded_empty (hsave s)).2⟩

/-- Settings whose window length is written as a short numeral are loaded as they were saved by
the scaled reading too. -/
theorem ofText_write_of_short (h : s.check = .ok ()) {n : Numeral}
    (htext : NumeralText (s.seconds.text .data).toList n) (hshort : n.Short) :
    ofText s.write = .ok s :=
  ofText_write (readsBack_of_short (magnitude_lt_of_check h) htext hshort) h

end Settings

end Peakfile
