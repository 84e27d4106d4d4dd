/-
# Settings in any order

What was given is laid over the standard settings.  Fields do not meddle with each other, so
every field that was given is set, every other one is standard, and the order does not matter.
So the settings that a text says are known from its fields alone, whatever else it says and
in which order, and so is the fault if a field is repeated (`Settings.load_of_object`).
-/
import Peakfile.Proofs.SettingsText

namespace Peakfile

open Json

/-! ## Settings laid over each other -/

namespace Settings

/-- The standard settings with these fields set. -/
def overlaid (given : List Setting) : Settings := given.foldl Setting.apply standard

variable {given : List Setting}

/-- A field that is not among others may be set before or after them. -/
theorem apply_foldl {e : Setting} (h : ∀ e' ∈ given, e'.field ≠ e.field) (s : Settings) :
    e.apply (given.foldl Setting.apply s) = given.foldl Setting.apply (e.apply s) := by
  induction given generalizing s with
  | nil => rfl
  | cons e' given ih =>
    rw [List.foldl_cons, List.foldl_cons, ih fun e'' he'' => h e'' (List.mem_cons_of_mem _ he''),
      Setting.apply_comm s (h e' List.mem_cons_self)]

/-- Every field that was given is set. -/
theorem apply_overlaid_of_mem (hnodup : (given.map Setting.field).Nodup) {e : Setting}
    (he : e ∈ given) : e.apply (overlaid given) = overlaid given := by
  obtain ⟨before, after, rfl⟩ := List.append_of_mem he
  have hafter : ∀ e' ∈ after, e'.field ≠ e.field := by
    intro e' he' heq
    rw [List.map_append, List.map_cons, List.nodup_append, List.nodup_cons] at hnodup
    exact hnodup.2.1.1 (heq ▸ List.mem_map_of_mem he')
  rw [overlaid, List.foldl_append, List.foldl_cons, apply_foldl hafter,
    Setting.apply_apply_of_field_eq _ rfl]

/-- Every other field is standard. -/
theorem apply_overlaid_of_not_mem {e : Setting} (he : e.field ∉ given.map Setting.field)
    (hstandard : e.apply standard = standard) : e.apply (overlaid given) = overlaid given := by
  rw [overlaid, apply_foldl fun e' he' heq => he (heq ▸ List.mem_map_of_mem he'), hstandard]

/-- The order in which different fields are set does not matter. -/
theorem overlaid_of_perm {given' : List Setting} (h : given'.Perm given)
    (hnodup : (given.map Setting.field).Nodup) : overlaid given' = overlaid given := by
  refine h.foldl_eq' (fun e he e' he' s => ?_) _
  by_cases hfield : e.field = e'.field
  · have hsame : e = e' := List.inj_on_of_nodup_map hnodup (h.subset he) (h.subset he') hfield
    rw [hsame]
  · exact Setting.apply_comm s hfield

/-- Settings pass their check if the length of a window is in range, or was not given. -/
theorem check_overlaid (hnodup : (given.map Setting.field).Nodup)
    (hrange : ∀ x, .seconds x ∈ given → shortestWindow ≤ x ∧ x ≤ longestWindow) :
    (overlaid given).check = .ok () := by
  have hstandard : shortestWindow ≤ standard.seconds ∧ standard.seconds ≤ longestWindow := by
    decide +kernel
  have hseconds : shortestWindow ≤ (overlaid given).seconds ∧
      (overlaid given).seconds ≤ longestWindow := by
    by_cases hgiven : Field.seconds ∈ given.map Setting.field
    · obtain ⟨e, he, hfield⟩ := List.mem_map.1 hgiven
      rcases e with x | _ | _ | _ | _
      · have hset := congrArg seconds (apply_overlaid_of_mem hnodup he)
        rw [← hset]
        exact hrange x he
      all_goals cases hfield
    · have hkept := apply_overlaid_of_not_mem (e := .seconds standard.seconds) hgiven rfl
      have hset := congrArg seconds hkept
      rw [← hset]
      exact hstandard
  rw [check, if_pos hseconds]

/-! ## Loading -/

/-- **Any order, and anything else.**  Settings are loaded from the text of an object, with
blanks wherever they may stand, with fields that have values of their kind, and with any other
members, whatever well-formed values of any depth these have.  However numerals are read:

* if no field is repeated and the length of a window, if given, is in range, the settings are
  the standard ones with exactly the given fields set;
* any other such text with the same fields, in any order and with any other members, comes to
  the same;
* otherwise the fault names the first field that is repeated. -/
theorem load_of_object [NumberReading] {text : List Char} {entries : List (Option Setting)}
    (h : ObjectText text entries) {t : FileTree} {name : String}
    (hfile : t.contentOf name = .ok (String.ofList text).toUTF8.toList) :
    let given := known entries
    ((given.map Setting.field).Nodup →
      ((∀ x, .seconds x ∈ given → shortestWindow ≤ x ∧ x ≤ longestWindow) →
        load t name = .ok (overlaid given)) ∧
      (∀ e ∈ given, e.apply (overlaid given) = overlaid given) ∧
      (∀ e : Setting, e.field ∉ given.map Setting.field → e.apply standard = standard →
        e.apply (overlaid given) = overlaid given) ∧
      ∀ {text' : List Char} {entries' : List (Option Setting)} {t' : FileTree} {name' : String},
        ObjectText text' entries' → (known entries').Perm given →
        t'.contentOf name' = .ok (String.ofList text').toUTF8.toList →
        load t' name' = load t name) ∧
    ∀ before e after, given = before ++ e :: after → (before.map Setting.field).Nodup →
      e.field ∈ before.map Setting.field →
      ∃ place, load t name = .error (.settings (.misfit (.repeatedField e.field.name) place)) := by
  intro given
  -- A text without a repeated field comes to the check of what was given.
  have hload : ∀ {text : List Char} {entries : List (Option Setting)} {t : FileTree}
      {name : String}, ObjectText text entries → ((known entries).map Setting.field).Nodup →
      t.contentOf name = .ok (String.ofList text).toUTF8.toList →
      load t name = (overlaid (known entries)).check.map fun _ => overlaid (known entries) := by
    intro text entries t name h hnodup hfile
    obtain ⟨g, hnote, hsettings⟩ := noteAll_of_nodup (fun e _ => Given.has_empty e.field) hnodup
    have htext := ofText_object h
    rw [hnote] at htext
    rw [load_of_content hfile, htext, hsettings]
    rfl
  refine ⟨fun hnodup => ⟨fun hrange => ?_, fun e he => apply_overlaid_of_mem hnodup he,
    fun e he hstandard => apply_overlaid_of_not_mem he hstandard, ?_⟩, ?_⟩
  · rw [hload h hnodup hfile, check_overlaid hnodup hrange]
    rfl
  · intro text' entries' t' name' h' hperm hfile'
    have hnodup' : ((known entries').map Setting.field).Nodup :=
      (hperm.map Setting.field).nodup_iff.2 hnodup
    rw [hload h hnodup hfile, hload h' hnodup' hfile', overlaid_of_perm hperm hnodup]
  · intro before e after hgiven hnodup hagain
    have hnote := noteAll_of_repeated (g := {}) hgiven (fun e' _ => Given.has_empty e'.field) hnodup
      (.inr hagain)
    have htext := ofText_object h
    rw [hnote] at htext
    rw [load_of_content hfile]
    exact htext

/-- A name with an escaped letter, one member that nobody reads with a brace and a quote inside
its value, and blanks here and there: eight bits and half a second are set. -/
theorem load_of_object_nested :
    let text := "\x7b \"x\" : [\x7b\"bits\":\"\x7d\\\"\"\x7d] ,\"b\\u0069ts\":8,\"window_secs\":5e-1\x7d"
    let half : Double := .ofBits _ 0x3fe0000000000000
    load ⟨[(["c"], .file text.toUTF8.toList)]⟩ "c" =
      .ok { standard with seconds := half, depth := .eight } := by
  intro text half
  have hnone := blanks_nil
  have hspace : Blanks [' '] := blanks_cons rfl blanks_nil
  -- The member that nobody reads.
  obtain ⟨inner, hinner, -⟩ := exists_body "bits".toList
  obtain ⟨brace, hbrace, -⟩ := exists_body "\x7d\"".toList
  have hobject := WellFormed.framed .object
    (.last (.object hnone hinner hnone) hnone (.scalar (.string hbrace)) hnone)
  have hlist := WellFormed.framed .list (.last .list hnone hobject hnone)
  obtain ⟨x, hx, hdenotes⟩ := exists_body ['x']
  have hunknown := MemberText.mk hspace hx hdenotes hspace hspace
    (.unknown (by decide) hlist) hspace
  -- The members that are known.
  have hbits : Body ['b', '\\', 'u', '0', '0', '6', '9', 't', 's']
      [.char 'b', .unit 0x69, .char 't', .char 's'] :=
    .char (by decide) (by decide) (by decide) (.unit rfl
      (.char (by decide) (by decide) (by decide) (.char (by decide) (by decide) (by decide) .nil)))
  have hdepth := MemberText.mk hnone hbits
    (show Denotes _ Field.depth.name.toList from
      .char 'b' (.unit rfl rfl (.char 't' (.char 's' .nil)))) hnone hnone
    (.known (e := .depth .eight) .eight) hnone
  obtain ⟨seconds, hseconds, hdenotes'⟩ := exists_body Field.seconds.name.toList
  have hnumeral : NumeralText ['5', 'e', '-', '1'] ⟨false, ['5'], none, some (-1)⟩ :=
    ⟨⟨by simp, by simp⟩, by simp, [], ['e', '-', '1'], .none,
      .some (c := 'e') rfl .minus ⟨by simp, by simp⟩, rfl⟩
  have hlength := MemberText.mk hnone hseconds hdenotes' hnone hnone
    (.known (e := .seconds half) (.seconds hnumeral (by decide +kernel))) hnone
  have hentries := ObjectText.members hnone (.more hunknown (.more hdepth (.last hlength))) hnone
  have hfile : (⟨[(["c"], .file text.toUTF8.toList)]⟩ : FileTree).contentOf "c" =
      .ok text.toUTF8.toList := by
    rfl
  obtain ⟨hgiven, -⟩ := load_of_object hentries hfile
  obtain ⟨hloaded, -⟩ := hgiven (by decide)
  refine hloaded fun x hx => ?_
  obtain rfl : x = half := by
    simpa [known] using hx
  decide +kernel

end Settings

end Peakfile
