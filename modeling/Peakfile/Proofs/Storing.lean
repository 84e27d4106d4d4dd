/-
# What is stored is found again

In a tree in which everything stands in a directory (`FileTree.Grounded`), names are walked step
by step, a file that was stored under a name is found under it (`FileTree.contentOf_store`), and
the tree stays grounded, also while directories are made (`Settings.grounded_makeRoom`).  In any
tree, what was found before is found beside a stored file (`FileTree.find_store`), and a file that
is stored twice is stored the second time (`FileTree.store_store`).
-/
import Mathlib
import Peakfile.Settings.File

namespace Peakfile

/-! ## Steps -/

namespace FileTree

variable {t t' : FileTree} {place start parent : Place} {segment : String} {entry : Entry}

theorem entry?_of_isGiven (h : place.isGiven = true) : t.entry? place = some .directory :=
  if_pos h

theorem isGiven_of_ne_directory (h : t.entry? place ≠ some .directory) :
    place.isGiven = false := by
  by_contra hgiven
  exact h (entry?_of_isGiven (Bool.not_eq_false _ ▸ hgiven))

/-- A step is only made from a directory. -/
theorem entry?_of_step (h : t.step start segment = .ok place) :
    t.entry? start = some .directory := by
  rw [step] at h
  split at h
  · cases h
  · cases h
  · assumption

/-- What a step comes to depends on where it is made from only. -/
theorem step_congr (h : t.entry? start = t'.entry? start) (segment : String) :
    t.step start segment = t'.step start segment := by
  rw [step, step, h]

/-- Places that need no entry are reached by steps. -/
theorem step_of_isGiven (h : Place.isGiven (place ++ [segment]) = true) :
    t.step place segment = .ok (place ++ [segment]) := by
  rw [Place.isGiven, Bool.or_eq_true, decide_eq_true_eq, List.all_append, Bool.and_eq_true,
    List.all_cons, List.all_nil, Bool.and_true, decide_eq_true_eq] at h
  rcases h with ⟨hplace, rfl⟩ | hroot
  · have hgiven : Place.isGiven place = true := by
      rw [Place.isGiven, hplace, Bool.true_or]
    have hne : place ≠ Place.root := by
      rintro rfl
      exact absurd hplace (by decide)
    rw [step, entry?_of_isGiven hgiven, Place.up, if_neg hne, if_pos hgiven]
    rfl
  · obtain ⟨rfl, hsegment⟩ := List.append_eq_singleton_iff.1 hroot |>.resolve_right (by simp)
    obtain rfl : segment = "/" := List.singleton_inj.1 hsegment
    rfl

/-! ## Trees without loose ends -/

/-- A tree in which everything stands in a directory, from where a step leads to it. -/
def Grounded (t : FileTree) : Prop :=
  ∀ place segment, (t.entry? (place ++ [segment])).isSome →
    t.step place segment = .ok (place ++ [segment])

theorem grounded_empty : empty.Grounded := by
  intro place segment h
  refine step_of_isGiven ?_
  unfold entry? at h
  split_ifs at h with hgiven
  · exact hgiven
  · cases h

/-- A name is walked step by step. -/
theorem Grounded.walk_eq (h : t.Grounded) (start : Place) (segments : List String) :
    t.walk start segments = segments.foldlM t.step start := by
  rw [walk]
  split_ifs with hdirectory
  · refine Eq.symm ?_
    have hsome : (t.entry? (start ++ segments)).isSome := by rw [hdirectory]; rfl
    clear hdirectory
    induction segments using List.reverseRecOn with
    | nil =>
      rw [List.append_nil]
      rfl
    | append_singleton segments segment ih =>
      rw [← List.append_assoc] at hsome
      have hstep := h _ _ hsome
      have hwalk := ih (by rw [entry?_of_step hstep]; rfl)
      rw [List.foldlM_append, hwalk]
      show (t.step (start ++ segments) segment).bind Except.ok = _
      rw [hstep, ← List.append_assoc]
      rfl
  · rfl

/-- A walk that leads somewhere still does where all directories have stayed. -/
theorem foldlM_step_of_directories
    (h : ∀ place, t.entry? place = some .directory → t'.entry? place = some .directory)
    {segments : List String} (hwalk : segments.foldlM t.step start = .ok place) :
    segments.foldlM t'.step start = .ok place := by
  induction segments generalizing start with
  | nil => exact hwalk
  | cons segment segments ih =>
    rw [List.foldlM_cons] at hwalk ⊢
    rcases hstep : t.step start segment with _ | next
    · rw [hstep] at hwalk
      cases hwalk
    · have hstart := entry?_of_step hstep
      rw [hstep] at hwalk
      rw [← step_congr (hstart.trans (h start hstart).symm), hstep]
      exact ih hwalk

/-! ## Putting entries -/

theorem lookup_filter_ne (h : start ≠ place) (entries : List (Place × Entry)) :
    (entries.filter (·.1 ≠ place)).lookup start = entries.lookup start := by
  induction entries with
  | nil => rfl
  | cons first entries ih =>
    obtain ⟨name, value⟩ := first
    by_cases hname : name = place
    · subst hname
      rw [List.filter_cons_of_neg (by simp), ih, List.lookup_cons, beq_false_of_ne h]
    · rw [List.filter_cons_of_pos (by simpa using hname), List.lookup_cons, List.lookup_cons, ih]

theorem entry?_put_of_ne (h : start ≠ place) (t : FileTree) (entry : Entry) :
    entry? (t.put place entry) start = t.entry? start := by
  unfold entry? put
  rw [List.lookup_append, lookup_filter_ne h, List.lookup_cons, beq_false_of_ne h]
  simp

theorem entry?_put_self (h : place.isGiven = false) (t : FileTree) (entry : Entry) :
    entry? (t.put place entry) place = some entry := by
  have hnone : (t.entries.filter (·.1 ≠ place)).lookup place = none := by
    rw [List.lookup_eq_none_iff]
    intro other hother
    have hne := (List.mem_filter.1 hother).2
    rw [decide_eq_true_eq] at hne
    exact bne_iff_ne.2 hne.symm
  unfold entry? put
  rw [h, if_neg Bool.false_ne_true, List.lookup_append, hnone, List.lookup_cons,
    beq_self_eq_true]
  rfl

/-- An entry that a step leads to may be put anywhere but over a directory. -/
theorem Grounded.put (h : t.Grounded) (hstep : t.step parent segment = .ok (parent ++ [segment]))
    (hfree : t.entry? (parent ++ [segment]) ≠ some .directory) (entry : Entry) :
    (t.put (parent ++ [segment]) entry).Grounded := by
  intro place name hsome
  by_cases hplace : place = parent ++ [segment]
  · -- Nothing stands below a place that is no directory.
    rw [entry?_put_of_ne (by simp [hplace])] at hsome
    exact absurd (hplace ▸ entry?_of_step (h place name hsome)) hfree
  · rw [step_congr (entry?_put_of_ne hplace t entry)]
    by_cases hname : place ++ [name] = parent ++ [segment]
    · obtain ⟨rfl, hsame⟩ := List.append_inj' hname rfl
      obtain rfl : name = segment := List.singleton_inj.1 hsame
      exact hstep
    · rw [entry?_put_of_ne hname] at hsome
      exact h place name hsome

theorem directory_put (hfree : t.entry? place ≠ some .directory) (entry : Entry) :
    ∀ other, t.entry? other = some .directory →
      entry? (t.put place entry) other = some .directory := by
  intro other hother
  rw [entry?_put_of_ne (by rintro rfl; exact hfree hother), hother]

/-! ## Storing -/

variable {name : String} {content : List UInt8}

/-- What comes after a result that there is. -/
theorem exists_of_bind {α β : Type} {first : Except StorageError α}
    {next : α → Except StorageError β} {b : β} (h : first >>= next = .ok b) :
    ∃ a, first = .ok a ∧ next a = .ok b := by
  rcases first with _ | a
  · cases h
  · exact ⟨a, rfl, h⟩

/-- A segment that leads neither nowhere nor up leads down. -/
theorem eq_append_of_step (h : t.step start segment = .ok place) (hdot : segment ≠ ".")
    (hup : segment ≠ "..") : place = start ++ [segment] := by
  rw [step, entry?_of_step h, if_neg hdot, if_neg hup] at h
  dsimp only at h
  split_ifs at h
  exact (Except.ok.inj h).symm

/-- A file is written where a step leads from a directory, and over no directory. -/
theorem exists_of_placeToWrite (h : t.placeToWrite name = .ok place) :
    checkName name = .ok () ∧ FileName.endsInSlash name = false ∧
      t.entry? place ≠ some .directory ∧ ∃ before parent segment,
        FileName.segments name = before ++ [segment] ∧
          t.walk (Place.start name) before = .ok parent ∧
            t.step parent segment = .ok place ∧ place = parent ++ [segment] := by
  obtain ⟨_, hname, h⟩ := exists_of_bind h
  rcases hlast : (FileName.segments name).getLast? with _ | segment
  · rw [hlast] at h
    cases h
  rw [hlast] at h
  obtain ⟨parent, hwalk, h⟩ := exists_of_bind h
  obtain ⟨home, hhome, h⟩ := exists_of_bind h
  obtain rfl : parent = home := by
    rw [step, entry?_of_step hhome] at hhome
    exact Except.ok.inj hhome
  split_ifs at h with hwrong
  rw [not_or, not_or, Bool.not_eq_true] at hwrong
  obtain ⟨hdot, hup, hslash⟩ := hwrong
  obtain ⟨place', hstep, h⟩ := exists_of_bind h
  split_ifs at h with hdirectory
  obtain rfl : place' = place := Except.ok.inj h
  have hsegments := List.dropLast_append_getLast? segment hlast
  exact ⟨hname, hslash, hdirectory, _, parent, segment, hsegments.symm, hwalk, hstep,
    eq_append_of_step hstep hdot hup⟩

/-- A file is found where a walk leads to it. -/
theorem find_of_walk (hname : checkName name = .ok ())
    (hwalk : t.walk (Place.start name) (FileName.segments name) = .ok place)
    (hfile : t.entry? place = some (.file content)) (hslash : FileName.endsInSlash name = false) :
    t.find name = .ok (place, .file content) := by
  rw [find, hname, hwalk]
  dsimp only [bind, Except.bind]
  rw [hfile, hslash]
  rfl

/-- **Storing.**  A file that is stored is found under its name, and no loose end comes in. -/
theorem contentOf_store (ht : t.Grounded) (h : t.store name content = .ok t') :
    t'.Grounded ∧ t'.contentOf name = .ok content := by
  rw [store] at h
  rcases hplace : t.placeToWrite name with _ | place
  · rw [hplace] at h
    cases h
  rw [hplace] at h
  obtain rfl : t.put place (.file content) = t' := Except.ok.inj h
  obtain ⟨hname, hslash, hfree, before, parent, segment, hsegments, hwalk, hstep, rfl⟩ :=
    exists_of_placeToWrite hplace
  have hground := ht.put hstep hfree (.file content)
  have hgiven := isGiven_of_ne_directory hfree
  refine ⟨hground, ?_⟩
  generalize hput : t.put (parent ++ [segment]) (.file content) = t' at hground ⊢
  have hfile : t'.entry? (parent ++ [segment]) = some (.file content) := by
    rw [← hput, entry?_put_self hgiven]
  have hkept : ∀ other, t.entry? other = some .directory → t'.entry? other = some .directory := by
    rw [← hput]
    exact directory_put hfree _
  -- The walk is the one by which the place was found.
  have hfound : t'.walk (Place.start name) (FileName.segments name) =
      .ok (parent ++ [segment]) := by
    have hparent := entry?_of_step hstep
    rw [ht.walk_eq] at hwalk
    rw [hground.walk_eq, hsegments, List.foldlM_append,
      foldlM_step_of_directories hkept hwalk]
    show (t'.step parent segment).bind Except.ok = _
    rw [← step_congr (hparent.trans (hkept parent hparent).symm), hstep]
    rfl
  rw [contentOf, find_of_walk hname hfound hfile hslash]

/-! ## Beside a stored file -/

/-- A file is put where no directory is, so no directory comes or goes. -/
theorem directory_put_iff (hfree : t.entry? place ≠ some .directory) (content : List UInt8)
    (other : Place) :
    entry? (t.put place (.file content)) other = some .directory ↔
      t.entry? other = some .directory := by
  by_cases hother : other = place
  · subst hother
    rw [entry?_put_self (isGiven_of_ne_directory hfree)]
    exact iff_of_false nofun hfree
  · rw [entry?_put_of_ne hother]

/-- A walk that leads somewhere leads there past a new file. -/
theorem walk_put (hfree : t.entry? place ≠ some .directory) (content : List UInt8)
    {segments : List String} {found : Place} (h : t.walk start segments = .ok found) :
    walk (t.put place (.file content)) start segments = .ok found := by
  have hsame := directory_put_iff hfree content (start ++ segments)
  rw [walk] at h ⊢
  by_cases hdirectory : t.entry? (start ++ segments) = some .directory
  · rw [if_pos hdirectory] at h
    rw [if_pos (hsame.2 hdirectory), h]
  · rw [if_neg hdirectory] at h
    rw [if_neg (mt hsame.1 hdirectory)]
    exact foldlM_step_of_directories (directory_put hfree _) h

/-- What is found stands at the end of a walk. -/
theorem exists_of_find {entry : Entry} (h : t.find name = .ok (place, entry)) :
    checkName name = .ok () ∧ t.walk (Place.start name) (FileName.segments name) = .ok place ∧
      t.entry? place = some entry ∧ (entry ≠ .directory → FileName.endsInSlash name = false) := by
  obtain ⟨_, hname, h⟩ := exists_of_bind h
  obtain ⟨place', hwalk, h⟩ := exists_of_bind h
  refine ⟨hname, ?_⟩
  split at h
  · cases h
  · next hentry =>
    obtain ⟨rfl, rfl⟩ := Prod.mk.inj (Except.ok.inj h)
    exact ⟨hwalk, hentry, fun hne => absurd rfl hne⟩
  · next hentry =>
    split_ifs at h with hslash
    obtain ⟨rfl, rfl⟩ := Prod.mk.inj (Except.ok.inj h)
    exact ⟨hwalk, hentry, fun _ => Bool.eq_false_iff.2 hslash⟩

/-- A directory is found where a walk leads to it. -/
theorem find_of_directory (hname : checkName name = .ok ())
    (hwalk : t.walk (Place.start name) (FileName.segments name) = .ok place)
    (hdirectory : t.entry? place = some .directory) : t.find name = .ok (place, .directory) := by
  rw [find, hname, hwalk]
  dsimp only [bind, Except.bind]
  rw [hdirectory]

/-- **Beside a stored file** the same names are found: directories as directories, and files
as files, but with what was stored if they are the same file. -/
theorem find_store {entry : Entry} {other : String} (hfind : t.find other = .ok (place, entry))
    (h : t.store name content = .ok t') :
    ∃ entry', t'.find other = .ok (place, entry') ∧
      (entry' = .directory ↔ entry = .directory) := by
  rw [store] at h
  rcases hplace : t.placeToWrite name with _ | home
  · rw [hplace] at h
    cases h
  rw [hplace] at h
  obtain rfl : t.put home (.file content) = t' := Except.ok.inj h
  obtain ⟨-, -, hfree, -⟩ := exists_of_placeToWrite hplace
  obtain ⟨hname, hwalk, hentry, hslash⟩ := exists_of_find hfind
  have hwalk' := walk_put hfree content hwalk
  rcases entry with _ | bytes
  · exact ⟨.directory, find_of_directory hname hwalk'
      ((directory_put_iff hfree content place).2 hentry), Iff.rfl⟩
  · have hfile : ∃ bytes', entry? (t.put home (.file content)) place = some (.file bytes') := by
      by_cases hsame : place = home
      · subst hsame
        exact ⟨content, entry?_put_self (isGiven_of_ne_directory hfree) t _⟩
      · exact ⟨bytes, (entry?_put_of_ne hsame t _).trans hentry⟩
    obtain ⟨bytes', hfile⟩ := hfile
    exact ⟨.file bytes', find_of_walk hname hwalk' hfile (hslash nofun),
      iff_of_false nofun nofun⟩

/-! ## Storing twice -/

theorem put_put (t : FileTree) (place : Place) (first entry : Entry) :
    put (t.put place first) place entry = t.put place entry := by
  simp [put, List.filter_append, List.filter_filter]

/-- A step down to where no directory is goes by a name, and neither nowhere nor up. -/
theorem ne_dots_of_step (h : t.step parent segment = .ok (parent ++ [segment]))
    (hfree : t.entry? (parent ++ [segment]) ≠ some .directory) :
    segment ≠ "." ∧ segment ≠ ".." := by
  have hparent := entry?_of_step h
  refine ⟨?_, ?_⟩
  · rintro rfl
    rw [step, hparent] at h
    exact absurd (congrArg List.length (Except.ok.inj h)) (by simp)
  · rintro rfl
    -- A level above is a directory wherever one is.
    refine hfree (entry?_of_isGiven ?_)
    rw [step, hparent] at h
    have hup : Place.up parent = parent ++ [".."] := Except.ok.inj h
    rw [Place.up] at hup
    split_ifs at hup with hroot hgiven
    · rw [hroot] at hup
      cases hup
    · have hne : parent ≠ Place.root := hroot
      rw [Place.isGiven, Bool.or_eq_true, decide_eq_true_eq] at hgiven ⊢
      left
      rw [List.all_append, hgiven.resolve_right hne]
      rfl
    · exact absurd (congrArg List.length hup) (by simp)

/-- A file may be written where a step leads down from a directory, and over no directory. -/
theorem placeToWrite_of_walk {before : List String} (hname : checkName name = .ok ())
    (hslash : FileName.endsInSlash name = false)
    (hsegments : FileName.segments name = before ++ [segment])
    (hwalk : t.walk (Place.start name) before = .ok parent)
    (hstep : t.step parent segment = .ok (parent ++ [segment]))
    (hfree : t.entry? (parent ++ [segment]) ≠ some .directory) :
    t.placeToWrite name = .ok (parent ++ [segment]) := by
  obtain ⟨hdot, hup⟩ := ne_dots_of_step hstep hfree
  have hhere : t.step parent "." = .ok parent := by
    rw [step, entry?_of_step hstep]
    rfl
  have hright : ¬ (segment = "." ∨ segment = ".." ∨ FileName.endsInSlash name = true) := by
    simp [hdot, hup, hslash]
  rw [placeToWrite, hname, hsegments, List.getLast?_concat, List.dropLast_concat]
  dsimp only [bind, Except.bind]
  rw [hwalk]
  dsimp only
  rw [hhere]
  dsimp only
  rw [if_neg hright, hstep]
  exact if_neg hfree

/-- **Storing twice** comes to storing the second time. -/
theorem store_store {first : List UInt8} (h : t.store name first = .ok t')
    (content : List UInt8) : t'.store name content = t.store name content := by
  rw [store] at h
  rcases hplace : t.placeToWrite name with _ | place
  · rw [hplace] at h
    cases h
  rw [hplace] at h
  obtain rfl : t.put place (.file first) = t' := Except.ok.inj h
  obtain ⟨hname, hslash, hfree, before, parent, segment, hsegments, hwalk, hstep, rfl⟩ :=
    exists_of_placeToWrite hplace
  have hparent := entry?_of_step hstep
  have hkept := directory_put_iff hfree first
  have hstep' : step (t.put (parent ++ [segment]) (.file first)) parent segment =
      .ok (parent ++ [segment]) := by
    rw [← hstep]
    exact step_congr (((hkept parent).2 hparent).trans hparent.symm) segment
  rw [store, store, hplace, placeToWrite_of_walk hname hslash hsegments
    (walk_put hfree first hwalk) hstep' (mt (hkept _).1 hfree)]
  exact congrArg Except.ok (put_put _ _ _ _)

/-! ## Making directories -/

theorem grounded_makeDirectory (ht : t.Grounded) (h : t.makeDirectory name = .ok t') :
    t'.Grounded := by
  obtain ⟨_, -, h⟩ := exists_of_bind h
  rcases hlast : (FileName.segments name).getLast? with _ | segment
  · rw [hlast] at h
    cases h
  rw [hlast] at h
  obtain ⟨parent, -, h⟩ := exists_of_bind h
  obtain ⟨place, hstep, h⟩ := exists_of_bind h
  split_ifs at h with hwrong
  rw [not_or, not_or] at hwrong
  obtain ⟨hdot, hup, hnone⟩ := hwrong
  obtain rfl : t.put place .directory = t' := Except.ok.inj h
  obtain rfl := eq_append_of_step hstep hdot hup
  refine ht.put hstep (fun hdirectory => hnone ?_) _
  rw [hdirectory]
  rfl

theorem grounded_makeDirectoriesWithin (ht : t.Grounded) {depth : Nat}
    (h : makeDirectoriesWithin depth t name = .ok t') : t'.Grounded := by
  induction depth generalizing name t' with
  | zero => exact Except.ok.inj h ▸ ht
  | succ depth ih =>
    rw [makeDirectoriesWithin] at h
    by_cases hempty : name = ""
    · rw [if_pos hempty] at h
      exact Except.ok.inj h ▸ ht
    rw [if_neg hempty] at h
    split at h
    · next made hmade => exact Except.ok.inj h ▸ grounded_makeDirectory ht hmade
    · split at h
      · cases h
      · split at h
        · cases h
        · next within hwithin =>
          have hground := ih hwithin
          split at h
          · next made hmade => exact Except.ok.inj h ▸ grounded_makeDirectory hground hmade
          · split_ifs at h
            exact Except.ok.inj h ▸ hground
    · split_ifs at h
      exact Except.ok.inj h ▸ ht

end FileTree

/-- Making room for a file brings no loose end in. -/
theorem Settings.grounded_makeRoom {t t' : FileTree} {name : String} (ht : t.Grounded)
    (h : makeRoom t name = .ok t') : t'.Grounded := by
  rw [makeRoom] at h
  split at h
  · exact Except.ok.inj h ▸ ht
  · exact FileTree.grounded_makeDirectoriesWithin ht h

end Peakfile
