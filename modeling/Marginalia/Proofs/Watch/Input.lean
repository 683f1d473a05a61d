import Marginalia.Proofs.Disk.Writing
import Marginalia.Proofs.Project.Arrangement
import Marginalia.Proofs.Watch.Firing

/-!
# Changes of what a page is built from

A page is built from the metadata of its project, from its write-up and from its
sources (`Content.IsInput`). A source is told by the suffix of its name, a watched
file by the end of it, both in any case; whatever is a source has the name of a
watched file, unless it is overlooked (`isOverlooked`): hidden files (`isHidden`) are not
watched, but they are sources. If the writing of a path starts with two separators, names
may be taken for a host and what it shares, and then no name is left for the file.

* `isWatched_text_child`: which of the files that a page is built from are watched;
* `isOverlooked_text_child`: paths that do not start like this overlook hidden files only;
* `inputs_start_timers`: a change of one starts the timer of its project, unless it
  is overlooked.
-/

namespace Marginalia

/-! ## Names of sources -/

namespace Content

variable {content : Content} {disk : Disk} {id name : Text} {files : List SourceFile}
  {file : SourceFile}

/-- The names of the files that the page of a project is built from. -/
inductive IsInput (content : Content) (disk : Disk) (id : Text) : Text → Prop
  | metadata : IsInput content disk id metadataFile
  | writeUp : IsInput content disk id writeUpFile
  | source {files : List SourceFile} {file : SourceFile} :
      content.sources disk id = .ok files → file ∈ files → IsInput content disk id file.name

/-- The name of a source ends with the suffix of a source, in any case. -/
theorem exists_suffix_of_isSource (h : isSource name) :
    ∃ suffix, suffix <:+ name ∧ Text.lower suffix ∈ sourceSuffixes :=
  ⟨_, Path.suffix_isSuffix name, List.contains_iff_mem.1 h⟩

/-- The sources are files in the directory of the project, which can be read. -/
theorem mem_of_mem_sources (h : content.sources disk id = .ok files) (hfile : file ∈ files) :
    file.name ∈ sourceNames disk (content.directory.child id) ∧
      ∃ bytes, disk.read ((content.directory.child id).child file.name) = .ok bytes := by
  obtain ⟨directory, hdirectory, -⟩ := bind_eq_ok.1 h
  obtain rfl := SameProject.directoryOf_eq_ok (hasProject_of_directoryOf hdirectory) hdirectory
  obtain ⟨hnames, hcode, -⟩ := (sources_eq_ok_iff hdirectory).1 h
  obtain ⟨bytes, hread, -⟩ := bind_eq_ok.1 (hcode file hfile)
  exact ⟨hnames ▸ List.mem_map_of_mem hfile, bytes, mapError_eq_ok.1 hread⟩

/-- The files that a page is built from have names that a path can be written with. -/
theorem IsInput.isName (h : content.IsInput disk id name) (ht : disk.IsTree) :
    Disk.IsName name ∧ name.contains '\x00' = false := by
  cases h with
  | metadata => exact ⟨isName_metadataFile, by decide⟩
  | writeUp => exact ⟨SameProject.isName_writeUpFile, by decide⟩
  | source hsources hfile =>
    obtain ⟨directory, hdirectory, -⟩ := bind_eq_ok.1 hsources
    obtain ⟨hplace, -⟩ := (hasProject_of_directoryOf hdirectory).hasDirectory
    obtain ⟨hname, bytes, hread⟩ := mem_of_mem_sources hsources hfile
    obtain ⟨hthere, -⟩ := (mem_sourceNames_iff ht hplace).1 hname
    obtain ⟨_, hbytes⟩ := Option.ne_none_iff_exists'.1 hthere
    obtain ⟨modified, hget⟩ := Disk.bytesAt_eq_some_iff.1 hbytes
    have hname := ht.isName _ _ hget _ (List.mem_append_right _ List.mem_cons_self)
    have hnull := Disk.holdsNull_of_locate (Disk.read_eq_ok_iff.1 hread).1
    rw [Path.holdsNull_child _ hname, Bool.or_eq_false_iff] at hnull
    exact ⟨hname, hnull.2⟩

end Content

namespace Watch

/-- Whether a file is hidden, taking what is before a backslash for a directory. -/
def isHidden (name : Text) : Bool :=
  (Text.splitAt '\\' name).getLast?.any (['.'].isPrefixOf ·)

/-- Whether the path to a file has no last name, or that of a hidden file. -/
def isOverlooked (path : Text) : Bool := (lastName? path).all (['.'].isPrefixOf ·)

/-- Whether a path starts with two separators, as that of something shared by a host does. -/
def isShared (path : Text) : Bool := [[], []].isPrefixOf (piecesOf path)

example : isShared "//p/x.ino".toList ∧ isOverlooked "//p/x.ino".toList ∧
    isHidden "x.ino".toList = false := by decide

variable {name piece last suffix : Text} {pieces earlier : List Text} {path : Text}

/-! ## Last names -/

/-- A name is a piece, or what follows the letter of a drive in it. -/
def IsNameIn (piece name : Text) : Prop := name = piece ∨ ∃ letter, piece = letter :: ':' :: name

theorem getLast?_withoutMark (pieces : List Text) :
    (withoutMark pieces).getLast? = pieces.getLast? := by
  rw [withoutMark.eq_def]
  split <;> simp [List.getLast?_cons_cons]

/-- Without its root, a path ends with nothing or with a name in its last piece. -/
theorem exists_getLast?_withoutRoot (h : pieces.getLast? = some piece) :
    withoutRoot pieces = [] ∨ ∃ name, (withoutRoot pieces).getLast? = some name ∧
      IsNameIn piece name := by
  rw [withoutRoot.eq_def]
  split
  · rename_i host share rest
    split
    · exact .inr ⟨piece, by simpa [List.getLast?_cons_cons] using h, .inl rfl⟩
    · cases rest with
      | nil => exact .inl rfl
      | cons first rest =>
        exact .inr ⟨piece, by simpa [List.getLast?_cons_cons] using h, .inl rfl⟩
  · rename_i letter name rest
    split
    · cases rest with
      | nil =>
        -- The letter of the drive is in the last piece.
        exact .inr ⟨name, rfl, .inr ⟨letter, (Option.some.inj h).symm⟩⟩
      | cons first rest =>
        exact .inr ⟨piece, by simpa [List.getLast?_cons_cons] using h, .inl rfl⟩
    · exact .inr ⟨piece, h, .inl rfl⟩
  · exact .inr ⟨piece, h, .inl rfl⟩

/-- The last name of a path is in its last piece. -/
theorem isNameIn_of_lastName? (h : (piecesOf path).getLast? = some piece)
    (hidle : ∀ name, IsNameIn piece name → Path.isIdle name = false)
    (hlast : lastName? path = some last) : IsNameIn piece last := by
  rw [← getLast?_withoutMark] at h
  rw [lastName?] at hlast
  rcases exists_getLast?_withoutRoot h with hnil | ⟨name, hname, hin⟩
  · rw [hnil] at hlast
    cases hlast
  · obtain ⟨before, hbefore⟩ := List.getLast?_eq_some_iff.1 hname
    rw [hbefore, List.filter_append, List.filter_singleton, hidle name hin, Bool.not_false,
      cond_true, List.getLast?_concat] at hlast
    exact Option.some.inj hlast ▸ hin

/-- A path of two pieces or more, and without two separators at its start, ends with its last
    piece. -/
theorem lastName?_of_not_isShared (h : piecesOf path = earlier ++ [piece]) (hne : earlier ≠ [])
    (hshared : isShared path = false) (hidle : Path.isIdle piece = false) :
    lastName? path = some piece := by
  obtain ⟨first, more, rfl⟩ := List.exists_cons_of_ne_nil hne
  have hnot : ∀ rest, first :: (more ++ [piece]) ≠ [] :: [] :: rest := by
    intro rest heq
    rw [isShared, h, List.cons_append, heq] at hshared
    cases hshared
  have hmark : withoutMark (first :: (more ++ [piece])) = first :: (more ++ [piece]) := by
    rw [withoutMark.eq_def]
    split
    · rename_i heq
      exact absurd heq (hnot _)
    · rename_i heq
      exact absurd heq (hnot _)
    · rfl
  obtain ⟨start, hroot⟩ : ∃ start, withoutRoot (first :: (more ++ [piece])) =
      start :: (more ++ [piece]) := by
    rw [withoutRoot.eq_def]
    split
    · rename_i heq
      exact absurd heq (hnot _)
    · rename_i heq
      obtain ⟨rfl, rfl⟩ := List.cons_eq_cons.1 heq
      split <;> exact ⟨_, rfl⟩
    · exact ⟨first, rfl⟩
  rw [lastName?, h, List.cons_append, hmark, hroot, ← List.cons_append, List.filter_append,
    List.filter_singleton, hidle, Bool.not_false, cond_true, List.getLast?_concat]

/-- The pieces of the path of a file end with those of the name of the file. -/
theorem piecesOf_text_child (p : Path) (hname : Disk.IsName name) (hne : p.parts ≠ [])
    (hlast : (Text.splitAt '\\' name).getLast? = some piece) :
    ∃ earlier, piecesOf (p.child name).text = earlier ++ [piece] ∧ earlier ≠ [] := by
  obtain ⟨pieces, hpieces, hmany⟩ := p.exists_splitAt_text_child hname hne
  obtain ⟨before, hbefore⟩ := List.getLast?_eq_some_iff.1 hlast
  refine ⟨pieces.flatMap (Text.splitAt '\\') ++ before, ?_, fun hnil => ?_⟩
  · rw [piecesOf, hpieces, List.flatMap_append, List.flatMap_singleton, hbefore, List.append_assoc]
  · obtain ⟨first, rest, rfl⟩ := List.exists_cons_of_ne_nil hmany
    rw [List.append_eq_nil_iff, List.flatMap_cons, List.append_eq_nil_iff] at hnil
    exact Text.splitAt_ne_nil _ _ hnil.1.1

/-! ## Watched names -/

/-- The suffixes of sources are watched ends of names, in small letters, and are not
    confused with the ends of the names of temporary files. -/
theorem sourceSuffixes_spec : ∀ suffix ∈ Content.sourceSuffixes, suffix ∈ watchedEnds ∧
    ('\\' ∉ suffix ∧ ':' ∉ suffix) ∧ ('ς' ∉ suffix ∧ 'σ' ∉ suffix) ∧
      ∀ ignored ∈ ignoredEnds, ¬ignored <:+ suffix ∧ ¬suffix <:+ ignored := by
  decide

/-- The suffix of a source has no character that ends a name. -/
theorem not_mem_of_lower_mem (h : Text.lower suffix ∈ Content.sourceSuffixes) :
    '\\' ∉ suffix ∧ ':' ∉ suffix := by
  obtain ⟨-, ⟨hbackslash, hcolon⟩, -⟩ := sourceSuffixes_spec _ h
  constructor
  · intro hmem
    obtain ⟨before, after, hsub⟩ := Text.exists_lowerWithin_subset [] hmem
    exact hbackslash (hsub List.mem_cons_self)
  · intro hmem
    obtain ⟨before, after, hsub⟩ := Text.exists_lowerWithin_subset [] hmem
    exact hcolon (hsub List.mem_cons_self)

theorem isWatchedName_lower (hsuffix : suffix <:+ piece)
    (hsource : Text.lower suffix ∈ Content.sourceSuffixes) :
    isWatchedName (Text.lower piece) = !List.isPrefixOf ['.'] piece := by
  obtain ⟨hend, _, hsigma, hignored⟩ := sourceSuffixes_spec _ hsource
  have hmem : 'Σ' ∉ suffix := by
    intro hmem
    obtain ⟨before, after, hsub⟩ := Text.exists_lowerWithin_subset [] hmem
    rw [Text.lowerWithin, if_pos rfl] at hsub
    split at hsub
    · exact hsigma.1 (hsub List.mem_cons_self)
    · exact hsigma.2 (hsub List.mem_cons_self)
  have hlower := Text.lower_suffix hmem hsuffix
  have hwatched : watchedEnds.any (·.isSuffixOf (Text.lower piece)) = true :=
    List.any_eq_true.2 ⟨_, hend, List.isSuffixOf_iff_suffix.2 hlower⟩
  have hkept : ignoredEnds.any (·.isSuffixOf (Text.lower piece)) = false := by
    refine List.any_eq_false.2 fun ignored hmem hends => ?_
    obtain ⟨hnot, hnot'⟩ := hignored ignored hmem
    rcases List.suffix_or_suffix_of_suffix (List.isSuffixOf_iff_suffix.1 hends) hlower with h | h
    · exact hnot h
    · exact hnot' h
  rw [isWatchedName, hwatched, hkept, Text.isPrefixOf_point_lower, Bool.or_true, Bool.true_and,
    Bool.false_or]

/-- Each name in the last piece of a name leads to a file, which is watched unless it is
    hidden. -/
def IsLookedAt (piece : Text) : Prop :=
  ∀ name, IsNameIn piece name → Path.isIdle name = false ∧
    isWatchedName (Text.lower name) = !List.isPrefixOf ['.'] name

/-- A piece without the letter of a drive has one name in it. -/
theorem isLookedAt_of_not_mem (h : ':' ∉ piece) (hidle : Path.isIdle piece = false)
    (hwatched : isWatchedName (Text.lower piece) = !List.isPrefixOf ['.'] piece) :
    IsLookedAt piece := by
  rintro name (rfl | ⟨letter, rfl⟩)
  · exact ⟨hidle, hwatched⟩
  · exact absurd (List.mem_cons_of_mem _ List.mem_cons_self) h

/-- What follows the last backslash in the name of a source is that of a source, also without
    the letter of a drive. -/
theorem exists_last_piece_of_isSource (h : Content.isSource name) :
    ∃ piece, (Text.splitAt '\\' name).getLast? = some piece ∧ IsLookedAt piece := by
  obtain ⟨suffix, hsuffix, hsource⟩ := Content.exists_suffix_of_isSource h
  obtain ⟨hbackslash, hcolon⟩ := not_mem_of_lower_mem hsource
  obtain ⟨piece, hlast, hpiece⟩ := Text.exists_last_piece hsuffix hbackslash
  refine ⟨piece, hlast, fun name hname => ?_⟩
  have hends : suffix <:+ name := by
    rcases hname with rfl | ⟨letter, rfl⟩
    · exact hpiece
    · -- The suffix ends before the colon.
      rcases List.suffix_cons_iff.1 hpiece with rfl | hpiece
      · exact absurd (List.mem_cons_of_mem _ List.mem_cons_self) hcolon
      rcases List.suffix_cons_iff.1 hpiece with rfl | hpiece
      · exact absurd List.mem_cons_self hcolon
      · exact hpiece
  refine ⟨?_, isWatchedName_lower hends hsource⟩
  rw [Path.isIdle, Bool.or_eq_false_iff, beq_eq_false_iff_ne, beq_eq_false_iff_ne]
  constructor
  · rintro rfl
    obtain rfl := List.suffix_nil.1 hends
    exact absurd hsource (by decide)
  · rintro rfl
    rcases List.suffix_cons_iff.1 hends with rfl | hends
    · exact absurd hsource (by decide)
    · obtain rfl := List.suffix_nil.1 hends
      exact absurd hsource (by decide)

variable {content : Content} {disk : Disk} {id : Text} {directory : Path}

theorem exists_last_piece_of_isInput (h : content.IsInput disk id name) :
    ∃ piece, (Text.splitAt '\\' name).getLast? = some piece ∧ IsLookedAt piece := by
  cases h with
  | metadata =>
    exact ⟨Content.metadataFile, by decide,
      isLookedAt_of_not_mem (by decide) (by decide) (by decide)⟩
  | writeUp =>
    exact ⟨Content.writeUpFile, by decide,
      isLookedAt_of_not_mem (by decide) (by decide) (by decide)⟩
  | source hsources hfile =>
    obtain ⟨directory, hdirectory, -⟩ := bind_eq_ok.1 hsources
    obtain ⟨hname, -⟩ := Content.mem_of_mem_sources hsources hfile
    rw [Content.sourceNames, (List.mergeSort_perm _ _).mem_iff, List.mem_map] at hname
    obtain ⟨entry, hentry, hname⟩ := hname
    obtain ⟨-, hsource⟩ := Bool.and_eq_true_iff.1 (List.mem_filter.1 hentry).2
    exact exists_last_piece_of_isSource (hname ▸ hsource)

/-- A file that a page is built from is watched unless it is overlooked. -/
theorem isWatched_text_child (p : Path) (hname : Disk.IsName name) (hne : p.parts ≠ [])
    (h : content.IsInput disk id name) :
    isWatched (p.child name).text = !isOverlooked (p.child name).text := by
  obtain ⟨piece, hpiece, hlooked⟩ := exists_last_piece_of_isInput h
  obtain ⟨earlier, hpieces, -⟩ := piecesOf_text_child p hname hne hpiece
  rw [isWatched, isOverlooked]
  cases hlast : lastName? (p.child name).text with
  | none => rfl
  | some last =>
    have hend : (piecesOf (p.child name).text).getLast? = some piece := by
      rw [hpieces, List.getLast?_concat]
    have hin := isNameIn_of_lastName? hend (fun name hname => (hlooked name hname).1) hlast
    exact (hlooked last hin).2

/-- Of paths that do not start with two separators only those to hidden files are
    overlooked. -/
theorem isOverlooked_text_child (p : Path) (hname : Disk.IsName name) (hne : p.parts ≠ [])
    (h : content.IsInput disk id name) (hshared : isShared (p.child name).text = false) :
    isOverlooked (p.child name).text = isHidden name := by
  obtain ⟨piece, hpiece, hlooked⟩ := exists_last_piece_of_isInput h
  obtain ⟨earlier, hpieces, hmany⟩ := piecesOf_text_child p hname hne hpiece
  rw [isOverlooked, lastName?_of_not_isShared hpieces hmany hshared (hlooked piece (.inl rfl)).1,
    isHidden, hpiece]
  rfl

/-- A file in the directory of a project belongs to the project. -/
theorem projectOf?_text_child (hproject : content.HasProject disk id) (hname : Disk.IsName name)
    (hnull : name.contains '\x00' = false) :
    projectOf? disk content.directory
      (.ofText ((content.directory.child id).child name).text) = some id := by
  have hid := hproject.isName
  have hdirectory := Disk.holdsNull_of_locate hproject.hasDirectory.1
  have hcontent := hdirectory
  rw [Path.holdsNull_child _ hid, Bool.or_eq_false_iff] at hcontent
  have hne := Path.parts_child_ne_nil (content.directory.child id) hname
  have hholds : (Path.ofText ((content.directory.child id).child name).text).holdsNull = false := by
    rw [Path.holdsNull, Path.parts_ofText_text hne, ← Path.holdsNull, Path.holdsNull_child _ hname,
      hdirectory, hnull]
    rfl
  rw [projectOf?, hcontent.1, hholds, Disk.resolve_ofText_text _ hne,
    Content.SameProject.resolve_child hproject hname, Content.locationOf, List.append_assoc]
  have hinside := List.isPrefixOf?_eq_some_iff_append_eq.2
    (rfl : disk.resolve content.directory ++ ([id] ++ [name]) = _)
  rw [Bool.or_self, if_neg Bool.false_ne_true, projectAt?, hinside]
  rfl

/-- A change of a file that a page is built from concerns the project of the page, unless
    the file is overlooked. -/
theorem project?_text_child {change : Change} (ht : disk.IsTree)
    (hproject : content.HasProject disk id) (h : content.IsInput disk id name)
    (hchange : change = .created ∨ change = .modified) :
    Event.project? disk content.directory
      ⟨change, ((content.directory.child id).child name).text, none, false⟩ =
        if isOverlooked ((content.directory.child id).child name).text then none else some id := by
  obtain ⟨hname, hnull⟩ := h.isName ht
  have hwatched := isWatched_text_child (content.directory.child id) hname
    (Path.parts_child_ne_nil _ hproject.isName) h
  cases hover : isOverlooked ((content.directory.child id).child name).text with
  | true =>
    rw [Event.project?, Event.isWatched, hwatched, hover]
    rfl
  | false =>
    refine Event.project?_eq_some_iff.2 ⟨hchange, rfl, ?_, ?_⟩
    · rw [Event.isWatched, hwatched, hover]
      rfl
    · exact projectOf?_text_child hproject hname hnull

/-- A change of a file that the page of a project is built from starts the timer of the
    project anew, unless the file is overlooked; then it does nothing. If the path of the file
    does not start with two separators, it is overlooked only if it is hidden. -/
theorem inputs_start_timers {change : Change} (ht : disk.IsTree)
    (hdirectory : content.directoryOf disk id = .ok directory)
    (h : content.IsInput disk id name) (hchange : change = .created ∨ change = .modified)
    (d : Debounce) (delay : Int) :
    d.meet content.directory delay
        (.event disk ⟨change, (directory.child name).text, none, false⟩) =
      ([], if isOverlooked (directory.child name).text then d else d.touch delay id) ∧
    (isShared (directory.child name).text = false →
      isOverlooked (directory.child name).text = isHidden name) := by
  have hproject := Content.hasProject_of_directoryOf hdirectory
  obtain rfl := Content.SameProject.directoryOf_eq_ok hproject hdirectory
  refine ⟨?_, isOverlooked_text_child _ (h.isName ht).1
    (Path.parts_child_ne_nil _ hproject.isName) h⟩
  rw [Debounce.meet, project?_text_child ht hproject h hchange]
  cases isOverlooked ((content.directory.child id).child name).text <;> rfl

/-! ## Single sources -/

/-- The one source of a project. Sorting is by well-founded recursion, so for a single disk
    it is not evaluated. -/
theorem isInput_of_source (code : Text) (hdirectory : content.directoryOf disk id = .ok directory)
    (hnames : ((disk.children directory).filter fun (name, entry) =>
      entry.isFile && Content.isSource name).map (·.1) = [name])
    (hcode : ((disk.read (directory.child name)).mapError .disk >>= content.decode) = .ok code) :
    content.IsInput disk id name := by
  have hsources : content.sources disk id = .ok [⟨name, code, true⟩] := by
    rw [Content.sources, hdirectory, ok_bind]
    dsimp only
    rw [Content.sourceNames, hnames, List.mergeSort_singleton, List.mapM_cons, List.mapM_nil, hcode]
    rfl
  exact .source hsources List.mem_cons_self

/-- Content in `/content`, whose files are taken for nothing if they are not in UTF-8. -/
def sampleContent : Content := ⟨.ofText "/content".toList, fun _ => none⟩

/-- The directory of a project in it. -/
def sampleDirectory : Path := sampleContent.directory.child "p".toList

/-- A disk with the project, which has a single source, of that name. -/
def diskWith (name : String) : Disk :=
  .ofFiles [("/content/p/project.json", "\x7b\"name\": \"P\"\x7d"),
    ("/content/p/" ++ name, "int a;\n")]

/-- A change of a source starts no timer if its name starts with a point. -/
theorem hidden_source_starts_no_timer :
    sampleContent.directoryOf (diskWith ".a.ino") "p".toList = .ok sampleDirectory ∧
      sampleContent.IsInput (diskWith ".a.ino") "p".toList ".a.ino".toList ∧
      Debounce.meet {} sampleContent.directory 500 (.event (diskWith ".a.ino")
        ⟨.modified, (sampleDirectory.child ".a.ino".toList).text, none, false⟩) = ([], {}) :=
  have hdirectory : sampleContent.directoryOf (diskWith ".a.ino") "p".toList =
      .ok sampleDirectory := toOption_eq_some.1 (by decide +kernel)
  ⟨hdirectory, isInput_of_source "int a;\n".toList hdirectory (by decide +kernel)
    (toOption_eq_some.1 (by decide +kernel)), by decide +kernel⟩

/-- A source in capitals, with what would be the name of a hidden directory in its name. -/
theorem inputs_start_timers_capitals :
    Debounce.meet ⟨7, [⟨"p".toList, 300⟩, ⟨"q".toList, 400⟩]⟩ sampleContent.directory 500
        (.event (diskWith ".a\\b.INO")
          ⟨.created, (sampleDirectory.child ".a\\b.INO".toList).text, none, false⟩) =
      ([], ⟨7, [⟨"q".toList, 400⟩, ⟨"p".toList, 507⟩]⟩) :=
  have hdirectory : sampleContent.directoryOf (diskWith ".a\\b.INO") "p".toList =
      .ok sampleDirectory := toOption_eq_some.1 (by decide +kernel)
  have hinput : sampleContent.IsInput (diskWith ".a\\b.INO") "p".toList ".a\\b.INO".toList :=
    isInput_of_source "int a;\n".toList hdirectory (by decide +kernel)
      (toOption_eq_some.1 (by decide +kernel))
  (inputs_start_timers (by decide +kernel) hdirectory hinput (.inl rfl) _ _).1

end Watch

end Marginalia
