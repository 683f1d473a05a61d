import Mathlib.Data.Set.Insert
import Marginalia.Proofs.Disk.Tree

/-!
# Changes of a disk

What is written to a disk changes the files at some locations (`Changes`):
directories may be made, and none is lost, so a path that leads somewhere goes on
leading there (`Changes.locate`). Making directories changes no file
(`makeDirectories_changes`), writing and deleting a file changes the one that the
path leads to (`Written`, `Deleted`), and a tree stays a tree. All of it can be done
where nothing is in the way: no file in place of a directory
(`exists_makeDirectories_child`), and no directory in place of a file (`exists_write`,
`exists_delete`). A disk that lists its entries in another order is not changed at all
(`IsRelisted.changes`).
-/

namespace Marginalia.Disk

/-- A change of the files at some locations. Directories may be made anywhere, and
    none is lost. -/
structure Changes (files : Set Location) (before after : Disk) : Prop where
  working : after.working = before.working
  directory : ∀ l, before.get? l = some .directory → after.get? l = some .directory
  file : ∀ l ∉ files, ∀ content modified, after.get? l = some (.file content modified) ↔
    before.get? l = some (.file content modified)

variable {d d' d'' : Disk} {p : Path} {l l' : Location} {names : List Text} {content : ByteArray}
  {files more : Set Location}

namespace Changes

theorem refl (files : Set Location) (d : Disk) : Changes files d d :=
  ⟨rfl, fun _ h => h, fun _ _ _ _ => .rfl⟩

theorem trans (h : Changes files d d') (h' : Changes files d' d'') : Changes files d d'' :=
  ⟨h'.working.trans h.working, fun l hl => h'.directory l (h.directory l hl),
    fun l hl content modified => (h'.file l hl content modified).trans (h.file l hl content modified)⟩

theorem mono (h : Changes files d d') (hsub : files ⊆ more) : Changes more d d' :=
  ⟨h.working, h.directory, fun l hl => h.file l fun hmem => hl (hsub hmem)⟩

theorem startOf (h : Changes files d d') (p : Path) : d'.startOf p = d.startOf p := by
  rw [Disk.startOf, Disk.startOf, h.working]

theorem resolve (h : Changes files d d') (p : Path) : d'.resolve p = d.resolve p :=
  resolve_congr h.working p

theorem walk (h : Changes files d d') (hwalk : d.walk l names = .ok l') :
    d'.walk l names = .ok l' := by
  induction names generalizing l with
  | nil => exact hwalk
  | cons name rest ih =>
    have hl := h.directory l (directory_of_walk_cons hwalk)
    rw [Disk.walk, directory_of_walk_cons hwalk] at hwalk
    rw [Disk.walk, hl]
    dsimp only at hwalk ⊢
    split at hwalk
    · cases hwalk
    · rename_i hlimit
      rw [if_neg hlimit]
      exact ih hwalk

/-- A path that leads to a location goes on leading there. -/
theorem locate (h : Changes files d d') (hp : d.locate p = .ok l) : d'.locate p = .ok l := by
  rw [locate_eq_ok_iff] at hp ⊢
  exact ⟨hp.1, h.startOf p ▸ h.walk hp.2⟩

theorem hasDirectory (h : Changes files d d') (hp : d.HasDirectory p) : d'.HasDirectory p := by
  rw [HasDirectory, h.resolve]
  exact ⟨h.locate hp.1, h.directory _ hp.2⟩

theorem bytesAt (h : Changes files d d') (hl : l ∉ files) : d'.bytesAt l = d.bytesAt l := by
  refine Option.ext fun content => ?_
  rw [bytesAt_eq_some_iff, bytesAt_eq_some_iff]
  exact exists_congr fun modified => h.file l hl content modified

end Changes

/-- The directories below a path are nested as deeply on a disk with the same entries there. -/
theorem depthBelow_congr (ht : d.IsTree) (ht' : d'.IsTree) (hp : d.HasDirectory p)
    (hp' : d'.HasDirectory p) (hresolve : d'.resolve p = d.resolve p)
    (hget : ∀ names, d'.get? (d.resolve p ++ names) = d.get? (d.resolve p ++ names)) :
    d'.depthBelow p = d.depthBelow p := by
  refine eq_of_forall_ge_iff fun n => ?_
  rw [hp.depthBelow_le_iff, hp'.depthBelow_le_iff, hresolve]
  simp only [mem_directoriesBelow_iff ht.nodup, mem_directoriesBelow_iff ht'.nodup, hget]

/-- A new entry in a free place, or a new file in place of another. -/
theorem changes_put (hl : l ≠ []) (hfree : d.get? l ≠ some .directory) (entry : Entry) :
    Changes {l} d (d.put l entry) := by
  refine ⟨rfl, fun l' h => ?_, fun l' hl' content modified => ?_⟩
  · rw [get?_put_of_ne d entry (by rintro rfl; exact hfree h)]
    exact h
  · rw [get?_put_of_ne d entry (Set.mem_singleton_iff.not.1 hl')]

/-! ## Actions -/

section Actions

variable {ε α : Type} {result : EStateM.Result ε Disk α} {a : α} {e : ε}

/-- The disk that an action leaves, done or failed. -/
def leftBy : EStateM.Result ε Disk α → Disk
  | .ok _ d => d
  | .error _ d => d

/-- The answer of an action that is done. -/
def answerOf? : EStateM.Result ε Disk α → Option α
  | .ok a _ => some a
  | .error _ _ => none

/-- The failure of an action that fails. -/
def failureOf? : EStateM.Result ε Disk α → Option ε
  | .ok _ _ => none
  | .error e _ => some e

theorem leftBy_of_ok {d : Disk} (h : result = .ok a d) : leftBy result = d := by rw [h]; rfl

theorem leftBy_of_error {d : Disk} (h : result = .error e d) : leftBy result = d := by rw [h]; rfl

theorem eq_ok_of_answerOf? (h : answerOf? result = some a) : result = .ok a (leftBy result) := by
  cases result with
  | ok => exact congrArg (EStateM.Result.ok · _) (Option.some.inj h)
  | error => cases h

theorem eq_error_of_failureOf? (h : failureOf? result = some e) :
    result = .error e (leftBy result) := by
  cases result with
  | ok => cases h
  | error => exact congrArg (EStateM.Result.error · _) (Option.some.inj h)

end Actions

/-! ## Making directories -/

/-- A directory that is made was not there, and nothing else was. -/
theorem eq_put_of_makeDirectory (h : d.makeDirectory p = .ok d') :
    d.locate p = .ok (d.resolve p) ∧ d.get? (d.resolve p) = none ∧
      d' = d.put (d.resolve p) .directory := by
  rw [makeDirectory] at h
  split at h
  · cases h
  · rename_i l hl
    obtain rfl := locate_eq_ok hl
    split at h
    · cases h
    · rename_i hnone
      exact ⟨hl, hnone, (Except.ok.inj h).symm⟩

/-- A directory that is made stands there, and no file is changed. -/
structure Made (p : Path) (before after : Disk) : Prop where
  changes : Changes ∅ before after
  tree : after.IsTree
  hasDirectory : after.HasDirectory p

theorem made_of_makeDirectory (ht : d.IsTree) (h : d.makeDirectory p = .ok d') :
    Made p d d' := by
  obtain ⟨hl, hnone, rfl⟩ := eq_put_of_makeDirectory h
  have hplace : d.HasPlace (d.resolve p) := by
    rcases ht.place_of_locate hl with hdir | hplace
    · rw [hnone] at hdir
      cases hdir
    · exact hplace
  have hfree : d.get? (d.resolve p) ≠ some .directory := by rw [hnone]; simp
  have hself : (d.put (d.resolve p) .directory).get? (d.resolve p) = some .directory :=
    get?_put_self d .directory hplace.ne_nil
  have hput := changes_put hplace.ne_nil hfree .directory
  have hchanges : Changes ∅ d (d.put (d.resolve p) .directory) := by
    refine ⟨rfl, hput.directory, fun l _ content modified => ?_⟩
    by_cases hsame : l = d.resolve p
    · -- Where the directory is made there was no file, and there is none now.
      subst hsame
      simp [hself, hnone]
    · exact hput.file l hsame content modified
  exact ⟨hchanges, ht.put hplace hfree .directory, hchanges.locate hl, hself⟩

theorem made_of_ensureDirectory (ht : d.IsTree) (h : d.ensureDirectory p = .ok d') :
    Made p d d' := by
  rw [ensureDirectory] at h
  split at h
  · rename_i hmade
    obtain rfl := Except.ok.inj h
    exact made_of_makeDirectory ht hmade
  · obtain ⟨there, hthere, h⟩ := bind_eq_ok.1 h
    split at h
    · rename_i htrue
      subst htrue
      obtain rfl := Except.ok.inj h
      exact ⟨.refl _ d, ht, isDirectory_eq_true_iff.1 hthere⟩
    · cases h

/-- A change that is made at once is made or fails with no effect. -/
theorem atOnce_eq_ok_iff {change : Disk → Except Error Disk} :
    atOnce change d = .ok () d' ↔ change d = .ok d' := by
  rw [atOnce]
  cases change d <;> simp

theorem leftBy_atOnce (change : Disk → Except Error Disk) (d : Disk) :
    leftBy (atOnce change d) = d ∨ atOnce change d = .ok () (leftBy (atOnce change d)) := by
  rw [atOnce]
  cases change d with
  | error e => exact .inl rfl
  | ok d' => exact .inr rfl

/-- Directories are made without a change of any file, even if one of them cannot
    be. -/
theorem makeDirectories_changes (ht : d.IsTree) (p : Path) (limit : Option Nat) :
    Changes ∅ d (leftBy (makeDirectories p limit d)) ∧
      (leftBy (makeDirectories p limit d)).IsTree := by
  have hensure : ∀ {d : Disk} {p : Path}, d.IsTree →
      Changes ∅ d (leftBy (atOnce (·.ensureDirectory p) d)) ∧
        (leftBy (atOnce (·.ensureDirectory p) d)).IsTree := by
    intro d p ht
    rcases leftBy_atOnce (·.ensureDirectory p) d with h | h
    · rw [h]
      exact ⟨.refl _ d, ht⟩
    · have hmade := made_of_ensureDirectory ht (atOnce_eq_ok_iff.1 h)
      exact ⟨hmade.changes, hmade.tree⟩
  fun_induction makeDirectories p limit d with
  | case1 p limit d' hmade =>
    have hmade := made_of_makeDirectory ht hmade
    exact ⟨hmade.changes, hmade.tree⟩
  | case2 p e _ _ => exact ⟨.refl _ d, ht⟩
  | case3 p limit e _ _ _ d' hparent ih =>
    obtain ⟨hchanges, htree⟩ := ih
    rw [hparent] at hchanges htree
    obtain ⟨hchanges', htree'⟩ := hensure htree
    exact ⟨hchanges.trans hchanges', htree'⟩
  | case4 p limit e _ _ _ e' d' hparent ih =>
    rw [hparent] at ih
    exact ih
  | case5 p limit e _ _ => exact hensure ht

theorem made_of_makeDirectories (ht : d.IsTree) {limit : Option Nat}
    (h : makeDirectories p limit d = .ok () d') : Made p d d' := by
  obtain ⟨hchanges, htree⟩ := makeDirectories_changes ht p limit
  rw [h] at hchanges htree
  refine ⟨hchanges, htree, ?_⟩
  rw [makeDirectories] at h
  split at h
  · rename_i hmade
    cases h
    exact (made_of_makeDirectory ht hmade).hasDirectory
  split at h
  · split at h
    · cases h
    split at h
    · rename_i d₁ hparent
      have htree₁ : d₁.IsTree := by
        have := (makeDirectories_changes ht p.parent (limit.map (· - 1))).2
        rwa [hparent] at this
      exact (made_of_ensureDirectory htree₁ (atOnce_eq_ok_iff.1 h)).hasDirectory
    · cases h
  · exact (made_of_ensureDirectory ht (atOnce_eq_ok_iff.1 h)).hasDirectory

/-! ## Writing and deleting files -/

/-- The file that a path leads to is written. -/
structure Written (p : Path) (content : ByteArray) (before after : Disk) : Prop where
  changes : Changes {before.resolve p} before after
  tree : after.IsTree
  locate : before.locate p = .ok (before.resolve p)
  bytes : after.bytesAt (before.resolve p) = some content
  /-- No directory is made. -/
  other : ∀ l ≠ before.resolve p, after.get? l = before.get? l

theorem written_of_write (ht : d.IsTree) (h : d.write p content = .ok d') :
    Written p content d d' := by
  rw [write] at h
  split at h
  · cases h
  · rename_i l hl
    obtain rfl := locate_eq_ok hl
    split at h
    · cases h
    · rename_i hfree
      obtain rfl := Except.ok.inj h
      obtain hdir | hplace := ht.place_of_locate hl
      · exact absurd hdir hfree
      · refine ⟨changes_put hplace.ne_nil hfree _, ht.put hplace hfree _, hl, ?_, fun l hne =>
          get?_put_of_ne d _ hne⟩
        exact bytesAt_eq_some_iff.2 ⟨d.now, get?_put_self d _ hplace.ne_nil⟩

/-- The file that a path leads to is gone. -/
structure Deleted (p : Path) (before after : Disk) : Prop where
  changes : Changes {before.resolve p} before after
  tree : after.IsTree
  locate : before.locate p = .ok (before.resolve p) ∧ after.get? (before.resolve p) = none ∨
    before.locate p = .error .notFound ∧ after = before
  /-- Nothing else is gone. -/
  other : ∀ l ≠ before.resolve p, after.get? l = before.get? l

theorem deleted_of_delete (ht : d.IsTree) (h : d.delete p = .ok d') : Deleted p d d' := by
  have hsame : ∀ hloc : d.locate p = .ok (d.resolve p) ∧ d.get? (d.resolve p) = none ∨
      d.locate p = .error .notFound ∧ d = d, Deleted p d d := fun hloc =>
    ⟨.refl _ d, ht, hloc, fun _ _ => rfl⟩
  rw [delete] at h
  split at h
  · rename_i hl
    obtain rfl := Except.ok.inj h
    exact hsame (.inr ⟨hl, rfl⟩)
  · cases h
  · rename_i l hl
    obtain rfl := locate_eq_ok hl
    split at h
    · rename_i hnone
      obtain rfl := Except.ok.inj h
      exact hsame (.inl ⟨hl, hnone⟩)
    · cases h
    · rename_i content modified hfile
      obtain rfl := Except.ok.inj h
      have hne : d.resolve p ≠ [] := by
        intro hnil
        rw [hnil] at hfile
        cases hfile
      have hother : ∀ l ≠ d.resolve p, (d.remove (d.resolve p)).get? l = d.get? l := fun l hl =>
        ht.get?_remove_of_ne hfile hl
      refine ⟨⟨rfl, fun l h => ?_, fun l hl content modified => by rw [hother l hl]⟩,
        ht.remove hfile, .inl ⟨hl, ?_⟩, hother⟩
      · rw [hother l (by rintro rfl; rw [hfile] at h; cases h)]
        exact h
      · rw [get?_remove d hne, if_pos List.prefix_rfl]

/-! ## What can be done -/

/-- A directory that is there need not be made. -/
theorem makeDirectories_of_hasDirectory (h : d.HasDirectory p) (limit : Option Nat) :
    makeDirectories p limit d = .ok () d := by
  have hmake : d.makeDirectory p = .error ⟨.exists, p⟩ := by
    rw [makeDirectory, h.1]
    dsimp only
    rw [h.2]
  have hensure : d.ensureDirectory p = .ok d := by
    rw [ensureDirectory, hmake]
    dsimp only
    rw [isDirectory_eq_true_iff.2 h, ok_bind, if_pos rfl]
    rfl
  rw [makeDirectories, hmake]
  dsimp only
  rw [if_neg (by simp)]
  exact atOnce_eq_ok_iff.2 hensure

theorem get?_of_ensureDirectory (h : d.ensureDirectory p = .ok d') (hl : l ≠ d.resolve p) :
    d'.get? l = d.get? l := by
  rw [ensureDirectory] at h
  split at h
  · rename_i hmade
    obtain rfl := Except.ok.inj h
    obtain ⟨-, -, rfl⟩ := eq_put_of_makeDirectory hmade
    exact get?_put_of_ne d _ hl
  · obtain ⟨there, -, h⟩ := bind_eq_ok.1 h
    split at h
    · obtain rfl := Except.ok.inj h
      rfl
    · cases h

/-- In a directory that is there, only the last one is made. -/
theorem get?_of_makeDirectories_child {name : Text} {limit : Option Nat} (hdir : d.HasDirectory p)
    (hname : IsName name) (h : makeDirectories (p.child name) limit d = .ok () d')
    (hl : l ≠ d.resolve (p.child name)) :
    d'.get? l = d.get? l := by
  rw [makeDirectories] at h
  split at h
  · rename_i hmade
    cases h
    obtain ⟨-, -, rfl⟩ := eq_put_of_makeDirectory hmade
    exact get?_put_of_ne d _ hl
  · split at h
    · split at h
      · cases h
      rw [Path.parent_child p hname, makeDirectories_of_hasDirectory hdir] at h
      exact get?_of_ensureDirectory (atOnce_eq_ok_iff.1 h) hl
    · exact get?_of_ensureDirectory (atOnce_eq_ok_iff.1 h) hl

/-- A directory is made in one that is there, unless a file is in the way. -/
theorem exists_makeDirectories_child {name : Text} (hdir : d.HasDirectory p) (hname : IsName name)
    (hfits : Fits p name) (hfree : d.bytesAt (d.resolve (p.child name)) = none)
    (limit : Option Nat) : ∃ d', makeDirectories (p.child name) limit d = .ok () d' := by
  have hlocate := hfits.locate hname hdir
  cases hget : d.get? (d.resolve (p.child name)) with
  | none =>
    have hmake : d.makeDirectory (p.child name) =
        .ok (d.put (d.resolve (p.child name)) .directory) := by
      rw [makeDirectory, hlocate]
      dsimp only
      rw [hget]
    exact ⟨_, by rw [makeDirectories, hmake]⟩
  | some entry =>
    cases entry with
    | directory => exact ⟨d, makeDirectories_of_hasDirectory ⟨hlocate, hget⟩ limit⟩
    | file content modified =>
      rw [bytesAt_eq_some_iff.2 ⟨modified, hget⟩] at hfree
      cases hfree

/-- A file is written where no directory stands. -/
theorem exists_write (hlocate : d.locate p = .ok l) (hfree : d.get? l ≠ some .directory)
    (content : ByteArray) : ∃ d', d.write p content = .ok d' := by
  rw [write, hlocate]
  dsimp only
  split
  · rename_i hget
    exact absurd hget hfree
  · exact ⟨_, rfl⟩

/-- A file is deleted where no directory stands, even if there is none. -/
theorem exists_delete (hlocate : d.locate p = .ok l ∨ d.locate p = .error .notFound)
    (hfree : d.get? l ≠ some .directory) : ∃ d', d.delete p = .ok d' := by
  rw [delete]
  rcases hlocate with hlocate | hlocate
  · rw [hlocate]
    dsimp only
    split
    · exact ⟨d, rfl⟩
    · rename_i hget
      exact absurd hget hfree
    · exact ⟨_, rfl⟩
  · rw [hlocate]
    exact ⟨d, rfl⟩

/-! ## The order of a disk -/

/-- A disk that holds the same as another and may list it in another order. -/
structure IsRelisted (d d' : Disk) : Prop where
  working : d'.working = d.working
  perm : d'.entries.Perm d.entries

namespace IsRelisted

theorem get?_eq (h : d.IsRelisted d') (ht : d.IsTree) (l : Location) : d'.get? l = d.get? l := by
  by_cases hl : l = []
  · rw [hl]
    rfl
  · refine Option.ext fun entry => ?_
    have hnodup : (d'.entries.map (·.1)).Nodup := (h.perm.map _).nodup_iff.2 ht.nodup
    rw [← mem_entries_iff hnodup hl, ← mem_entries_iff ht.nodup hl, h.perm.mem_iff]

theorem changes (h : d.IsRelisted d') (ht : d.IsTree) : Changes ∅ d d' where
  working := h.working
  directory l hl := by rwa [h.get?_eq ht]
  file l _ content modified := by rw [h.get?_eq ht]

end IsRelisted

end Marginalia.Disk
