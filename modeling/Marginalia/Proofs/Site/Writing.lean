import Marginalia.Proofs.Disk.Change
import Marginalia.Proofs.Page.Whole
import Marginalia.Site.Publication

/-!
# Writing records

What a step of a publication does to the disk. Whatever comes of it, a step changes
files at certain locations only (`Confined`). A record that is written stands in its
file (`Holds`); to write it a second time changes nothing
(`bytesAt_writeRecord_of_holds`). A record that is not written is not whole, or the
disk has failed, and then no file is changed (`unwritten_of_writeRecord`); a whole one
is written where nothing is in the way (`exists_writeRecord`).
-/

namespace Marginalia.Site

open Disk (Changes leftBy)

variable {α β : Type} {x : Publishing α} {f : α → Publishing β} {d d' : Disk} {a b : α} {c : β}
  {failure : Failure} {path : Path} {record : Json} {parents : Option Nat}
  {files more : Set Location}

/-! ## Steps -/

namespace Publishing

theorem bind_eq_ok : (x >>= f) d = .ok c d' ↔ ∃ a d₁, x d = .ok a d₁ ∧ f a d₁ = .ok c d' := by
  change EStateM.bind x f d = _ ↔ _
  rw [EStateM.bind]
  cases x d <;> simp

theorem bind_of_ok (h : x d = .ok a d') : (x >>= f) d = f a d' := by
  change EStateM.bind x f d = _
  rw [EStateM.bind, h]

theorem bind_eq_error : (x >>= f) d = .error failure d' ↔
    x d = .error failure d' ∨ ∃ a d₁, x d = .ok a d₁ ∧ f a d₁ = .error failure d' := by
  change EStateM.bind x f d = _ ↔ _
  rw [EStateM.bind]
  cases x d <;> simp

theorem pure_eq_ok : (pure a : Publishing α) d = .ok b d' ↔ b = a ∧ d' = d := by
  change EStateM.Result.ok a d = .ok b d' ↔ _
  rw [EStateM.Result.ok.injEq, eq_comm, @eq_comm _ d]

theorem asking_eq_ok {question : Disk → Except Failure α} :
    asking question d = .ok a d' ↔ question d = .ok a ∧ d' = d := by
  rw [asking]
  cases question d <;> simp [eq_comm]

theorem asking_eq_error {question : Disk → Except Failure α} :
    asking question d = .error failure d' ↔ question d = .error failure ∧ d' = d := by
  rw [asking]
  cases question d <;> simp [eq_comm]

theorem changing_eq_ok {change : EStateM Disk.Error Disk Unit} :
    changing change d = .ok () d' ↔ change d = .ok () d' := by
  rw [changing]
  cases change d <;> simp

theorem changing_eq_error {change : EStateM Disk.Error Disk Unit} :
    changing change d = .error failure d' ↔ ∃ e, change d = .error e d' ∧ failure = .disk e := by
  rw [changing]
  cases change d <;> simp [eq_comm, and_comm]

theorem leftBy_changing (change : EStateM Disk.Error Disk Unit) (d : Disk) :
    leftBy (changing change d) = leftBy (change d) := by
  rw [changing]
  cases change d <;> rfl

end Publishing

/-- Whatever comes of a step, it changes files at these locations only and leaves a
    tree. -/
structure Confined (files : Set Location) (x : Publishing α) (d : Disk) : Prop where
  changes : Changes files d (leftBy (x d))
  tree : (leftBy (x d)).IsTree

namespace Confined

theorem ok (hx : Confined files x d) (h : x d = .ok a d') : Changes files d d' ∧ d'.IsTree :=
  Disk.leftBy_of_ok h ▸ ⟨hx.changes, hx.tree⟩

theorem error (hx : Confined files x d) (h : x d = .error failure d') :
    Changes files d d' ∧ d'.IsTree :=
  Disk.leftBy_of_error h ▸ ⟨hx.changes, hx.tree⟩

theorem mono (hx : Confined files x d) (hsub : files ⊆ more) : Confined more x d :=
  ⟨hx.changes.mono hsub, hx.tree⟩

/-- One step after another changes what either does. -/
theorem bind (hx : Confined files x d)
    (hf : ∀ a d₁, x d = .ok a d₁ → Confined files (f a) d₁) : Confined files (x >>= f) d := by
  cases h : x d with
  | error failure d₁ =>
    have hbind : (x >>= f) d = .error failure d₁ := Publishing.bind_eq_error.2 (.inl h)
    obtain ⟨hchanges, htree⟩ := hx.error h
    exact ⟨hbind ▸ hchanges, hbind ▸ htree⟩
  | ok a d₁ =>
    have hbind : (x >>= f) d = f a d₁ := Publishing.bind_of_ok h
    obtain ⟨hchanges, -⟩ := hx.ok h
    obtain ⟨hchanges', htree'⟩ := hf a d₁ h
    exact ⟨hbind ▸ hchanges.trans hchanges', hbind ▸ htree'⟩

theorem asking (ht : d.IsTree) (question : Disk → Except Failure α) :
    Confined files (asking question) d := by
  have hleft : leftBy (Site.asking question d) = d := by
    rw [Site.asking]
    cases question d <;> rfl
  exact ⟨hleft.symm ▸ .refl files d, hleft.symm ▸ ht⟩

theorem pure (ht : d.IsTree) (a : α) : Confined files (pure a : Publishing α) d :=
  ⟨.refl files d, ht⟩

theorem throw (ht : d.IsTree) (failure : Failure) :
    Confined files (throw failure : Publishing α) d :=
  ⟨.refl files d, ht⟩

theorem makeDirectories (ht : d.IsTree) (path : Path) (limit : Option Nat) :
    Confined ∅ (changing (Disk.makeDirectories path limit)) d := by
  obtain ⟨hchanges, htree⟩ := Disk.makeDirectories_changes ht path limit
  exact ⟨Publishing.leftBy_changing _ d ▸ hchanges, Publishing.leftBy_changing _ d ▸ htree⟩

theorem write (ht : d.IsTree) (path : Path) (content : ByteArray) :
    Confined {d.resolve path} (changing (Disk.atOnce (·.write path content))) d := by
  rcases Disk.leftBy_atOnce (·.write path content) d with h | h
  · rw [← Publishing.leftBy_changing] at h
    exact ⟨h.symm ▸ .refl _ d, h.symm ▸ ht⟩
  · rw [← Publishing.leftBy_changing, Disk.atOnce_eq_ok_iff] at h
    have hwritten := Disk.written_of_write ht h
    exact ⟨hwritten.changes, hwritten.tree⟩

theorem delete (ht : d.IsTree) (path : Path) :
    Confined {d.resolve path} (changing (Disk.atOnce (·.delete path))) d := by
  rcases Disk.leftBy_atOnce (·.delete path) d with h | h
  · rw [← Publishing.leftBy_changing] at h
    exact ⟨h.symm ▸ .refl _ d, h.symm ▸ ht⟩
  · rw [← Publishing.leftBy_changing, Disk.atOnce_eq_ok_iff] at h
    have hdeleted := Disk.deleted_of_delete ht h
    exact ⟨hdeleted.changes, hdeleted.tree⟩

end Confined

/-! ## Records -/

/-- A path leads to a file that holds a record. -/
def Holds (d : Disk) (path : Path) (record : Json) : Prop :=
  ∃ text, record.write? = some text ∧ d.read path = .ok (Encoding.encodeUtf8 text)

instance (d : Disk) (path : Path) (record : Json) : Decidable (Holds d path record) :=
  match h : record.write? with
  | none => isFalse fun ⟨text, htext, _⟩ => by rw [h] at htext; cases htext
  | some text =>
    letI := ByteArray.instDecidableEq
    decidable_of_iff (d.read path = .ok (Encoding.encodeUtf8 text))
      ⟨fun hread => ⟨text, h, hread⟩, fun ⟨text', htext, hread⟩ => by
        rw [h] at htext
        exact Option.some.inj htext ▸ hread⟩

namespace Holds

theorem isWhole (h : Holds d path record) : record.IsWhole := by
  obtain ⟨text, htext, -⟩ := h
  exact Json.write?_ne_none_iff.1 (htext ▸ Option.some_ne_none text)

theorem bytesAt (h : Holds d path record) :
    ∃ text, record.write? = some text ∧
      d.bytesAt (d.resolve path) = some (Encoding.encodeUtf8 text) := by
  obtain ⟨text, htext, hread⟩ := h
  exact ⟨text, htext, (Disk.read_eq_ok_iff.1 hread).2⟩

theorem isFile (h : Holds d path record) : d.isFile path = .ok true := by
  obtain ⟨text, -, hread⟩ := h
  obtain ⟨hlocate, hbytes⟩ := Disk.read_eq_ok_iff.1 hread
  exact Disk.isFile_eq_true_iff.2 ⟨hlocate, hbytes ▸ Option.some_ne_none _⟩

/-- A record is written one way only. -/
theorem bytesAt_eq (h : Holds d path record) (h' : Holds d' path record) :
    d'.bytesAt (d'.resolve path) = d.bytesAt (d.resolve path) := by
  obtain ⟨text, htext, hbytes⟩ := h.bytesAt
  obtain ⟨text', htext', hbytes'⟩ := h'.bytesAt
  obtain rfl := Option.some.inj (htext.symm.trans htext')
  exact hbytes'.trans hbytes.symm

/-- A record stays in its file while the bytes there do. -/
theorem of_bytesAt (h : Holds d path record) (hchanges : Changes files d d')
    (hbytes : d'.bytesAt (d.resolve path) = d.bytesAt (d.resolve path)) : Holds d' path record := by
  obtain ⟨text, htext, hread⟩ := h
  obtain ⟨hlocate, hthere⟩ := Disk.read_eq_ok_iff.1 hread
  refine ⟨text, htext, Disk.read_eq_ok_iff.2 ⟨?_, ?_⟩⟩
  · rw [hchanges.resolve]
    exact hchanges.locate hlocate
  · rw [hchanges.resolve, hbytes, hthere]

/-- A record stays in its file when other files change. -/
theorem of_changes (h : Holds d path record) (hchanges : Changes files d d')
    (hfiles : d.resolve path ∉ files) : Holds d' path record :=
  h.of_bytesAt hchanges (hchanges.bytesAt hfiles)

end Holds

/-- Writing a record changes its file only, whatever comes of it. -/
theorem confined_writeRecord (ht : d.IsTree) (path : Path) (record : Json) (parents : Option Nat) :
    Confined {d.resolve path} (writeRecord path record parents) d := by
  have hmake := Confined.makeDirectories ht path.parent parents
  refine (hmake.mono (Set.empty_subset _)).bind fun _ d₁ h => ?_
  obtain ⟨hchanges, ht₁⟩ := (Confined.makeDirectories ht path.parent parents).ok h
  have hwrite : ∀ content,
      Confined {d.resolve path} (changing (Disk.atOnce (·.write path content))) d₁ := fun content =>
    hchanges.resolve path ▸ Confined.write ht₁ path content
  split
  · exact hwrite _
  · refine (hwrite _).bind fun _ d₂ h => ?_
    exact .throw ((hwrite _).ok h).2 _

/-- A record that is written stands in its file, in a directory. -/
theorem holds_of_writeRecord (ht : d.IsTree)
    (h : writeRecord path record parents d = .ok () d') :
    Holds d' path record ∧ d'.HasDirectory path.parent := by
  obtain ⟨_, d₁, hmade, h⟩ := Publishing.bind_eq_ok.1 h
  have hmade := Disk.made_of_makeDirectories ht (Publishing.changing_eq_ok.1 hmade)
  cases htext : record.write? with
  | none =>
    rw [htext] at h
    obtain ⟨_, d₂, -, h⟩ := Publishing.bind_eq_ok.1 h
    cases h
  | some text =>
    rw [htext] at h
    have hwrite := Disk.atOnce_eq_ok_iff.1 (Publishing.changing_eq_ok.1 h)
    have hwritten := Disk.written_of_write hmade.tree hwrite
    refine ⟨⟨text, htext, Disk.read_eq_ok_iff.2 ?_⟩,
      hwritten.changes.hasDirectory hmade.hasDirectory⟩
    rw [hwritten.changes.resolve]
    exact ⟨hwritten.changes.locate hwritten.locate, hwritten.bytes⟩

/-- A record that is written changes nothing but its file, once its directory is made. -/
theorem get?_of_writeRecord (ht : d.IsTree)
    (h : writeRecord path record parents d = .ok () d') :
    ∃ d₁, Disk.makeDirectories path.parent parents d = .ok () d₁ ∧
      ∀ l ≠ d.resolve path, d'.get? l = d₁.get? l := by
  obtain ⟨_, d₁, hmade, h⟩ := Publishing.bind_eq_ok.1 h
  have hmake := Publishing.changing_eq_ok.1 hmade
  have hmade := Disk.made_of_makeDirectories ht hmake
  refine ⟨d₁, hmake, fun l hl => ?_⟩
  cases htext : record.write? with
  | none =>
    rw [htext] at h
    obtain ⟨_, d₂, -, h⟩ := Publishing.bind_eq_ok.1 h
    cases h
  | some text =>
    rw [htext] at h
    have hwrite := Disk.atOnce_eq_ok_iff.1 (Publishing.changing_eq_ok.1 h)
    exact (Disk.written_of_write hmade.tree hwrite).other l (hmade.changes.resolve path ▸ hl)

/-- A record that is whole is written, unless a directory stands in place of its file. -/
theorem exists_writeRecord {d₁ : Disk}
    (hmake : Disk.makeDirectories path.parent parents d = .ok () d₁)
    (hlocate : d₁.locate path = .ok (d₁.resolve path))
    (hfree : d₁.get? (d₁.resolve path) ≠ some .directory) (hwhole : record.IsWhole) :
    ∃ d', writeRecord path record parents d = .ok () d' := by
  obtain ⟨text, htext⟩ := Option.ne_none_iff_exists'.1 (Json.write?_ne_none_iff.2 hwhole)
  obtain ⟨d', hwrite⟩ := Disk.exists_write hlocate hfree (Encoding.encodeUtf8 text)
  refine ⟨d', Publishing.bind_eq_ok.2 ⟨(), d₁, Publishing.changing_eq_ok.2 hmake, ?_⟩⟩
  rw [htext]
  exact Publishing.changing_eq_ok.2 (Disk.atOnce_eq_ok_iff.2 hwrite)

/-- A record that is not written is not whole, and its file is left empty, or the disk has
    failed and no file is changed. -/
theorem unwritten_of_writeRecord (ht : d.IsTree)
    (h : writeRecord path record parents d = .error failure d') :
    (failure = .unencodable ∧ ¬record.IsWhole ∧ d'.bytesAt (d.resolve path) = some .empty) ∨
      (∃ e, failure = .disk e) ∧ Changes ∅ d d' := by
  have hmake := Confined.makeDirectories ht path.parent parents
  rcases Publishing.bind_eq_error.1 h with h | ⟨_, d₁, hmade, h⟩
  · obtain ⟨e, -, rfl⟩ := Publishing.changing_eq_error.1 h
    exact .inr ⟨⟨e, rfl⟩, (hmake.error h).1⟩
  · -- A write that fails changes nothing.
    have hwrite : ∀ {content failure}, changing (Disk.atOnce (·.write path content)) d₁ =
        .error failure d' → (∃ e, failure = .disk e) ∧ Changes ∅ d d' := by
      intro content failure h
      obtain ⟨e, he, rfl⟩ := Publishing.changing_eq_error.1 h
      have hleft : d' = d₁ := by
        rcases Disk.leftBy_atOnce (·.write path content) d₁ with hleft | hleft
        · rwa [he] at hleft
        · rw [he] at hleft
          cases hleft
      exact ⟨⟨e, rfl⟩, hleft ▸ (hmake.ok hmade).1⟩
    cases htext : record.write? with
    | some text =>
      rw [htext] at h
      exact .inr (hwrite h)
    | none =>
      rw [htext] at h
      rcases Publishing.bind_eq_error.1 h with h | ⟨_, d₂, hemptied, h⟩
      · exact .inr (hwrite h)
      · obtain ⟨rfl, rfl⟩ := EStateM.Result.error.inj h
        have hemptied := Disk.atOnce_eq_ok_iff.1 (Publishing.changing_eq_ok.1 hemptied)
        obtain ⟨hchanges, ht₁⟩ := hmake.ok hmade
        refine .inl ⟨rfl, fun hwhole => Json.write?_ne_none_iff.2 hwhole htext, ?_⟩
        rw [← hchanges.resolve]
        exact (Disk.written_of_write ht₁ hemptied).bytes

/-- To write a record takes no file away, whatever comes of it. -/
theorem bytesAt_writeRecord_ne_none {l : Location} (ht : d.IsTree) (path : Path) (record : Json)
    (parents : Option Nat) (hl : d.bytesAt l ≠ none) :
    (leftBy (writeRecord path record parents d)).bytesAt l ≠ none := by
  have hconfined := confined_writeRecord ht path record parents
  by_cases hpath : l = d.resolve path
  · subst hpath
    cases h : writeRecord path record parents d with
    | ok _ d' =>
      obtain ⟨text, -, hbytes⟩ := (holds_of_writeRecord ht h).1.bytesAt
      rw [(hconfined.ok h).1.resolve] at hbytes
      exact hbytes ▸ Option.some_ne_none _
    | error failure d' =>
      rcases unwritten_of_writeRecord ht h with ⟨-, -, hempty⟩ | ⟨-, hchanges⟩
      · exact hempty ▸ Option.some_ne_none _
      · exact (hchanges.bytesAt (Set.notMem_empty _)).symm ▸ hl
  · rw [hconfined.changes.bytesAt hpath]
    exact hl

/-- Nothing is changed by writing a record that stands in its file. -/
theorem bytesAt_writeRecord_of_holds (ht : d.IsTree) (hholds : Holds d path record)
    (l : Location) :
    (leftBy (writeRecord path record parents d)).bytesAt l = d.bytesAt l := by
  cases h : writeRecord path record parents d with
  | ok _ d' =>
    obtain ⟨hchanges, -⟩ := (confined_writeRecord ht path record parents).ok h
    by_cases hl : l = d.resolve path
    · subst hl
      have hbytes := hholds.bytesAt_eq (holds_of_writeRecord ht h).1
      rwa [hchanges.resolve] at hbytes
    · exact hchanges.bytesAt hl
  | error failure d' =>
    rcases unwritten_of_writeRecord ht h with ⟨-, hhalf, -⟩ | ⟨-, hchanges⟩
    · exact absurd hholds.isWhole hhalf
    · exact hchanges.bytesAt (Set.notMem_empty l)

end Marginalia.Site
