import Marginalia.Disk.Basic
import Marginalia.Proofs.Result
import Marginalia.Proofs.Text.Pieces

/-!
# Where paths lead

A path leads to one location by its names alone (`Disk.resolve`). On a disk it
either leads there or nowhere (`locate_eq_ok`), and from a directory each name
leads to the location in it of that name (`locate_child`), unless the name does not
fit (`Fits`). What is found at the end of a path is what is at its location:
`isDirectory_eq_true_iff`, `isFile_eq_true_iff` and `read_eq_ok_iff`. What a path leads
to is told of all paths but of those that are too long (`leadsTo_eq_error`).
-/

namespace Marginalia

/-! ## Names -/

/-- A name that a file or a directory can have. -/
structure Disk.IsName (name : Text) : Prop where
  ne_nil : name ≠ []
  ne_point : name ≠ ['.']
  ne_up : name ≠ Disk.up
  not_mem : '/' ∉ name

instance (name : Text) : Decidable (Disk.IsName name) :=
  decidable_of_iff (name ≠ [] ∧ name ≠ ['.'] ∧ name ≠ Disk.up ∧ '/' ∉ name)
    ⟨fun ⟨hnil, hpoint, hup, hmem⟩ => ⟨hnil, hpoint, hup, hmem⟩,
      fun h => ⟨h.ne_nil, h.ne_point, h.ne_up, h.not_mem⟩⟩

namespace Text

variable {s : Text}

theorem byteSize_append (s t : Text) : byteSize (s ++ t) = byteSize s + byteSize t := by
  induction s with
  | nil => exact (Nat.zero_add _).symm
  | cons x rest ih =>
    change x.utf8Size + byteSize (rest ++ t) = x.utf8Size + byteSize rest + byteSize t
    rw [ih, Nat.add_assoc]

theorem byteSize_pos (h : s ≠ []) : 0 < byteSize s := by
  obtain ⟨x, rest, rfl⟩ := List.exists_cons_of_ne_nil h
  exact Nat.lt_of_lt_of_le x.utf8Size_pos (Nat.le_add_right _ (byteSize rest))

end Text

namespace Path

variable {p : Path} {name : Text}

/-- Each part of a path is a name or leads up. -/
theorem eq_up_or_isName {part : Text} (hpart : part ∈ p.parts) :
    part = Disk.up ∨ Disk.IsName part := by
  obtain ⟨hidle, hslash⟩ := p.proper part hpart
  rw [isIdle, Bool.or_eq_false_iff, beq_eq_false_iff_ne, beq_eq_false_iff_ne] at hidle
  by_cases hup : part = Disk.up
  · exact .inl hup
  · exact .inr ⟨hidle.1, hidle.2, hup, hslash⟩

theorem parts_ofText_of_isName (h : Disk.IsName name) : (ofText name).parts = [name] := by
  have hidle : isIdle name = false := by
    rw [isIdle, Bool.or_eq_false_iff, beq_eq_false_iff_ne, beq_eq_false_iff_ne]
    exact ⟨h.ne_nil, h.ne_point⟩
  change (Text.splitAt '/' name).filter (!isIdle ·) = [name]
  rw [Text.splitAt_of_not_mem h.not_mem, List.filter_cons_of_pos (by rw [hidle]; rfl),
    List.filter_nil]

theorem isAbsolute_ofText_of_isName (h : Disk.IsName name) : (ofText name).isAbsolute = false := by
  obtain ⟨c, rest, rfl⟩ := List.exists_cons_of_ne_nil h.ne_nil
  have hc : ¬(c == '/') = true := fun hc => h.not_mem (eq_of_beq hc ▸ List.mem_cons_self)
  have htake : (c :: rest).takeWhile (· == '/') = [] := List.takeWhile_cons_of_neg hc
  rw [isAbsolute, ofText, htake]
  rfl

theorem parts_child (p : Path) (h : Disk.IsName name) :
    (p.child name).parts = p.parts ++ [name] := by
  rw [child, append, isAbsolute_ofText_of_isName h, if_neg Bool.false_ne_true]
  exact congrArg (p.parts ++ ·) (parts_ofText_of_isName h)

theorem slashes_child (p : Path) (h : Disk.IsName name) : (p.child name).slashes = p.slashes := by
  rw [child, append, isAbsolute_ofText_of_isName h, if_neg Bool.false_ne_true]

theorem isAbsolute_child (p : Path) (h : Disk.IsName name) :
    (p.child name).isAbsolute = p.isAbsolute := by
  rw [isAbsolute, slashes_child p h, isAbsolute]

theorem parts_child_ne_nil (p : Path) (h : Disk.IsName name) : (p.child name).parts ≠ [] := by
  rw [parts_child p h]
  exact List.concat_ne_nil _ _

theorem parent_child (p : Path) (h : Disk.IsName name) : (p.child name).parent = p := by
  refine Path.ext (slashes_child p h) ?_
  change (p.child name).parts.dropLast = p.parts
  rw [parts_child p h, List.dropLast_concat]

theorem text_of_parts_ne_nil (h : p.parts ≠ []) :
    p.text = List.replicate p.slashes '/' ++ Text.joinWith '/' p.parts := by
  rw [text]
  split
  · rename_i hnil
    exact absurd hnil h
  · rfl

/-- A path is no longer than one that leads on from it. -/
theorem byteSize_text_le_child (p : Path) (h : Disk.IsName name) :
    p.text.byteSize ≤ (p.child name).text.byteSize := by
  rw [text_of_parts_ne_nil (parts_child_ne_nil p h), parts_child p h, slashes_child p h]
  by_cases hparts : p.parts = []
  · have hjoin : Text.joinWith '/' (p.parts ++ [name]) = name := by
      rw [hparts]
      simp [Text.joinWith, List.intercalate]
    have hpos := Text.byteSize_pos h.ne_nil
    rw [hjoin, Text.byteSize_append, text]
    split
    · exact Nat.le_trans hpos (Nat.le_add_left _ _)
    · rw [hparts, Text.byteSize_append]
      exact Nat.add_le_add_left (Nat.zero_le _) _
  · rw [text_of_parts_ne_nil hparts, Text.joinWith_concat hparts, ← List.append_assoc,
      Text.byteSize_append (_ ++ _)]
    exact Nat.le_add_right _ _

theorem holdsNull_child (p : Path) (h : Disk.IsName name) :
    (p.child name).holdsNull = (p.holdsNull || name.contains '\x00') := by
  rw [holdsNull, parts_child p h, holdsNull, List.any_append, List.any_cons, List.any_nil,
    Bool.or_false]

end Path

namespace Disk

variable {d : Disk} {p : Path} {name : Text} {l l' : Location} {names more : List Text}

/-! ## Locations of paths -/

theorem stepTo_of_isName (l : Location) (h : IsName name) : stepTo l name = l ++ [name] :=
  if_neg h.ne_up

/-- Where a path leads by its names depends on where it starts. -/
theorem resolve_congr {d' : Disk} (h : d'.working = d.working) (p : Path) :
    d'.resolve p = d.resolve p := by
  rw [resolve, resolve, startOf, startOf, h]

theorem startOf_child (d : Disk) (p : Path) (h : IsName name) :
    d.startOf (p.child name) = d.startOf p := by
  rw [startOf, Path.isAbsolute_child p h, startOf]

theorem resolve_child (d : Disk) (p : Path) (h : IsName name) :
    d.resolve (p.child name) = d.resolve p ++ [name] := by
  rw [resolve, startOf_child d p h, Path.parts_child p h, List.foldl_append, List.foldl_cons,
    List.foldl_nil, stepTo_of_isName _ h]
  rfl

/-- A way that can be gone ends where its names lead. -/
theorem walk_eq_ok (h : d.walk l names = .ok l') : l' = names.foldl stepTo l := by
  induction names generalizing l with
  | nil => exact (Except.ok.inj h).symm
  | cons name rest ih =>
    rw [walk] at h
    split at h
    · cases h
    · cases h
    · split at h
      · cases h
      · exact ih h

theorem walk_append (d : Disk) (l : Location) (names more : List Text) :
    d.walk l (names ++ more) = d.walk l names >>= (d.walk · more) := by
  induction names generalizing l with
  | nil => rfl
  | cons name rest ih =>
    rw [List.cons_append, walk, walk]
    split
    · rfl
    · rfl
    · split
      · rfl
      · exact ih _

/-- What makes a path unfit for any disk. -/
def pathFlaw? (p : Path) : Option Cause :=
  if p.holdsNull then some .nullCharacter
  else if pathLimit < p.text.byteSize then some .nameTooLong
  else none

/-- A path is unfit, or its names are followed. -/
theorem locate_eq (d : Disk) (p : Path) : d.locate p =
    match pathFlaw? p with
    | some cause => .error cause
    | none => d.walk (d.startOf p) p.parts := by
  rw [locate, pathFlaw?]
  split
  · rfl
  · split <;> rfl

theorem locate_eq_ok_iff : d.locate p = .ok l ↔
    pathFlaw? p = none ∧ d.walk (d.startOf p) p.parts = .ok l := by
  rw [locate_eq]
  cases pathFlaw? p <;> simp

/-- A path leads to one location, if it leads anywhere. -/
theorem locate_eq_ok (h : d.locate p = .ok l) : l = d.resolve p :=
  walk_eq_ok (locate_eq_ok_iff.1 h).2

/-- What a name in a directory leads to. -/
theorem walk_name (h : d.get? l = some .directory) (hname : IsName name) :
    d.walk l [name] =
      if nameLimit < name.byteSize then .error .nameTooLong else .ok (l ++ [name]) := by
  rw [walk, h, stepTo_of_isName l hname]
  rfl

/-- Where a path leads whose last name is one in the directory at a location. -/
def placeOf (p : Path) (l : Location) (name : Text) : Except Cause Location :=
  match pathFlaw? p with
  | some cause => .error cause
  | none => if nameLimit < name.byteSize then .error .nameTooLong else .ok (l ++ [name])

/-- A path leads on from a directory by any name that is not too long. -/
theorem locate_child (hp : d.locate p = .ok l) (hl : d.get? l = some .directory)
    (hname : IsName name) : d.locate (p.child name) = placeOf (p.child name) l name := by
  have hwalk : d.walk (d.startOf (p.child name)) (p.child name).parts = d.walk l [name] := by
    rw [startOf_child d p hname, Path.parts_child p hname, walk_append, (locate_eq_ok_iff.1 hp).2]
    rfl
  rw [locate_eq, hwalk, walk_name hl hname, placeOf]

/-! ## What a path leads to -/

/-- The bytes of the file at a location. -/
def bytesAt (d : Disk) (l : Location) : Option ByteArray :=
  match d.get? l with
  | some (.file content _) => some content
  | _ => none

theorem bytesAt_eq_some_iff {content : ByteArray} :
    d.bytesAt l = some content ↔ ∃ modified, d.get? l = some (.file content modified) := by
  rw [bytesAt]
  cases d.get? l with
  | none => simp
  | some entry => cases entry <;> simp

/-- A path leads to its location, where there is a directory. -/
def HasDirectory (d : Disk) (p : Path) : Prop :=
  d.locate p = .ok (d.resolve p) ∧ d.get? (d.resolve p) = some .directory

/-- The way to a name leads through the directory that it is in. -/
theorem hasDirectory_of_locate_child (h : d.locate (p.child name) = .ok l) (hname : IsName name) :
    d.HasDirectory p := by
  obtain ⟨hflaw, hwalk⟩ := locate_eq_ok_iff.1 h
  have hfit : pathFlaw? p = none := by
    rw [pathFlaw?] at hflaw ⊢
    split at hflaw
    · cases hflaw
    split at hflaw
    · cases hflaw
    · rename_i hnull hlong
      rw [if_neg fun hp => hnull (by rw [Path.holdsNull_child p hname, hp, Bool.true_or]),
        if_neg fun hp => hlong (Nat.lt_of_lt_of_le hp (Path.byteSize_text_le_child p hname))]
  rw [startOf_child d p hname, Path.parts_child p hname, walk_append] at hwalk
  obtain ⟨l, hl, hwalk⟩ := bind_eq_ok.1 hwalk
  have hlocate : d.locate p = .ok l := locate_eq_ok_iff.2 ⟨hfit, hl⟩
  obtain rfl := locate_eq_ok hlocate
  refine ⟨hlocate, ?_⟩
  rw [walk] at hwalk
  split at hwalk
  · cases hwalk
  · cases hwalk
  · assumption

theorem HasDirectory.of_child (h : d.HasDirectory (p.child name)) (hname : IsName name) :
    d.HasDirectory p :=
  hasDirectory_of_locate_child h.1 hname

theorem HasDirectory.children_eq (h : d.HasDirectory p) :
    d.children p = d.childrenOf (d.resolve p) := by
  rw [children, h.1]

/-- How deep the directories below a path are nested. -/
theorem HasDirectory.depthBelow_le_iff {n : Nat} (h : d.HasDirectory p) :
    d.depthBelow p ≤ n ↔ ∀ names ∈ d.directoriesBelow (d.resolve p), names.length ≤ n := by
  rw [depthBelow, h.1]
  dsimp only
  cases hmax : ((d.directoriesBelow (d.resolve p)).map List.length).max? with
  | none =>
    rw [List.max?_eq_none_iff, List.map_eq_nil_iff] at hmax
    simp [hmax]
  | some most =>
    rw [Option.getD_some, List.max?_le_iff hmax, List.forall_mem_map]

/-- A name can be looked up at the end of a path, if that leads to a directory. -/
structure Fits (p : Path) (name : Text) : Prop where
  flawless : pathFlaw? (p.child name) = none
  size : name.byteSize ≤ nameLimit

instance (p : Path) (name : Text) : Decidable (Fits p name) :=
  decidable_of_iff (pathFlaw? (p.child name) = none ∧ name.byteSize ≤ nameLimit)
    ⟨fun ⟨hflawless, hsize⟩ => ⟨hflawless, hsize⟩, fun h => ⟨h.flawless, h.size⟩⟩

theorem fits_of_locate (h : d.locate (p.child name) = .ok l) (hname : IsName name) :
    Fits p name := by
  obtain ⟨hlocate, hthere⟩ := hasDirectory_of_locate_child h hname
  rw [locate_child hlocate hthere hname, placeOf] at h
  split at h
  · cases h
  · rename_i hflawless
    split at h
    · cases h
    · rename_i hsize
      exact ⟨hflawless, Nat.not_lt.1 hsize⟩

theorem Fits.locate (h : Fits p name) (hname : IsName name) (hdir : d.HasDirectory p) :
    d.locate (p.child name) = .ok (d.resolve (p.child name)) := by
  rw [locate_child hdir.1 hdir.2 hname, placeOf, h.flawless, resolve_child d p hname]
  exact if_neg (Nat.not_lt.2 h.size)

/-- A path leads nowhere beyond a place that is free. -/
theorem locate_child_of_free (hp : d.locate p = .ok l) (hl : d.get? l = none)
    (hname : IsName name) (h : Fits p name) : d.locate (p.child name) = .error .notFound := by
  have hwalk : d.walk (d.startOf p) (p.parts ++ [name]) = .error .notFound := by
    rw [walk_append, (locate_eq_ok_iff.1 hp).2, ok_bind, walk, hl]
  rw [locate_eq, h.flawless, startOf_child d p hname, Path.parts_child p hname]
  exact hwalk

theorem entryAt_eq_ok_iff {entry : Entry} : d.entryAt p = .ok entry ↔
    d.locate p = .ok (d.resolve p) ∧ d.get? (d.resolve p) = some entry := by
  rw [entryAt, bind_eq_ok]
  constructor
  · rintro ⟨l, hl, hentry⟩
    obtain rfl := locate_eq_ok hl
    refine ⟨hl, ?_⟩
    split at hentry
    · cases hentry
    · rename_i hget
      rw [hget]
      exact congrArg some (Except.ok.inj hentry)
  · rintro ⟨hl, hentry⟩
    exact ⟨d.resolve p, hl, by rw [hentry]; rfl⟩

theorem leadsTo_eq_true_iff {isSuch : Entry → Bool} : d.leadsTo p isSuch = .ok true ↔
    ∃ entry, d.entryAt p = .ok entry ∧ isSuch entry = true := by
  rw [leadsTo]
  split <;> simp_all

/-- Where a path leads is told by what is at its location, if it is followed the same. -/
theorem leadsTo_congr {d' : Disk} (hlocate : d'.locate p = d.locate p)
    (hget : d'.get? (d.resolve p) = d.get? (d.resolve p)) (isSuch : Entry → Bool) :
    d'.leadsTo p isSuch = d.leadsTo p isSuch := by
  have hentry : d'.entryAt p = d.entryAt p := by
    rw [entryAt, entryAt, hlocate]
    cases hl : d.locate p with
    | error cause => rfl
    | ok l =>
      obtain rfl := locate_eq_ok hl
      rw [ok_bind, ok_bind, hget]
  rw [leadsTo, leadsTo, hentry]

theorem isDirectory_eq_true_iff : d.isDirectory p = .ok true ↔ d.HasDirectory p := by
  rw [isDirectory, leadsTo_eq_true_iff]
  constructor
  · rintro ⟨entry, hentry, hsuch⟩
    cases entry with
    | directory => exact entryAt_eq_ok_iff.1 hentry
    | file => cases hsuch
  · exact fun h => ⟨.directory, entryAt_eq_ok_iff.2 h, rfl⟩

instance (d : Disk) (p : Path) : Decidable (d.HasDirectory p) :=
  decidable_of_iff _ isDirectory_eq_true_iff

/-- Whether a path that leads to a location leads to a file. -/
theorem isFile_of_locate (h : d.locate p = .ok l) : d.isFile p = .ok (d.bytesAt l).isSome := by
  obtain rfl := locate_eq_ok h
  cases hget : d.get? (d.resolve p) with
  | none =>
    have hentry : d.entryAt p = .error .notFound := by
      rw [entryAt, h, ok_bind, hget]
      rfl
    rw [isFile, leadsTo, hentry, bytesAt, hget]
    rfl
  | some entry =>
    rw [isFile, leadsTo, entryAt_eq_ok_iff.2 ⟨h, hget⟩, bytesAt, hget]
    cases entry <;> rfl

/-- Whether a path that leads nowhere leads to a file. -/
theorem isFile_of_locate_error {cause : Cause} (h : d.locate p = .error cause) :
    d.isFile p = if cause = .nameTooLong then .error ⟨.nameTooLong, p⟩ else .ok false := by
  have hentry : d.entryAt p = .error cause := by rw [entryAt, h]; rfl
  rw [isFile, leadsTo, hentry]
  cases cause <;> rfl

theorem holdsNull_of_locate (h : d.locate p = .ok l) : p.holdsNull = false := by
  have hflawless := (locate_eq_ok_iff.1 h).1
  rw [pathFlaw?] at hflawless
  split at hflawless
  · cases hflawless
  · rename_i hnull
    exact Bool.eq_false_iff.2 hnull

/-- A name in a directory can be looked up if it is known whether it is that of a file. -/
theorem fits_of_isFile {isFile : Bool} (hdir : d.HasDirectory p) (hname : IsName name)
    (hnull : name.contains '\x00' = false) (h : d.isFile (p.child name) = .ok isFile) :
    Fits p name := by
  cases hl : d.locate (p.child name) with
  | ok l => exact fits_of_locate hl hname
  | error cause =>
    have hlong : cause ≠ .nameTooLong := by
      rintro rfl
      rw [isFile_of_locate_error hl, if_pos rfl] at h
      cases h
    rw [locate_child hdir.1 hdir.2 hname, placeOf, pathFlaw?, Path.holdsNull_child p hname,
      holdsNull_of_locate hdir.1, hnull, Bool.false_or, if_neg Bool.false_ne_true] at hl
    -- Without a null character, the path or the name can only be too long.
    split at hl
    · rename_i hcause
      split at hcause
      · obtain rfl := Option.some.inj hcause
        exact absurd (Except.error.inj hl).symm hlong
      · cases hcause
    · split at hl
      · exact absurd (Except.error.inj hl).symm hlong
      · cases hl

theorem isFile_eq_true_iff : d.isFile p = .ok true ↔
    d.locate p = .ok (d.resolve p) ∧ d.bytesAt (d.resolve p) ≠ none := by
  cases hl : d.locate p with
  | error cause =>
    rw [isFile_of_locate_error hl]
    split <;> simp
  | ok l =>
    obtain rfl := locate_eq_ok hl
    rw [isFile_of_locate hl, Except.ok.injEq, Option.isSome_iff_ne_none]
    simp

theorem read_of_locate_error {cause : Cause} (h : d.locate p = .error cause) :
    d.read p = .error ⟨cause, p⟩ := by
  have hentry : d.entryAt p = .error cause := by rw [entryAt, h]; rfl
  rw [read, hentry]

theorem read_eq_ok_iff {content : ByteArray} : d.read p = .ok content ↔
    d.locate p = .ok (d.resolve p) ∧ d.bytesAt (d.resolve p) = some content := by
  rw [bytesAt_eq_some_iff, read]
  constructor
  · intro h
    split at h
    · rename_i modified hentry
      obtain ⟨hl, hget⟩ := entryAt_eq_ok_iff.1 hentry
      exact ⟨hl, modified, Except.ok.inj h ▸ hget⟩
    · cases h
    · cases h
  · rintro ⟨hl, modified, hget⟩
    rw [entryAt_eq_ok_iff.2 ⟨hl, hget⟩]

/-! ## Paths that are too long -/

/-- A path with too many bytes, or with a name of too many. -/
def IsLong (p : Path) : Prop :=
  pathLimit < p.text.byteSize ∨ ∃ name ∈ p.parts, nameLimit < name.byteSize

theorem exists_long_of_walk (h : d.walk l names = .error .nameTooLong) :
    ∃ name ∈ names, nameLimit < name.byteSize := by
  induction names generalizing l with
  | nil => cases h
  | cons name rest ih =>
    rw [walk] at h
    split at h
    · cases h
    · cases h
    · split at h
      · rename_i hlong
        exact ⟨name, List.mem_cons_self, hlong⟩
      · obtain ⟨name', hmem, hlong⟩ := ih h
        exact ⟨name', List.mem_cons_of_mem _ hmem, hlong⟩

theorem isLong_of_locate (h : d.locate p = .error .nameTooLong) : IsLong p := by
  rw [locate] at h
  split at h
  · cases h
  · split at h
    · rename_i hlong
      exact .inl hlong
    · exact .inr (exists_long_of_walk h)

/-- It is only of a path that is too long that the disk does not tell what it leads to. -/
theorem leadsTo_eq_error {isSuch : Entry → Bool} {e : Error} (h : d.leadsTo p isSuch = .error e) :
    e = ⟨.nameTooLong, p⟩ ∧ IsLong p := by
  rw [leadsTo] at h
  split at h
  · cases h
  · rename_i hentry
    refine ⟨(Except.error.inj h).symm, ?_⟩
    rcases bind_eq_error.1 hentry with hlocate | ⟨l, -, hfree⟩
    · exact isLong_of_locate hlocate
    · -- At a location that is found there is an entry or none.
      split at hfree <;> cases hfree
  · cases h

theorem isLong_of_leadsTo {isSuch : Entry → Bool} {e : Error} (h : d.leadsTo p isSuch = .error e) :
    IsLong e.path := by
  obtain ⟨rfl, hlong⟩ := leadsTo_eq_error h
  exact hlong

end Disk

end Marginalia
