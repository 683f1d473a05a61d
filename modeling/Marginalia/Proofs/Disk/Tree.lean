import Mathlib.Data.List.Infix
import Marginalia.Proofs.Disk.Path

/-!
# Trees

The entries of a disk make a tree (`IsTree`): a location has one entry and is
spelled by names, and all that lies on the way to it is directories
(`IsTree.directory_of_isPrefix`). What a directory holds is then told by what is at
each location (`mem_childrenOf_iff`, `mem_filesBelow_iff`, `mem_directoriesBelow_iff`). A
new entry in a directory and the loss of a file leave a tree (`IsTree.put`,
`IsTree.remove`).
-/

namespace Marginalia.Disk

/-- The entries of a disk make a tree. -/
structure IsTree (d : Disk) : Prop where
  /-- Each location has one entry. -/
  nodup : (d.entries.map (·.1)).Nodup
  /-- A location is spelled by names. -/
  isName : ∀ l entry, d.get? l = some entry → ∀ name ∈ l, IsName name
  /-- An entry is in a directory. -/
  parent : ∀ l entry, d.get? l = some entry → d.get? l.dropLast = some .directory
  /-- The working directory is there. -/
  working : d.get? d.working = some .directory

/-- A location where an entry can be put: that of a name in a directory. -/
structure HasPlace (d : Disk) (l : Location) : Prop where
  ne_nil : l ≠ []
  parent : d.get? l.dropLast = some .directory
  isName : ∀ name ∈ l, IsName name

variable {d : Disk} {l l' : Location} {entry : Entry} {name : Text} {names : List Text}
  {content : ByteArray} {modified : Int}

/-! ## What there is -/

theorem get?_of_ne_nil (d : Disk) (h : l ≠ []) : d.get? l = d.entries.lookup l := by
  rw [get?, List.isEmpty_eq_false_iff.2 h]
  rfl

theorem mem_entries_iff (hd : (d.entries.map (·.1)).Nodup) (hl : l ≠ []) :
    (l, entry) ∈ d.entries ↔ d.get? l = some entry := by
  rw [get?_of_ne_nil d hl, List.lookup_eq_some_iff]
  constructor
  · intro h
    obtain ⟨before, after, heq⟩ := List.append_of_mem h
    refine ⟨before, after, heq, fun other hother => bne_iff_ne.2 fun hsame => ?_⟩
    rw [heq, List.map_append, List.map_cons, List.nodup_append] at hd
    exact hd.2.2 other.1 (List.mem_map_of_mem hother) l List.mem_cons_self hsame.symm
  · rintro ⟨before, after, heq, -⟩
    exact heq ▸ List.mem_append_right _ List.mem_cons_self

instance (d : Disk) (l : Location) : Decidable (d.get? l = some .directory) :=
  match d.get? l with
  | some .directory => isTrue rfl
  | some (.file _ _) => isFalse (by simp)
  | none => isFalse (by simp)

instance (d : Disk) (l : Location) : Decidable (d.HasPlace l) :=
  decidable_of_iff (l ≠ [] ∧ d.get? l.dropLast = some .directory ∧ ∀ name ∈ l, IsName name)
    ⟨fun ⟨hne, hparent, hname⟩ => ⟨hne, hparent, hname⟩,
      fun h => ⟨h.ne_nil, h.parent, h.isName⟩⟩

/-- Whether the entries of a disk make a tree is told by looking at each of them. -/
theorem isTree_iff : d.IsTree ↔ (d.entries.map (·.1)).Nodup ∧ (∀ e ∈ d.entries, e.1 ≠ [] →
    (∀ name ∈ e.1, IsName name) ∧ d.get? e.1.dropLast = some .directory) ∧
      d.get? d.working = some .directory := by
  constructor
  · intro h
    refine ⟨h.nodup, fun e he hne => ?_, h.working⟩
    have hget := (mem_entries_iff h.nodup hne).1 he
    exact ⟨h.isName _ _ hget, h.parent _ _ hget⟩
  · rintro ⟨hnodup, hall, hworking⟩
    refine ⟨hnodup, fun l entry hget => ?_, fun l entry hget => ?_, hworking⟩
    · by_cases hl : l = []
      · exact hl ▸ fun name hname => absurd hname List.not_mem_nil
      · exact (hall _ ((mem_entries_iff hnodup hl).2 hget) hl).1
    · by_cases hl : l = []
      · exact hl ▸ rfl
      · exact (hall _ ((mem_entries_iff hnodup hl).2 hget) hl).2

instance (d : Disk) : Decidable d.IsTree := decidable_of_iff _ isTree_iff.symm

theorem mem_childrenOf_iff (hd : (d.entries.map (·.1)).Nodup) :
    (name, entry) ∈ d.childrenOf l ↔ d.get? (l ++ [name]) = some entry := by
  rw [← mem_entries_iff hd (List.append_ne_nil_of_right_ne_nil l (List.cons_ne_nil name [])),
    childrenOf, List.mem_filterMap]
  constructor
  · rintro ⟨⟨other, entry'⟩, hmem, h⟩
    dsimp only at h
    split at h
    · rename_i name' hstart
      obtain ⟨rfl, rfl⟩ := Prod.mk.inj (Option.some.inj h)
      rwa [List.append_eq_of_isPrefixOf?_eq_some hstart]
    · cases h
  · intro hmem
    have hstart : l.isPrefixOf? (l ++ [name]) = some [name] :=
      List.isPrefixOf?_eq_some_iff_append_eq.2 rfl
    exact ⟨_, hmem, by simp only [hstart]⟩

/-- The names in a directory differ. -/
theorem nodup_childrenOf (hd : (d.entries.map (·.1)).Nodup) (l : Location) :
    ((d.childrenOf l).map (·.1)).Nodup := by
  rw [List.nodup_iff_pairwise_ne, List.pairwise_map] at hd ⊢
  rw [childrenOf, List.pairwise_filterMap]
  refine hd.imp ?_
  rintro ⟨_, entry⟩ ⟨_, entry'⟩ hne child hchild child' hchild' hsame
  refine hne ?_
  dsimp only at hchild hchild' ⊢
  split at hchild
  · rename_i name hstart
    split at hchild'
    · rename_i name' hstart'
      obtain rfl := Option.some.inj hchild
      obtain rfl := Option.some.inj hchild'
      obtain rfl : name = name' := hsame
      rw [← List.append_eq_of_isPrefixOf?_eq_some hstart,
        ← List.append_eq_of_isPrefixOf?_eq_some hstart']
    · cases hchild'
  · cases hchild

theorem mem_filesBelow_iff (hd : (d.entries.map (·.1)).Nodup) :
    (names, content, modified) ∈ d.filesBelow l ↔
      names ≠ [] ∧ d.get? (l ++ names) = some (.file content modified) := by
  rw [filesBelow, List.mem_filterMap]
  constructor
  · rintro ⟨⟨other, entry⟩, hmem, h⟩
    dsimp only at h
    split at h
    · rename_i name rest content' modified' hstart
      obtain ⟨rfl, hrest⟩ := Prod.mk.inj (Option.some.inj h)
      obtain ⟨rfl, rfl⟩ := Prod.mk.inj hrest
      rw [← List.append_eq_of_isPrefixOf?_eq_some hstart] at hmem
      have hne := List.append_ne_nil_of_right_ne_nil l (List.cons_ne_nil name rest)
      exact ⟨List.cons_ne_nil _ _, (mem_entries_iff hd hne).1 hmem⟩
    · cases h
  · rintro ⟨hne, hget⟩
    obtain ⟨name, rest, rfl⟩ := List.exists_cons_of_ne_nil hne
    have hmem := (mem_entries_iff hd (List.append_ne_nil_of_right_ne_nil l hne)).2 hget
    have hstart : l.isPrefixOf? (l ++ name :: rest) = some (name :: rest) :=
      List.isPrefixOf?_eq_some_iff_append_eq.2 rfl
    exact ⟨_, hmem, by simp only [hstart]⟩

theorem mem_directoriesBelow_iff (hd : (d.entries.map (·.1)).Nodup) :
    names ∈ d.directoriesBelow l ↔ names ≠ [] ∧ d.get? (l ++ names) = some .directory := by
  rw [directoriesBelow, List.mem_filterMap]
  constructor
  · rintro ⟨⟨other, entry⟩, hmem, h⟩
    dsimp only at h
    split at h
    · rename_i name rest hstart
      obtain rfl := Option.some.inj h
      rw [← List.append_eq_of_isPrefixOf?_eq_some hstart] at hmem
      have hne := List.append_ne_nil_of_right_ne_nil l (List.cons_ne_nil name rest)
      exact ⟨List.cons_ne_nil _ _, (mem_entries_iff hd hne).1 hmem⟩
    · cases h
  · rintro ⟨hne, hget⟩
    obtain ⟨name, rest, rfl⟩ := List.exists_cons_of_ne_nil hne
    have hmem := (mem_entries_iff hd (List.append_ne_nil_of_right_ne_nil l hne)).2 hget
    have hstart : l.isPrefixOf? (l ++ name :: rest) = some (name :: rest) :=
      List.isPrefixOf?_eq_some_iff_append_eq.2 rfl
    exact ⟨_, hmem, by simp only [hstart]⟩

/-- On the way to an entry there are directories only. -/
theorem IsTree.directory_of_isPrefix (ht : d.IsTree) (hget : d.get? l' = some entry)
    (hl : l <+: l') (hne : l ≠ l') : d.get? l = some .directory := by
  induction l' using List.reverseRecOn generalizing entry with
  | nil => exact absurd (List.prefix_nil.1 hl) hne
  | append_singleton init last ih =>
    have hparent := ht.parent _ _ hget
    rw [List.dropLast_concat] at hparent
    rcases List.prefix_concat_iff.1 hl with hl | hl
    · exact absurd hl hne
    · by_cases hinit : l = init
      · exact hinit ▸ hparent
      · exact ih hparent hl hinit

/-! ## New entries and lost files -/

theorem lookup_filter_key (entries : List (Location × Entry)) (keeps : Location → Bool) :
    (entries.filter (keeps ·.1)).lookup l = if keeps l then entries.lookup l else none := by
  induction entries with
  | nil => simp
  | cons first rest ih =>
    obtain ⟨other, entry⟩ := first
    by_cases hl : l = other
    · subst hl
      by_cases hk : keeps l = true
      · simp [hk]
      · simp [hk, ih]
    · by_cases hk : keeps other = true
      · simp [List.lookup_cons, hk, beq_false_of_ne hl, ih]
      · simp [List.lookup_cons, hk, beq_false_of_ne hl, ih]

/-- What is lost with a location is what is there and below it. -/
theorem get?_remove (d : Disk) (hl : l ≠ []) (l' : Location) :
    (d.remove l).get? l' = if l <+: l' then none else d.get? l' := by
  by_cases hl' : l' = []
  · subst hl'
    rw [if_neg fun h => hl (List.prefix_nil.1 h)]
    rfl
  · rw [get?_of_ne_nil _ hl', get?_of_ne_nil _ hl', remove,
      lookup_filter_key d.entries (!l.isPrefixOf ·)]
    by_cases h : l <+: l'
    · rw [if_pos h, List.isPrefixOf_iff_prefix.2 h]
      rfl
    · rw [if_neg h, Bool.eq_false_iff.2 fun h' => h (List.isPrefixOf_iff_prefix.1 h')]
      rfl

/-- Nothing is lost with a file but the file. -/
theorem IsTree.get?_remove_of_ne (ht : d.IsTree) (hfile : d.get? l = some (.file content modified))
    (hne : l' ≠ l) : (d.remove l).get? l' = d.get? l' := by
  have hl : l ≠ [] := by rintro rfl; cases hfile
  rw [get?_remove d hl]
  split
  · rename_i hstart
    cases hget : d.get? l' with
    | none => rfl
    | some entry =>
      have := ht.directory_of_isPrefix hget hstart hne.symm
      rw [hfile] at this
      cases this
  · rfl

/-- A disk stays a tree if an entry takes a place that no directory has. -/
theorem IsTree.put (ht : d.IsTree) (hl : d.HasPlace l) (hfree : d.get? l ≠ some .directory)
    (entry : Entry) : (d.put l entry).IsTree := by
  have hdirectory : ∀ {l'}, d.get? l' = some .directory →
      (d.put l entry).get? l' = some .directory := by
    intro l' h
    rw [get?_put_of_ne d entry (by rintro rfl; exact hfree h)]
    exact h
  refine ⟨?_, fun l' entry' h => ?_, fun l' entry' h => hdirectory ?_, hdirectory ht.working⟩
  · have hsub : ((d.entries.filter (·.1 != l)).map (·.1)).Nodup :=
      ht.nodup.sublist (List.filter_sublist.map _)
    refine List.nodup_cons.2 ⟨fun hmem => ?_, hsub⟩
    obtain ⟨other, hother, hsame⟩ := List.mem_map.1 hmem
    exact bne_iff_ne.1 (List.mem_filter.1 hother).2 hsame
  · by_cases hsame : l' = l
    · exact hsame ▸ hl.isName
    · rw [get?_put_of_ne d entry hsame] at h
      exact ht.isName l' entry' h
  · by_cases hsame : l' = l
    · exact hsame ▸ hl.parent
    · rw [get?_put_of_ne d entry hsame] at h
      exact ht.parent l' entry' h

/-- A disk stays a tree without one of its files. -/
theorem IsTree.remove (ht : d.IsTree) (hfile : d.get? l = some (.file content modified)) :
    (d.remove l).IsTree := by
  have hl : l ≠ [] := by rintro rfl; cases hfile
  have hold : ∀ {l' entry}, (d.remove l).get? l' = some entry → d.get? l' = some entry := by
    intro l' entry h
    rw [get?_remove d hl] at h
    split at h
    · cases h
    · exact h
  have hdirectory : ∀ {l'}, d.get? l' = some .directory →
      (d.remove l).get? l' = some .directory := by
    intro l' h
    rw [ht.get?_remove_of_ne hfile (by rintro rfl; rw [hfile] at h; cases h)]
    exact h
  exact ⟨ht.nodup.sublist (List.filter_sublist.map _), fun l' entry h => ht.isName l' entry (hold h),
    fun l' entry h => hdirectory (ht.parent l' entry (hold h)), hdirectory ht.working⟩

/-! ## Places that paths lead to -/

theorem directory_of_walk_cons (h : d.walk l (name :: names) = .ok l') :
    d.get? l = some .directory := by
  rw [walk] at h
  split at h
  · cases h
  · cases h
  · assumption

/-- A way from a directory ends at a directory or at a place in one. -/
theorem IsTree.place_of_walk (ht : d.IsTree) (hl : d.get? l = some .directory)
    (hnames : ∀ part ∈ names, part = up ∨ IsName part) (h : d.walk l names = .ok l') :
    d.get? l' = some .directory ∨ d.HasPlace l' := by
  induction names generalizing l with
  | nil => exact .inl (Except.ok.inj h ▸ hl)
  | cons name rest ih =>
    obtain ⟨hname, hrest⟩ := List.forall_mem_cons.1 hnames
    rw [walk, hl] at h
    dsimp only at h
    split at h
    · cases h
    · cases rest with
      | cons => exact ih (directory_of_walk_cons h) hrest h
      | nil =>
        obtain rfl := Except.ok.inj h
        rcases hname with rfl | hname
        · -- The way up leads to the directory that the last one is in.
          exact .inl (ht.parent l _ hl)
        · rw [stepTo_of_isName l hname]
          refine .inr ⟨by simp, by rwa [List.dropLast_concat], fun part hpart => ?_⟩
          rcases List.mem_append.1 hpart with hpart | hpart
          · exact ht.isName l _ hl part hpart
          · exact List.mem_singleton.1 hpart ▸ hname

/-- What there is below a location is found from there, unless a name is too long. -/
theorem IsTree.walk_below (ht : d.IsTree) (hget : d.get? (l ++ names) = some entry) :
    d.walk l names = .ok (l ++ names) ∨ d.walk l names = .error .nameTooLong := by
  induction names generalizing l with
  | nil => exact .inl (by rw [List.append_nil]; rfl)
  | cons name rest ih =>
    have hl : d.get? l = some .directory :=
      ht.directory_of_isPrefix hget (List.prefix_append l _) (by simp)
    have hname : IsName name := ht.isName _ _ hget name (by simp)
    rw [walk, hl]
    dsimp only
    split
    · exact .inr rfl
    · rw [stepTo_of_isName l hname]
      have hrest := @ih (l ++ [name]) (by rwa [List.append_assoc])
      rwa [List.append_assoc] at hrest

theorem IsTree.place_of_locate {p : Path} (ht : d.IsTree) (h : d.locate p = .ok l) :
    d.get? l = some .directory ∨ d.HasPlace l := by
  refine ht.place_of_walk ?_ (fun _ => p.eq_up_or_isName) (locate_eq_ok_iff.1 h).2
  rw [startOf]
  split
  · rfl
  · exact ht.working

end Marginalia.Disk
