import Mathlib.Data.List.Forall2
import Mathlib.Data.List.Induction
import Mathlib.Data.List.Nodup
import Mathlib.Data.List.Pairwise
import Marginalia.Proofs.Note.Fate

/-!
# Open and closed notes on the way

Lines that are taken in one after the other, in the order of their numbers, open and
close notes. The open notes are stacked in the order of their opening markers, no
two of them have the same id, and every opening marker is that of one open note or
of one closed one. Each line that closes a note or is one makes one note (`Tracks`).

* `Tracks.step`, `tracks_of_feedAll`: what every line keeps, and so all lines;
* `invariant_of_tracks`: what else every line keeps, and so all lines;
* `Tracks.exists_opened_eq_iff`: the open notes are those opened and not closed;
* `Tracks.exists_draft_of_isOpenAt`: a note that is open at a line is on the stack
  there.
-/

namespace Marginalia.Note

/-- A line that is taken in: its number and what it is. -/
structure Item where
  line : Int
  role : Role
  deriving DecidableEq, Repr

/-- A line of a text, as it is taken in. -/
def Item.ofReading (reading : Reading) : Item := ⟨reading.line.number, reading.role⟩

/-- Whether a line closes a note or is one. -/
def Item.makesNote (item : Item) : Bool :=
  match item.role with
  | .closing _ | .note _ | .plain _ (some _) => true
  | _ => false

/-- The number of an opening marker, with the id on it. -/
def Item.opener? (item : Item) : Option (Int × Option Text) :=
  match item.role with
  | .opening id _ => some (item.line, id)
  | _ => none

/-- The number of a closing marker. -/
def Item.closer? (item : Item) : Option Int :=
  match item.role with
  | .closing _ => some item.line
  | _ => none

/-- The note is the one that the line makes. -/
inductive IsMadeBy : Pending → Item → Prop
  /-- A closing marker ends a note between markers. -/
  | block {note : Pending} {line : Int} {id : Option Text} :
    note.form = .block → note.closed = line → IsMadeBy note ⟨line, .closing id⟩
  /-- A comment alone on its line is a note there. -/
  | line {line depth : Int} {text : Text} :
    IsMadeBy ⟨.line, line, line, text, none, depth, none⟩ ⟨line, .note text⟩
  /-- So is a remark after code. -/
  | inline {line depth : Int} {shown : Text} {remark : Remark} :
    IsMadeBy ⟨.inline, line, line, remark.text, none, depth, remark.column⟩
      ⟨line, .plain shown (some remark)⟩

/-- The note is opened before the line, and not closed before it. -/
def Pending.IsOpenAt (note : Pending) (line : Int) : Prop :=
  note.opened < line ∧ line ≤ note.closed

namespace Pairing

/-- Takes in lines one after the other. -/
def feedAll (p : Pairing) : List Item → Except Defect Pairing
  | [] => .ok p
  | item :: rest => do
    let next ← p.feed item.line item.role
    next.feedAll rest

variable {p q : Pairing} {item : Item} {items done before after : List Item} {line : Int}

theorem feedAll_cons_eq_ok_iff :
    p.feedAll (item :: items) = .ok q ↔
      ∃ p', Step p item.line item.role p' ∧ p'.feedAll items = .ok q := by
  simp only [feedAll, bind_eq_ok, feed, mapError_eq_ok, apply_eq_ok_iff]

theorem feedAll_append_eq_ok_iff :
    p.feedAll (before ++ after) = .ok q ↔
      ∃ p', p.feedAll before = .ok p' ∧ p'.feedAll after = .ok q := by
  induction before generalizing p with
  | nil => exact ⟨fun h => ⟨p, rfl, h⟩, fun ⟨_, hp, h⟩ => Except.ok.inj hp ▸ h⟩
  | cons item before ih =>
    simp only [List.cons_append, feedAll_cons_eq_ok_iff, ih]
    exact ⟨fun ⟨p', hs, p'', hp, h⟩ => ⟨p'', ⟨p', hs, hp⟩, h⟩,
      fun ⟨p'', ⟨p', hs, hp⟩, h⟩ => ⟨p', hs, p'', hp, h⟩⟩

/-- A closed note stays closed as it is. -/
theorem closed_isPrefix_of_feedAll (h : p.feedAll items = .ok q) : p.closed <+: q.closed := by
  induction items generalizing p with
  | nil =>
    obtain rfl := Except.ok.inj h
    exact List.prefix_refl _
  | cons item items ih =>
    obtain ⟨line, role⟩ := item
    obtain ⟨p', hs, h⟩ := feedAll_cons_eq_ok_iff.1 h
    refine List.IsPrefix.trans ?_ (ih h)
    cases hs with
    | plain | opening | body => exact List.prefix_refl _
    | remark | closing | note => exact List.prefix_append ..

/-! ## What every line keeps -/

/-- How the open and the closed notes come from the lines taken in. -/
structure Tracks (items : List Item) (p : Pairing) : Prop where
  /-- The innermost open note is the one opened last. -/
  ordered : p.stack.Pairwise fun a b => b.opened < a.opened
  /-- No two open notes have the same id. -/
  ids : p.stack.Pairwise fun a b => ∀ name, a.id = some name → b.id ≠ some name
  /-- Every opening marker is that of one note, open or closed, which has its id. -/
  opened : (p.stack.map (fun draft => (draft.opened, draft.id)) ++
    (blocksOf p.closed).map fun block => (block.opened, block.id)).Perm
      (items.filterMap (·.opener?))
  /-- Every line that closes a note or is one has made one note. -/
  made : List.Forall₂ IsMadeBy p.closed (items.filter (·.makesNote))
  opened_lt_closed : ∀ block ∈ blocksOf p.closed, block.opened < block.closed

theorem blocksOf_append (notes more : List Pending) :
    blocksOf (notes ++ more) = blocksOf notes ++ blocksOf more := List.filter_append ..

theorem blocksOf_concat_of_ne (notes : List Pending) {note : Pending} (h : note.form ≠ .block) :
    blocksOf (notes ++ [note]) = blocksOf notes := by
  rw [blocksOf_append, blocksOf, blocksOf, List.filter_singleton, beq_eq_false_iff_ne.2 h]
  exact List.append_nil _

/-- A note that is closed is a note between markers. -/
theorem blocksOf_concat_close (notes : List Pending) (draft : Draft) (line : Int) :
    blocksOf (notes ++ [draft.close line]) = blocksOf notes ++ [draft.close line] :=
  blocksOf_append _ _

namespace Tracks

theorem nil : Tracks [] {} :=
  ⟨.nil, .nil, .refl _, .nil, fun _ h => absurd h List.not_mem_nil⟩

/-- An open note was opened by one of the lines. -/
theorem exists_opening_of_mem_stack (h : Tracks items p) {draft : Draft} (hd : draft ∈ p.stack) :
    ∃ words, ⟨draft.opened, .opening draft.id words⟩ ∈ items := by
  have hmem := h.opened.subset (List.mem_append_left _ (List.mem_map_of_mem hd))
  obtain ⟨item, hitem, hopener⟩ := List.mem_filterMap.1 hmem
  obtain ⟨line, role⟩ := item
  cases role with
  | opening id words =>
    obtain ⟨rfl, rfl⟩ := Prod.mk.inj (Option.some.inj hopener)
    exact ⟨words, hitem⟩
  | plain | closing | body | note => cases hopener

theorem opened_lt (h : Tracks done p) (hbefore : ∀ other ∈ done, other.line < line) {draft : Draft}
    (hd : draft ∈ p.stack) : draft.opened < line := by
  obtain ⟨words, hitem⟩ := h.exists_opening_of_mem_stack hd
  exact hbefore _ hitem

/-- A line that is no opening marker and makes no note. -/
theorem quiet (h : Tracks done p) (hopener : item.opener? = none)
    (hmakes : item.makesNote = false) : Tracks (done ++ [item]) p := by
  refine ⟨h.ordered, h.ids, ?_, ?_, h.opened_lt_closed⟩
  · rw [filterMap_concat_of_none hopener]
    exact h.opened
  · rw [List.filter_append, List.filter_singleton, hmakes]
    simpa using h.made

/-- A line that is a note on a single line. -/
theorem single (h : Tracks done p) {note : Pending} (hform : note.form ≠ .block)
    (hopener : item.opener? = none) (hmakes : item.makesNote) (hmade : IsMadeBy note item) :
    Tracks (done ++ [item]) (p.add note) := by
  have hblocks := blocksOf_concat_of_ne p.closed hform
  refine ⟨h.ordered, h.ids, ?_, ?_, ?_⟩
  · rw [filterMap_concat_of_none hopener, add, hblocks]
    exact h.opened
  · rw [List.filter_append, List.filter_singleton, hmakes]
    exact List.rel_append h.made (.cons hmade .nil)
  · rw [add, hblocks]
    exact h.opened_lt_closed

/-- A line that opens a note. -/
theorem opening (h : Tracks done p) (hbefore : ∀ other ∈ done, other.line < line) {id : Option Text}
    {words : Text} (hfree : ∀ name, id = some name → ∀ draft ∈ p.stack, draft.id ≠ some name) :
    Tracks (done ++ [⟨line, .opening id words⟩])
      { p with stack := ⟨id, line, p.depth, words, []⟩ :: p.stack } := by
  refine ⟨List.pairwise_cons.2 ⟨fun _ => h.opened_lt hbefore, h.ordered⟩,
    List.pairwise_cons.2 ⟨fun draft hdraft name hid => hfree name hid draft hdraft, h.ids⟩, ?_, ?_,
    h.opened_lt_closed⟩
  · rw [List.filterMap_append]
    exact (h.opened.cons _).trans (List.perm_append_singleton _ _).symm
  · rw [List.filter_append]
    exact (List.append_nil _).symm ▸ h.made

/-- A line that closes a note. -/
theorem closing {above below : List Draft} {draft : Draft} {closed : List Pending}
    (h : Tracks done ⟨above ++ draft :: below, closed⟩)
    (hbefore : ∀ other ∈ done, other.line < line) (id : Option Text) :
    Tracks (done ++ [⟨line, .closing id⟩]) ⟨above ++ below, closed ++ [draft.close line]⟩ := by
  have hsub : (above ++ below).Sublist (above ++ draft :: below) :=
    (List.sublist_cons_self draft below).append_left above
  have hmem : draft ∈ above ++ draft :: below := List.mem_append_right _ List.mem_cons_self
  refine ⟨h.ordered.sublist hsub, h.ids.sublist hsub, ?_, ?_, ?_⟩
  · -- The draft goes from the open notes to the end of the closed ones.
    rw [filterMap_concat_of_none rfl, blocksOf_concat_close]
    refine List.Perm.trans ?_ h.opened
    simp only [List.map_append, List.map_cons, List.append_assoc]
    refine List.Perm.append_left _ ?_
    rw [← List.append_assoc, List.map_nil, List.cons_append]
    exact List.perm_append_singleton _ _
  · rw [List.filter_append]
    have hmade : IsMadeBy (draft.close line) ⟨line, .closing id⟩ := .block rfl rfl
    exact List.rel_append h.made (.cons hmade .nil)
  · rw [blocksOf_concat_close]
    exact List.forall_mem_append.2
      ⟨h.opened_lt_closed, List.forall_mem_singleton.2 (h.opened_lt hbefore hmem)⟩

theorem step {role : Role} (h : Tracks done p) (hbefore : ∀ other ∈ done, other.line < line)
    (hs : Step p line role q) : Tracks (done ++ [⟨line, role⟩]) q := by
  cases hs with
  | plain => exact h.quiet rfl rfl
  | remark => exact h.single (fun hform => nomatch hform) rfl rfl .inline
  | note => exact h.single (fun hform => nomatch hform) rfl rfl .line
  | opening hfree => exact h.opening hbefore hfree
  | closing => exact h.closing hbefore _
  | @body _ _ _ _ text =>
    -- The id and the line of the innermost note stay as they are.
    have hquiet : Tracks (done ++ [⟨line, .body text⟩]) _ := h.quiet rfl rfl
    have hordered := List.pairwise_cons.1 hquiet.ordered
    have hids := List.pairwise_cons.1 hquiet.ids
    exact ⟨List.pairwise_cons.2 hordered, List.pairwise_cons.2 hids, hquiet.opened, hquiet.made,
      hquiet.opened_lt_closed⟩

end Tracks

/-- The lines come in the order of their numbers. -/
def InOrder (items : List Item) : Prop := items.Pairwise fun a b => a.line < b.line

/-- What every line keeps, given that the lines taken in before it have smaller
    numbers, is kept by all lines. -/
theorem invariant_of_feedAll {I : List Item → Pairing → Prop} (nil : I [] {})
    (step : ∀ {done p line role q}, I done p → InOrder done →
      (∀ other ∈ done, other.line < line) → Step p line role q → I (done ++ [⟨line, role⟩]) q)
    (ho : InOrder items) (h : feedAll {} items = .ok p) : I items p := by
  induction items using List.reverseRecOn generalizing p with
  | nil =>
    obtain rfl := Except.ok.inj h
    exact nil
  | append_singleton items item ih =>
    obtain ⟨p', hbefore, hitem⟩ := feedAll_append_eq_ok_iff.1 h
    obtain ⟨p'', hs, hend⟩ := feedAll_cons_eq_ok_iff.1 hitem
    obtain rfl := Except.ok.inj hend
    obtain ⟨hitems, _, hlt⟩ := List.pairwise_append.1 ho
    have hlast : ∀ other ∈ items, other.line < item.line :=
      fun other hother => hlt other hother item List.mem_cons_self
    exact step (ih hitems hbefore) hitems hlast hs

/-- All lines keep what every line keeps. -/
theorem tracks_of_feedAll (ho : InOrder items) (h : feedAll {} items = .ok p) : Tracks items p :=
  invariant_of_feedAll .nil (fun htracks _ => htracks.step) ho h

/-- What every line keeps, given how the notes come from the lines before it, is kept by
    all lines. -/
theorem invariant_of_tracks {I : List Item → Pairing → Prop} (nil : I [] {})
    (step : ∀ {done p line role q}, I done p → InOrder done → Tracks done p →
      (∀ other ∈ done, other.line < line) → Step p line role q → I (done ++ [⟨line, role⟩]) q)
    (ho : InOrder items) (h : feedAll {} items = .ok p) : I items p := by
  have hnil : Tracks [] {} ∧ I [] {} := ⟨.nil, nil⟩
  refine (invariant_of_feedAll (I := fun items p => Tracks items p ∧ I items p) hnil ?_ ho h).2
  rintro done p line role q ⟨htracks, hI⟩ hdone hbefore hs
  exact ⟨htracks.step hbefore hs, step hI hdone htracks hbefore hs⟩

/-! ## Notes and their lines -/

namespace Tracks

/-- The notes are closed in the order of the lines. -/
theorem map_closed (h : Tracks items p) :
    p.closed.map (·.closed) = (items.filter (·.makesNote)).map (·.line) := by
  have heq : List.Forall₂ (fun note item => note.closed = item.line) p.closed
      (items.filter (·.makesNote)) := by
    refine h.made.imp fun note item hmade => ?_
    cases hmade with
    | block _ hclosed => exact hclosed
    | line | inline => rfl
  rwa [← List.forall₂_eq_eq_eq, List.forall₂_map_left_iff, List.forall₂_map_right_iff]

theorem pairwise_closed (h : Tracks items p) (ho : InOrder items) :
    p.closed.Pairwise fun a b => a.closed < b.closed := by
  have hlines : ((items.filter (·.makesNote)).map (·.line)).Pairwise (· < ·) :=
    List.pairwise_map.2 (List.Pairwise.sublist List.filter_sublist ho)
  rw [← h.map_closed] at hlines
  exact List.pairwise_map.1 hlines

/-- A closed note was closed on one of the lines. -/
theorem exists_mem_of_mem_closed (h : Tracks items p) {note : Pending} (hn : note ∈ p.closed) :
    ∃ item ∈ items, item.line = note.closed := by
  have hmem := List.mem_map_of_mem (f := (·.closed)) hn
  rw [h.map_closed] at hmem
  obtain ⟨item, hitem, hline⟩ := List.mem_map.1 hmem
  exact ⟨item, (List.mem_filter.1 hitem).1, hline⟩

/-- No two notes, open or closed, have the same opening marker. -/
theorem nodup_opened (h : Tracks items p) (ho : InOrder items) :
    (p.stack.map (·.opened) ++ (blocksOf p.closed).map (·.opened)).Nodup := by
  have hopeners : (items.filterMap (·.opener?)).Pairwise fun x y => x.1 < y.1 := by
    refine List.Pairwise.filterMap _ (fun a b hab x hx y hy => ?_) ho
    obtain ⟨line, role⟩ := a
    obtain ⟨line', role'⟩ := b
    cases role <;> cases hx
    cases role' <;> cases hy
    exact hab
  have hnodup : ((items.filterMap (·.opener?)).map (·.1)).Nodup :=
    List.pairwise_map.2 (hopeners.imp fun hlt => Int.ne_of_lt hlt)
  rwa [← (h.opened.map (·.1)).nodup_iff, List.map_append, List.map_map, List.map_map] at hnodup

theorem closed_lt (h : Tracks done p) (hbefore : ∀ other ∈ done, other.line < line) {note : Pending}
    (hn : note ∈ p.closed) : note.closed < line := by
  obtain ⟨item, hitem, hline⟩ := h.exists_mem_of_mem_closed hn
  rw [← hline]
  exact hbefore item hitem

theorem opened_le_closed (h : Tracks items p) {note : Pending} (hn : note ∈ p.closed) :
    note.opened ≤ note.closed := by
  obtain ⟨item, -, hmade⟩ := exists_mem_of_forall₂ h.made hn
  cases hmade with
  | block hform =>
    have hblock : note ∈ blocksOf p.closed := List.mem_filter.2 ⟨hn, beq_iff_eq.2 hform⟩
    exact Int.le_of_lt (h.opened_lt_closed note hblock)
  | line | inline => exact Int.le_refl _

/-- The opening markers of different notes are different. -/
theorem eq_of_opened_eq (h : Tracks items p) (ho : InOrder items) {block other : Pending}
    (hb : block ∈ blocksOf p.closed) (hother : other ∈ blocksOf p.closed)
    (heq : block.opened = other.opened) : block = other :=
  List.inj_on_of_nodup_map (List.nodup_append.1 (h.nodup_opened ho)).2.1 hb hother heq

/-- An open note and a closed one have different opening markers. -/
theorem opened_ne (h : Tracks items p) (ho : InOrder items) {draft : Draft} {block : Pending}
    (hd : draft ∈ p.stack) (hb : block ∈ blocksOf p.closed) : draft.opened ≠ block.opened :=
  (List.nodup_append.1 (h.nodup_opened ho)).2.2 _ (List.mem_map_of_mem hd) _
    (List.mem_map_of_mem hb)

/-- The open notes are those that were opened and that no line has closed. -/
theorem exists_opened_eq_iff (h : Tracks items p) (ho : InOrder items) :
    (∃ draft ∈ p.stack, draft.opened = line) ↔
      (∃ id words, ⟨line, .opening id words⟩ ∈ items) ∧
        ∀ block ∈ blocksOf p.closed, block.opened ≠ line := by
  constructor
  · rintro ⟨draft, hdraft, rfl⟩
    obtain ⟨words, hitem⟩ := h.exists_opening_of_mem_stack hdraft
    exact ⟨⟨_, words, hitem⟩, fun block hb => (h.opened_ne ho hdraft hb).symm⟩
  · rintro ⟨⟨id, words, hitem⟩, hblocks⟩
    have hmem := h.opened.symm.subset (List.mem_filterMap.2 ⟨_, hitem, rfl⟩)
    rcases List.mem_append.1 hmem with hdraft | hblock
    · obtain ⟨draft, hdraft, hkey⟩ := List.mem_map.1 hdraft
      exact ⟨draft, hdraft, (Prod.mk.inj hkey).1⟩
    · obtain ⟨block, hblock, hkey⟩ := List.mem_map.1 hblock
      exact absurd (Prod.mk.inj hkey).1 (hblocks block hblock)

/-- Open notes with the same id are the same. -/
theorem eq_of_id_eq (h : Tracks items p) {draft other : Draft} (hd : draft ∈ p.stack)
    (hother : other ∈ p.stack) {name : Text} (hid : draft.id = some name)
    (hid' : other.id = some name) : draft = other := by
  by_contra hne
  have : Std.Symm fun a b : Draft => ∀ name, a.id = some name → b.id ≠ some name :=
    ⟨fun a b hab name hb ha => hab name ha hb⟩
  exact h.ids.forall hd hother hne name hid hid'

/-- A note that is open at a line was on the stack before the line was taken in. -/
theorem exists_draft_of_isOpenAt (hp : Tracks before p) (hq : Tracks (before ++ after) q)
    (ho : InOrder (before ++ after)) (hclosed : p.closed <+: q.closed)
    (hbefore : ∀ item ∈ before, item.line < line) (hafter : ∀ item ∈ after, line ≤ item.line)
    {block : Pending} (hb : block ∈ blocksOf q.closed) (hopen : block.IsOpenAt line) :
    ∃ draft ∈ p.stack, draft.opened = block.opened ∧ draft.id = block.id := by
  obtain ⟨hlt, hle⟩ := hopen
  have hmem := hq.opened.subset (List.mem_append_right _ (List.mem_map_of_mem hb))
  obtain ⟨item, hitem, hopener⟩ := List.mem_filterMap.1 hmem
  -- Its opening marker is before the line.
  have hitem' : item ∈ before := by
    refine (List.mem_append.1 hitem).resolve_right fun hitem => ?_
    have hline : item.line = block.opened := by
      obtain ⟨line, role⟩ := item
      cases role <;> cases hopener
      rfl
    have := hafter item hitem
    omega
  have hmem' := hp.opened.symm.subset (List.mem_filterMap.2 ⟨item, hitem', hopener⟩)
  rcases List.mem_append.1 hmem' with hdraft | hblock
  · obtain ⟨draft, hdraft, hkey⟩ := List.mem_map.1 hdraft
    exact ⟨draft, hdraft, Prod.mk.inj hkey⟩
  · -- Were it closed by then, its closing marker would be before the line too.
    obtain ⟨other, hother, hkey⟩ := List.mem_map.1 hblock
    obtain ⟨hother, hform⟩ := List.mem_filter.1 hother
    have hsame := hq.eq_of_opened_eq ho (List.mem_filter.2 ⟨hclosed.subset hother, hform⟩) hb
      (Prod.mk.inj hkey).1
    obtain ⟨closer, hcloser, hline⟩ := hp.exists_mem_of_mem_closed hother
    have := hbefore closer hcloser
    rw [hsame] at hline
    omega

end Tracks

/-- The lines before a number and the others. -/
theorem InOrder.exists_append (ho : InOrder items) (line : Int) :
    ∃ before after, items = before ++ after ∧ (∀ item ∈ before, item.line < line) ∧
      ∀ item ∈ after, line ≤ item.line := by
  induction items with
  | nil => exact ⟨[], [], rfl, by simp, by simp⟩
  | cons item items ih =>
    obtain ⟨hlt, hitems⟩ := List.pairwise_cons.1 ho
    by_cases hline : item.line < line
    · obtain ⟨before, after, rfl, hbefore, hafter⟩ := ih hitems
      exact ⟨item :: before, after, rfl, List.forall_mem_cons.2 ⟨hline, hbefore⟩, hafter⟩
    · refine ⟨[], item :: items, rfl, by simp, List.forall_mem_cons.2 ⟨by omega, ?_⟩⟩
      intro other hother
      have := hlt other hother
      omega

/-! ## Lines of a text -/

theorem Run.feedAll {readings : List Reading} (h : Run p readings q) :
    p.feedAll (readings.map Item.ofReading) = .ok q := by
  induction h with
  | nil => rfl
  | cons hs _ ih => exact feedAll_cons_eq_ok_iff.2 ⟨_, hs, ih⟩

theorem Ordered.inOrder {readings : List Reading} (h : Ordered readings) :
    InOrder (readings.map Item.ofReading) :=
  List.pairwise_map.2 (h.imp Int.ofNat_lt.2)

end Pairing

end Marginalia.Note
