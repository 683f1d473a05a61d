import Marginalia.Proofs.Note.Tracking

/-!
# Which marker closes which note

Once no note is left open, every opening marker is that of a note and so is every
closing marker (`PairsUp`). A closing marker finds its note among those that are open
before it: the one opened last, or the only one with its id.

* `exists_closes`: the note that a closing marker closes was on the stack;
* `markers_pair_up`: what each closing marker closes.
-/

namespace Marginalia.Note.Pairing

variable {p q : Pairing} {items : List Item} {line : Int}

/-- The markers on the lines and the notes made of them pair up. -/
structure PairsUp (items : List Item) (notes : List Pending) : Prop where
  /-- Every closing marker, every note of one line and every remark makes one note,
      and no other line makes any. -/
  made : List.Forall₂ IsMadeBy notes (items.filter (·.makesNote))
  ordered : notes.Pairwise fun a b => a.closed < b.closed
  /-- Every opening marker is that of one note between markers, which has its id. -/
  opened : ((blocksOf notes).map fun block => (block.opened, block.id)).Perm
    (items.filterMap (·.opener?))
  /-- Every closing marker is that of one note between markers. -/
  closed : (blocksOf notes).map (·.closed) = items.filterMap (·.closer?)
  opened_lt_closed : ∀ block ∈ blocksOf notes, block.opened < block.closed
  /-- A closing marker without an id closes the note opened last of those still open. -/
  innermost : ∀ block ∈ blocksOf notes, ⟨block.closed, .closing none⟩ ∈ items →
    ∀ other ∈ blocksOf notes, other.IsOpenAt block.closed → other.opened ≤ block.opened
  /-- A closing marker with an id closes a note with that id. -/
  named : ∀ block ∈ blocksOf notes, ∀ name, ⟨block.closed, .closing (some name)⟩ ∈ items →
    block.id = some name
  /-- At no line is more than one note with the same id open. -/
  unique : ∀ block ∈ blocksOf notes, ∀ other ∈ blocksOf notes, ∀ line name,
    block.IsOpenAt line → other.IsOpenAt line → block.id = some name → other.id = some name →
      block = other

/-- The note that a closing marker closes was on the stack before it. -/
theorem exists_closes (ho : InOrder items) (hfeed : feedAll {} items = .ok q) {block : Pending}
    (hb : block ∈ blocksOf q.closed) {id : Option Text}
    (hitem : ⟨block.closed, .closing id⟩ ∈ items) :
    ∃ before after p, items = before ++ after ∧ feedAll {} before = .ok p ∧
      (∀ item ∈ before, item.line < block.closed) ∧ (∀ item ∈ after, block.closed ≤ item.line) ∧
      ∃ above draft below, p.stack = above ++ draft :: below ∧ Closes id above draft ∧
        draft.opened = block.opened ∧ draft.id = block.id := by
  obtain ⟨before, rest, rfl⟩ := List.append_of_mem hitem
  obtain ⟨p, hbefore, hrest⟩ := feedAll_append_eq_ok_iff.1 hfeed
  obtain ⟨p', hs, hend⟩ := feedAll_cons_eq_ok_iff.1 hrest
  have hq := tracks_of_feedAll ho hfeed
  obtain ⟨_, hcons, hlt⟩ := List.pairwise_append.1 ho
  refine ⟨before, _, p, rfl, hbefore, fun item hi => hlt item hi _ List.mem_cons_self, ?_, ?_⟩
  · exact List.forall_mem_cons.2 ⟨Int.le_refl _, fun item hi =>
      Int.le_of_lt ((List.pairwise_cons.1 hcons).1 item hi)⟩
  cases hs with
  | @closing above below draft closed _ _ hcloses =>
    refine ⟨above, draft, below, rfl, hcloses, ?_⟩
    -- The note it closes is closed on the same line, so it is the block.
    have hmem : draft.close block.closed ∈ q.closed :=
      (closed_isPrefix_of_feedAll hend).subset (List.mem_append_right _ List.mem_cons_self)
    have hnodup : (q.closed.map (·.closed)).Nodup :=
      List.pairwise_map.2 ((hq.pairwise_closed ho).imp fun hlt => Int.ne_of_lt hlt)
    have hsame := List.inj_on_of_nodup_map hnodup hmem (List.mem_filter.1 hb).1 rfl
    exact ⟨congrArg Pending.opened hsame, congrArg Pending.id hsame⟩

/-- A closing marker without an id closes the note opened last of those still open. -/
theorem opened_le_of_isOpenAt (ho : InOrder items) (hfeed : feedAll {} items = .ok q)
    {block other : Pending} (hb : block ∈ blocksOf q.closed)
    (hitem : ⟨block.closed, .closing none⟩ ∈ items) (hother : other ∈ blocksOf q.closed)
    (hopen : other.IsOpenAt block.closed) : other.opened ≤ block.opened := by
  obtain ⟨before, after, p, rfl, hbefore, hlt, hle, hstacked⟩ := exists_closes ho hfeed hb hitem
  obtain ⟨above, draft, below, hstack, hcloses, hopened, _⟩ := hstacked
  obtain ⟨p', hbefore', hafter⟩ := feedAll_append_eq_ok_iff.1 hfeed
  obtain rfl := Except.ok.inj (hbefore.symm.trans hbefore')
  have htracks := tracks_of_feedAll (List.pairwise_append.1 ho).1 hbefore
  obtain ⟨draft', hdraft', hopened', _⟩ := htracks.exists_draft_of_isOpenAt
    (tracks_of_feedAll ho hfeed) ho (closed_isPrefix_of_feedAll hafter) hlt hle hother hopen
  -- The note it closes is on top of the stack, and the other is on it or below.
  obtain rfl : above = [] := hcloses
  have hordered := htracks.ordered
  rw [hstack, List.nil_append] at hdraft' hordered
  rcases List.mem_cons.1 hdraft' with rfl | hdraft'
  · omega
  · have := (List.pairwise_cons.1 hordered).1 draft' hdraft'
    omega

/-- Notes with the same id that are open at the same line are the same. -/
theorem eq_of_isOpenAt (ho : InOrder items) (hfeed : feedAll {} items = .ok q)
    {block other : Pending} (hb : block ∈ blocksOf q.closed) (hother : other ∈ blocksOf q.closed)
    {name : Text} (hopen : block.IsOpenAt line) (hopen' : other.IsOpenAt line)
    (hid : block.id = some name) (hid' : other.id = some name) : block = other := by
  obtain ⟨before, after, rfl, hlt, hle⟩ := ho.exists_append line
  obtain ⟨p, hbefore, hafter⟩ := feedAll_append_eq_ok_iff.1 hfeed
  have hp := tracks_of_feedAll (List.pairwise_append.1 ho).1 hbefore
  have hq := tracks_of_feedAll ho hfeed
  have hclosed := closed_isPrefix_of_feedAll hafter
  obtain ⟨draft, hdraft, hopened, hname⟩ :=
    hp.exists_draft_of_isOpenAt hq ho hclosed hlt hle hb hopen
  obtain ⟨draft', hdraft', hopened', hname'⟩ :=
    hp.exists_draft_of_isOpenAt hq ho hclosed hlt hle hother hopen'
  have hsame := hp.eq_of_id_eq hdraft hdraft' (hname.trans hid) (hname'.trans hid')
  exact hq.eq_of_opened_eq ho hb hother (by rw [← hopened, hsame, hopened'])

theorem map_closed_blocksOf {notes : List Pending} (h : List.Forall₂ IsMadeBy notes items) :
    (blocksOf notes).map (·.closed) = items.filterMap (·.closer?) := by
  induction h with
  | nil => rfl
  | @cons note item notes items hmade _ ih =>
    rw [blocksOf, List.filter_cons, List.filterMap_cons]
    cases hmade with
    | block hform hclosed =>
      rw [if_pos (beq_iff_eq.2 hform), List.map_cons, hclosed]
      exact congrArg _ ih
    | line | inline => exact ih

theorem filterMap_closer?_filter (items : List Item) :
    (items.filter (·.makesNote)).filterMap (·.closer?) = items.filterMap (·.closer?) := by
  rw [List.filterMap_filter]
  congr 1
  funext ⟨line, role⟩
  cases role with
  | plain shown remark => cases remark <;> rfl
  | opening | closing | body | note => rfl

/-- Whatever lines are taken in, in the order of their numbers, if no note is left
    open in the end, their markers pair up. -/
theorem markers_pair_up {notes : List Pending} (ho : InOrder items)
    (hfeed : feedAll {} items = .ok p) (hfinish : p.finish = .ok notes) : PairsUp items notes := by
  have htracks := tracks_of_feedAll ho hfeed
  obtain ⟨stack, closed⟩ := p
  cases stack with
  | cons => cases hfinish
  | nil =>
    obtain rfl := Except.ok.inj hfinish
    refine ⟨htracks.made, htracks.pairwise_closed ho, htracks.opened, ?_, htracks.opened_lt_closed,
      fun _ hb hitem _ hother => opened_le_of_isOpenAt ho hfeed hb hitem hother,
      fun block hb name hitem => ?_, fun _ hb _ hother _ _ => eq_of_isOpenAt ho hfeed hb hother⟩
    · rw [map_closed_blocksOf htracks.made, filterMap_closer?_filter]
    · obtain ⟨_, _, p, _, _, _, _, above, draft, below, _, hcloses, _, hid⟩ :=
        exists_closes ho hfeed hb hitem
      rw [← hid]
      exact hcloses.1

/-- Three notes of which the one with an id is closed while one opened after it is
    still open, with a remark and a note of one line. -/
def crossingItems : List Item :=
  [⟨-1, .opening none "A".toList⟩, ⟨0, .opening (some "b".toList) []⟩, ⟨2, .body "B".toList⟩,
    ⟨3, .opening none "C".toList⟩, ⟨4, .plain "x".toList (some ⟨"n".toList, some 1⟩)⟩,
    ⟨7, .closing (some "b".toList)⟩, ⟨8, .note "m".toList⟩, ⟨9, .closing none⟩, ⟨12, .closing none⟩]

def crossingNotes : List Pending :=
  [⟨.inline, 4, 4, "n".toList, none, 3, some 1⟩,
    ⟨.block, 0, 7, "B".toList, some "b".toList, 1, none⟩, ⟨.line, 8, 8, "m".toList, none, 2, none⟩,
    ⟨.block, 3, 9, "C".toList, none, 2, none⟩, ⟨.block, -1, 12, "A".toList, none, 0, none⟩]

theorem markers_pair_up_crossing :
    InOrder crossingItems ∧ feedAll {} crossingItems = .ok ⟨[], crossingNotes⟩ ∧
      finish ⟨[], crossingNotes⟩ = .ok crossingNotes ∧ PairsUp crossingItems crossingNotes :=
  have ho : InOrder crossingItems := by
    unfold InOrder
    decide
  have hfeed : feedAll {} crossingItems = .ok ⟨[], crossingNotes⟩ :=
    toOption_eq_some.1 (by decide +kernel)
  ⟨ho, hfeed, rfl, markers_pair_up ho hfeed rfl⟩

end Marginalia.Note.Pairing
