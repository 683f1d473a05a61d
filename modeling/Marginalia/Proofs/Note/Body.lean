import Marginalia.Proofs.Note.Around

/-!
# The bodies of notes

A line of text belongs to the note opened last of those around it (`Pairing.owner?`).
That note is on top of the stack when the line is taken in, and no later line makes it
another one (`owner?_of_step`): notes are opened past the line, and closed without
changing what they are around. So each note has gathered the lines that belong to it, in
their order, whatever was opened and closed between them (`Gathers`).

* `Gathers.step`, `gathers_of_feedAll`: what every line keeps, and so all lines;
* `owner?_eq_some_iff`: once no note is open, what a line belongs to follows from the
  closed notes (`IsInnermost`);
* `countP_isInnermost_eq_one`: every line of text belongs to one note.
-/

namespace Marginalia

/-- The text of a line that is text of a note. -/
def Role.body? : Role → Option Text
  | body text => some text
  | _ => none

namespace Note

/-- The note is the one opened last of those around the line. -/
def Pending.IsInnermost (blocks : List Pending) (line : Int) (block : Pending) : Prop :=
  block.surrounds line ∧ ∀ other ∈ blocks, other.surrounds line → other.opened ≤ block.opened

instance (blocks : List Pending) (line : Int) (block : Pending) :
    Decidable (block.IsInnermost blocks line) :=
  inferInstanceAs (Decidable (_ ∧ _))

namespace Pairing

/-- The opening line of the note that the text on a line belongs to. -/
def owner? (p : Pairing) (line : Int) : Option Int := (p.around line).max?

/-- The lines of text that belong to the note with this opening line. -/
def bodyOf (p : Pairing) (items : List Item) (opened : Int) : List Text :=
  items.filterMap fun item => if p.owner? item.line = some opened then item.role.body? else none

variable {p q : Pairing} {items done : List Item} {line i opened : Int} {role : Role}

theorem lt_of_owner? (h : p.owner? line = some opened) : opened < line :=
  lt_of_mem_around (List.max?_eq_some_iff.1 h).1

theorem owner?_congr (h : (q.around i).Perm (p.around i)) : q.owner? i = p.owner? i := by
  refine Option.ext fun opened => ?_
  simp only [owner?, List.max?_eq_some_iff, h.mem_iff]

/-- A line does not change what the lines before it belong to. -/
theorem owner?_of_step (hs : Step p line role q) (hlt : i < line) : q.owner? i = p.owner? i :=
  owner?_congr (around_of_step hs hlt)

/-- A line that is taken in belongs to the note on top of the stack. -/
theorem owner?_eq_top {draft : Draft} {below : List Draft} {closed : List Pending}
    (h : Tracks done ⟨draft :: below, closed⟩) (hbefore : ∀ other ∈ done, other.line < line) :
    owner? ⟨draft :: below, closed⟩ line = some draft.opened := by
  rw [owner?, around_eq_map_stack h hbefore, List.max?_eq_some_iff, List.map_cons]
  refine ⟨List.mem_cons_self, List.forall_mem_cons.2 ⟨Int.le_refl _, fun opened hopened => ?_⟩⟩
  obtain ⟨other, hother, rfl⟩ := List.mem_map.1 hopened
  exact Int.le_of_lt ((List.pairwise_cons.1 h.ordered).1 other hother)

theorem bodyOf_of_step (hbefore : ∀ other ∈ done, other.line < line) (hs : Step p line role q)
    (opened : Int) : q.bodyOf done opened = p.bodyOf done opened :=
  List.filterMap_congr fun item hitem => by rw [owner?_of_step hs (hbefore item hitem)]

theorem bodyOf_concat (p : Pairing) (items : List Item) (item : Item) (opened : Int) :
    p.bodyOf (items ++ [item]) opened = p.bodyOf items opened ++
      (if p.owner? item.line = some opened then item.role.body? else none).toList := by
  rw [bodyOf, List.filterMap_append, ← bodyOf, List.filterMap_cons, List.filterMap_nil]
  cases (if p.owner? item.line = some opened then item.role.body? else none) <;> rfl

/-- A line without text adds to no body. -/
theorem bodyOf_concat_of_none (hbefore : ∀ other ∈ done, other.line < line)
    (hs : Step p line role q) (hbody : role.body? = none) (opened : Int) :
    q.bodyOf (done ++ [⟨line, role⟩]) opened = p.bodyOf done opened := by
  rw [bodyOf_concat, hbody, ite_self, Option.toList_none, List.append_nil]
  exact bodyOf_of_step hbefore hs opened

/-- A line of text adds to the body of the note on top of the stack and to no other. -/
theorem bodyOf_concat_body {draft : Draft} {below : List Draft} {closed : List Pending}
    (h : Tracks done ⟨draft :: below, closed⟩) (hbefore : ∀ other ∈ done, other.line < line)
    (text : Text) (opened : Int) :
    bodyOf ⟨{ draft with body := draft.body ++ [text] } :: below, closed⟩
        (done ++ [⟨line, .body text⟩]) opened =
      bodyOf ⟨draft :: below, closed⟩ done opened ++
        if draft.opened = opened then [text] else [] := by
  have howner : owner? ⟨{ draft with body := draft.body ++ [text] } :: below, closed⟩ line =
      some draft.opened :=
    (owner?_congr (.of_eq (around_body _ line))).trans (owner?_eq_top h hbefore)
  have hstep : Step ⟨draft :: below, closed⟩ line (.body text) _ := .body
  rw [bodyOf_concat, bodyOf_of_step hbefore hstep]
  simp only [howner, Option.some_inj, Role.body?]
  split <;> rfl

/-! ## What every line keeps -/

/-- A note with these words on its opening marker has the lines of text that belong to it. -/
structure HasGathered (items : List Item) (p : Pairing) (opened : Int) (id : Option Text)
    (words : Text) (body : List Text) : Prop where
  opener : ⟨opened, .opening id words⟩ ∈ items
  body_eq : body = p.bodyOf items opened

theorem HasGathered.quiet {id : Option Text} {words : Text} {body : List Text}
    (h : HasGathered done p opened id words body) (hbefore : ∀ other ∈ done, other.line < line)
    (hs : Step p line role q) (hbody : role.body? = none) :
    HasGathered (done ++ [⟨line, role⟩]) q opened id words body :=
  ⟨List.mem_append_left _ h.opener, by rw [bodyOf_concat_of_none hbefore hs hbody, ← h.body_eq]⟩

/-- All notes, open or closed, have the lines of text that belong to them, and every line
    of text belongs to one. -/
structure Gathers (items : List Item) (p : Pairing) : Prop where
  drafts : ∀ draft ∈ p.stack, HasGathered items p draft.opened draft.id draft.words draft.body
  blocks : ∀ block ∈ blocksOf p.closed, ∃ words body,
    HasGathered items p block.opened block.id words body ∧ block.text = word words body
  owned : ∀ item ∈ items, ∀ text, item.role = .body text → (p.owner? item.line).isSome

namespace Gathers

theorem nil : Gathers [] {} := ⟨by simp, by simp [blocksOf], by simp⟩

theorem owned_step (h : Gathers done p) (htracks : Tracks done p)
    (hbefore : ∀ other ∈ done, other.line < line) (hs : Step p line role q) :
    ∀ item ∈ done ++ [⟨line, role⟩], ∀ text, item.role = .body text →
      (q.owner? item.line).isSome := by
  refine List.forall_mem_append.2 ⟨fun item hitem text hrole => ?_,
    List.forall_mem_singleton.2 fun text hrole => ?_⟩
  · rw [owner?_of_step hs (hbefore item hitem)]
    exact h.owned item hitem text hrole
  · obtain rfl : role = .body text := hrole
    cases hs with
    | body =>
      rw [owner?_congr (.of_eq (around_body _ line)), owner?_eq_top htracks hbefore]
      rfl

/-- A line of text is gathered by the note on top of the stack. -/
theorem body_step {draft : Draft} {below : List Draft} {closed : List Pending} {text : Text}
    (h : Gathers done ⟨draft :: below, closed⟩) (ho : InOrder done)
    (htracks : Tracks done ⟨draft :: below, closed⟩)
    (hbefore : ∀ other ∈ done, other.line < line) :
    Gathers (done ++ [⟨line, .body text⟩])
      ⟨{ draft with body := draft.body ++ [text] } :: below, closed⟩ := by
  -- A note with another opening marker gathers nothing.
  have hother : ∀ {opened id words body}, draft.opened ≠ opened →
      HasGathered done ⟨draft :: below, closed⟩ opened id words body →
      HasGathered (done ++ [⟨line, .body text⟩])
        ⟨{ draft with body := draft.body ++ [text] } :: below, closed⟩ opened id words body := by
    intro opened id words body hne hgathered
    refine ⟨List.mem_append_left _ hgathered.opener, ?_⟩
    rw [bodyOf_concat_body htracks hbefore, if_neg hne, List.append_nil, ← hgathered.body_eq]
  have hdrafts := List.forall_mem_cons.1 h.drafts
  refine ⟨List.forall_mem_cons.2
      ⟨⟨List.mem_append_left _ hdrafts.1.opener, ?_⟩, fun other hother' => ?_⟩,
    fun block hb => ?_, h.owned_step htracks hbefore .body⟩
  · rw [bodyOf_concat_body htracks hbefore, if_pos rfl, ← hdrafts.1.body_eq]
  · have hlt := (List.pairwise_cons.1 htracks.ordered).1 other hother'
    exact hother (Ne.symm (Int.ne_of_lt hlt)) (hdrafts.2 other hother')
  · obtain ⟨words, body, hgathered, htext⟩ := h.blocks block hb
    exact ⟨words, body, hother (htracks.opened_ne ho List.mem_cons_self hb) hgathered, htext⟩

theorem step (h : Gathers done p) (ho : InOrder done) (htracks : Tracks done p)
    (hbefore : ∀ other ∈ done, other.line < line) (hs : Step p line role q) :
    Gathers (done ++ [⟨line, role⟩]) q := by
  have howned := h.owned_step htracks hbefore hs
  have hdrafts : role.body? = none → ∀ draft ∈ p.stack, HasGathered (done ++ [⟨line, role⟩]) q
      draft.opened draft.id draft.words draft.body :=
    fun hbody draft hd => (h.drafts draft hd).quiet hbefore hs hbody
  have hblocks : role.body? = none → ∀ block ∈ blocksOf p.closed, ∃ words body,
      HasGathered (done ++ [⟨line, role⟩]) q block.opened block.id words body ∧
        block.text = word words body := by
    intro hbody block hb
    obtain ⟨words, body, hgathered, htext⟩ := h.blocks block hb
    exact ⟨words, body, hgathered.quiet hbefore hs hbody, htext⟩
  cases hs with
  | plain => exact ⟨hdrafts rfl, hblocks rfl, howned⟩
  | remark | note =>
    refine ⟨hdrafts rfl, ?_, howned⟩
    rw [add, blocksOf_concat_of_ne _ Form.noConfusion]
    exact hblocks rfl
  | opening hfree =>
    refine ⟨List.forall_mem_cons.2 ⟨⟨?_, ?_⟩, hdrafts rfl⟩, hblocks rfl, howned⟩
    · exact List.mem_append_right _ List.mem_cons_self
    · -- No line before the marker belongs to the note.
      rw [bodyOf_concat_of_none hbefore (.opening hfree) rfl]
      refine (List.filterMap_eq_nil_iff.2 fun item hitem => if_neg fun howner => ?_).symm
      have hlt : line < item.line := lt_of_owner? howner
      have := hbefore item hitem
      omega
  | closing =>
    have hstack := hdrafts rfl
    simp only [List.forall_mem_append, List.forall_mem_cons] at hstack
    obtain ⟨habove, hdraft, hbelow⟩ := hstack
    refine ⟨List.forall_mem_append.2 ⟨habove, hbelow⟩, ?_, howned⟩
    rw [blocksOf_concat_close]
    exact List.forall_mem_append.2 ⟨hblocks rfl, List.forall_mem_singleton.2 ⟨_, _, hdraft, rfl⟩⟩
  | body => exact h.body_step ho htracks hbefore

end Gathers

/-- All lines keep what every line keeps. -/
theorem gathers_of_feedAll (ho : InOrder items) (h : feedAll {} items = .ok p) :
    Gathers items p :=
  invariant_of_tracks .nil (fun hgathers => hgathers.step) ho h

/-! ## When no note is open -/

/-- What a line belongs to is the innermost of the closed notes, if no note is open. -/
theorem owner?_eq_some_iff (htracks : Tracks items p) (ho : InOrder items) (h : p.stack = [])
    {block : Pending} (hb : block ∈ blocksOf p.closed) :
    p.owner? line = some block.opened ↔ block.IsInnermost (blocksOf p.closed) line := by
  rw [owner?, around_of_stack_eq_nil h, List.max?_eq_some_iff, List.forall_mem_map,
    Pending.IsInnermost]
  have hmem : block.opened ∈ ((blocksOf p.closed).filter (·.surrounds line)).map (·.opened) ↔
      block.surrounds line := by
    refine ⟨fun hmem => ?_, fun h => List.mem_map_of_mem (List.mem_filter.2 ⟨hb, h⟩)⟩
    obtain ⟨other, hother, heq⟩ := List.mem_map.1 hmem
    obtain ⟨hother, hsurrounds⟩ := List.mem_filter.1 hother
    rwa [← htracks.eq_of_opened_eq ho hother hb heq]
  simp only [hmem, List.mem_filter, and_imp]

/-- A line of text belongs to exactly one closed note, if no note is open. -/
theorem countP_isInnermost_eq_one (hfeed : feedAll {} items = .ok p) (ho : InOrder items)
    (h : p.stack = []) {text : Text} (hitem : ⟨line, .body text⟩ ∈ items) :
    (blocksOf p.closed).countP (·.IsInnermost (blocksOf p.closed) line) = 1 := by
  have htracks := tracks_of_feedAll ho hfeed
  obtain ⟨opened, howner⟩ :=
    Option.isSome_iff_exists.1 ((gathers_of_feedAll ho hfeed).owned _ hitem text rfl)
  have hmem := (List.max?_eq_some_iff.1 howner).1
  rw [around_of_stack_eq_nil h] at hmem
  obtain ⟨block, hblock, rfl⟩ := List.mem_map.1 hmem
  have hb := (List.mem_filter.1 hblock).1
  -- It is the only one with its opening marker.
  have hsame : ∀ other ∈ blocksOf p.closed,
      decide (other.IsInnermost (blocksOf p.closed) line) ↔ other == block := by
    intro other hother
    rw [decide_eq_true_eq, ← owner?_eq_some_iff htracks ho h hother, howner, Option.some_inj,
      beq_iff_eq]
    exact ⟨fun heq => (htracks.eq_of_opened_eq ho hb hother heq).symm, fun heq => heq ▸ rfl⟩
  have hnodup : (blocksOf p.closed).Nodup :=
    (List.nodup_append.1 (htracks.nodup_opened ho)).2.1.of_map _
  rw [List.countP_congr hsame]
  exact List.count_eq_one_of_mem hnodup hb

end Pairing

end Note

end Marginalia
