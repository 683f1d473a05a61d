import Marginalia.Note.Keeping

/-!
# Defects leave no trace

A line is taken in step by step, and any step may end it with a defect. But every step that
may comes before the first one that changes anything: a line is taken in at once, or not
at all (`feed_eq`). Requests that lead to a defect and requests for the closed notes thus
change nothing, and may be left out of any run.

* `feed_eq`, `finish_eq`: what a request does to the notes kept is what a pairing does;
* `answerAll_takenIn`: the requests that change something, by themselves;
* `defects_leave_no_trace`: what is asked later is answered as if nothing else had been asked.
-/

namespace Marginalia.Note.Keeping

variable {p : Pairing} {request : Request} {requests : List Request}

/-! ## At once or not at all -/

/-- A change that is made at once, or not at all if it leads to a defect. -/
def atOnce (change : Pairing → Except Defect Pairing) : Keeping Unit := fun p =>
  match change p with
  | .ok q => .ok () q
  | .error defect => .error defect p

theorem get_bind {α : Type} (f : Pairing → Keeping α) (p : Pairing) : (get >>= f) p = f p p := rfl

theorem openNote_eq (line : Int) (id : Option Text) (words : Text) :
    openNote line id words = atOnce fun p => (p.openNote line id words).mapError (⟨·, line⟩) := by
  funext p
  cases id with
  | none => rfl
  | some name =>
    simp only [atOnce, Pairing.openNote]
    by_cases h : p.stack.any (·.id == some name) = true
    · rw [if_pos h]
      exact congrFun (if_pos h) p
    · rw [if_neg h]
      exact congrFun (if_neg h) p

theorem addBody_eq (line : Int) (text : Text) :
    addBody line text = atOnce fun p => (p.addBody text).mapError (⟨·, line⟩) := by
  funext ⟨stack, closed⟩
  cases stack <;> rfl

/-- A note is taken from the open ones only where it can be put with the closed ones. -/
theorem feed_closing_eq (line : Int) (id : Option Text) :
    feed line (.closing id) = atOnce fun p => (p.closeNote line id).mapError (⟨·, line⟩) := by
  funext ⟨stack, closed⟩
  cases stack with
  | nil => rfl
  | cons draft rest =>
    cases id with
    | none => rfl
    | some name =>
      change EStateM.bind (takeOpen line (some name)) _ _ = _
      rw [EStateM.bind, takeOpen, get_bind]
      simp only [atOnce, Pairing.closeNote]
      cases (draft :: rest).find? (·.id == some name) <;> rfl

/-- A line is taken in as a pairing takes it in, at once or not at all. -/
theorem feed_eq (line : Int) (role : Role) : feed line role = atOnce (·.feed line role) := by
  cases role with
  | plain shown remark => cases remark <;> rfl
  | opening id words => exact openNote_eq line id words
  | closing id => exact feed_closing_eq line id
  | body text => exact addBody_eq line text
  | note text => rfl

/-- The closed notes are told as a pairing tells them, and nothing is changed. -/
theorem finish_eq (p : Pairing) :
    finish p = match p.finish with
      | .ok notes => .ok notes p
      | .error defect => .error defect p := by
  obtain ⟨stack, closed⟩ := p
  cases stack <;> rfl

/-! ## Answers -/

theorem answer_feed (p : Pairing) (line : Int) (role : Role) :
    answer p (.feed line role) = match p.feed line role with
      | .ok q => ({ depth := q.depth, isOpen := q.isOpen }, q)
      | .error defect => ({ defect := some defect, depth := p.depth, isOpen := p.isOpen }, p) := by
  have hrun : (Request.feed line role).carryOut p =
      EStateM.bind (feed line role) (fun _ => pure none) p := rfl
  rw [answer, hrun, EStateM.bind, feed_eq, atOnce]
  cases p.feed line role <;> rfl

theorem answer_finish (p : Pairing) :
    answer p .finish = match p.finish with
      | .ok notes => ({ notes := some notes, depth := p.depth, isOpen := p.isOpen }, p)
      | .error defect => ({ defect := some defect, depth := p.depth, isOpen := p.isOpen }, p) := by
  have hrun : Request.finish.carryOut p =
      EStateM.bind finish (fun notes => pure (some notes)) p := rfl
  rw [answer, hrun, EStateM.bind, finish_eq]
  cases p.finish <;> rfl

/-- Whether a request changes the notes kept: it asks to take in a line, and the answer
    tells no defect. -/
def Request.isTakenIn : Request → Answer → Bool
  | feed _ _, answer => answer.defect.isNone
  | finish, _ => false

/-- Any other request leaves the notes as they are. -/
theorem answer_of_not_isTakenIn (h : request.isTakenIn (answer p request).1 = false) :
    (answer p request).2 = p := by
  cases request with
  | feed line role =>
    rw [answer_feed] at h ⊢
    cases hfeed : p.feed line role with
    | ok q => rw [hfeed] at h; cases h
    | error defect => rfl
  | finish =>
    rw [answer_finish]
    cases p.finish <;> rfl

/-! ## Requests in turn -/

theorem answerAll_cons (p : Pairing) (request : Request) (requests : List Request) :
    answerAll p (request :: requests) =
      ((answer p request).1 :: (answerAll (answer p request).2 requests).1,
        (answerAll (answer p request).2 requests).2) := rfl

theorem answerAll_append (p : Pairing) (requests later : List Request) :
    answerAll p (requests ++ later) =
      ((answerAll p requests).1 ++ (answerAll (answerAll p requests).2 later).1,
        (answerAll (answerAll p requests).2 later).2) := by
  induction requests generalizing p with
  | nil => rfl
  | cons request requests ih => simp only [List.cons_append, answerAll, ih]

theorem length_answerAll (p : Pairing) (requests : List Request) :
    (answerAll p requests).1.length = requests.length := by
  induction requests generalizing p with
  | nil => rfl
  | cons request requests ih => simp only [answerAll, List.length_cons, ih]

/-- The requests that change something, each with the answer to it. -/
def takenIn (p : Pairing) (requests : List Request) : List (Request × Answer) :=
  (requests.zip (answerAll p requests).1).filter fun (request, answer) => request.isTakenIn answer

theorem takenIn_cons_of_isTakenIn (h : request.isTakenIn (answer p request).1 = true) :
    takenIn p (request :: requests) =
      (request, (answer p request).1) :: takenIn (answer p request).2 requests := by
  simp only [takenIn, answerAll, List.zip_cons_cons]
  exact List.filter_cons_of_pos h

theorem takenIn_cons_of_not (h : request.isTakenIn (answer p request).1 = false) :
    takenIn p (request :: requests) = takenIn p requests := by
  simp only [takenIn, answerAll, List.zip_cons_cons, answer_of_not_isTakenIn h]
  exact List.filter_cons_of_neg (Bool.eq_false_iff.1 h)

/-- By themselves they have the same answers, and lead to the same notes. -/
theorem answerAll_takenIn (p : Pairing) (requests : List Request) :
    answerAll p ((takenIn p requests).map (·.1)) =
      ((takenIn p requests).map (·.2), (answerAll p requests).2) := by
  induction requests generalizing p with
  | nil => rfl
  | cons request requests ih =>
    cases h : request.isTakenIn (answer p request).1 with
    | true => simp only [takenIn_cons_of_isTakenIn h, List.map_cons, answerAll, ih]
    | false => rw [takenIn_cons_of_not h, ih, answerAll_cons, answer_of_not_isTakenIn h]

/-- A line with a defect and a request for the closed notes change nothing, whatever was asked
    before. So what is asked later is answered as it is without them: the requests that change
    something have the same answers by themselves, lead to the same notes, and are followed by
    the same answers. -/
theorem defects_leave_no_trace (p : Pairing) (requests later : List Request) :
    (∀ request, request = .finish ∨ (answer (answerAll p requests).2 request).1.defect ≠ none →
      (answer (answerAll p requests).2 request).2 = (answerAll p requests).2) ∧
    answerAll p ((takenIn p requests).map (·.1)) =
      ((takenIn p requests).map (·.2), (answerAll p requests).2) ∧
    (answerAll p ((takenIn p requests).map (·.1) ++ later)).1.drop (takenIn p requests).length =
      (answerAll p (requests ++ later)).1.drop requests.length := by
  refine ⟨fun request h => ?_, answerAll_takenIn p requests, ?_⟩
  · apply answer_of_not_isTakenIn
    cases request with
    | feed line role =>
      rw [Request.isTakenIn, Option.isNone_eq_false_iff, Option.isSome_iff_ne_none]
      exact h.resolve_left Request.noConfusion
    | finish => rfl
  · rw [answerAll_append, answerAll_append, answerAll_takenIn, List.drop_left' (by simp),
      List.drop_left' (length_answerAll p requests)]

/-- A note between defects of every kind. -/
def hastyRequests : List Request :=
  [.feed 0 (.body "stray".toList), .feed 1 (.opening (some "a".toList) "A".toList), .finish,
    .feed 2 (.opening (some "a".toList) "again".toList), .feed 3 (.body "B".toList)]

theorem defects_leave_no_trace_hasty :
    (answerAll {} hastyRequests).1.map (·.defect.map (·.cause.kind)) =
        [some .malformed, none, some .unterminated, some .malformed, none] ∧
      (takenIn {} hastyRequests).map (·.1) =
        [.feed 1 (.opening (some "a".toList) "A".toList), .feed 3 (.body "B".toList)] ∧
      (answer (answerAll {} hastyRequests).2 (.feed 4 (.closing (some "b".toList)))).1.defect =
        some ⟨.unknownId "b".toList, 4⟩ ∧
      (answer (answerAll {} hastyRequests).2 (.feed 4 (.closing (some "b".toList)))).2 =
        (answerAll {} hastyRequests).2 :=
  have hdefect : (answer (answerAll {} hastyRequests).2
      (.feed 4 (.closing (some "b".toList)))).1.defect = some ⟨.unknownId "b".toList, 4⟩ := by decide
  ⟨by decide, by decide, hdefect, (defects_leave_no_trace {} hastyRequests []).1 _
    (.inr (hdefect ▸ Option.some_ne_none _))⟩

end Marginalia.Note.Keeping
