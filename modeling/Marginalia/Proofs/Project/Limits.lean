import Marginalia.Project.Content
import Marginalia.Proofs.Json.Depth

/-!
# Limits to what is read of a project

Limits do nothing but refuse a project for being beyond one of them (`IsLimit`): what
is read within them is what is read without any (`project_agrees`). So two readings of
a project under different limits cannot differ in what they read (`project_unique`), and
neither tells a project to be wrong that the other one reads
(`project_ne_invalid_of_ok`).

The limit on directories is the only one that has to do with more than the files of a
project. It is looked at last, so without it (`Limits.lax`) all but its own refusals
stay as they are (`project_lax`).
-/

namespace Marginalia.Content

variable {content : Content} {d d' : Disk} {id : Text} {limits limits' : Limits}
  {p p' : Project} {e : Error}

/-- A failure to read a project that is for one of the limits. -/
def IsLimit : Failure → Prop
  | .beyondLimit _ refusal => refusal = .tooDeep
  | .tooNested => True
  | .invalid _ | .undecodable | .disk _ => False

/-- The limits without the one on directories. -/
def Limits.lax (limits : Limits) : Limits := { limits with directories := none }

/-- Directories may be nested this deeply. -/
def Limits.Admits (limits : Limits) (depth : Nat) : Prop := ∀ n ∈ limits.directories, depth ≤ n

instance (limits : Limits) (depth : Nat) : Decidable (limits.Admits depth) :=
  inferInstanceAs (Decidable (∀ n ∈ limits.directories, depth ≤ n))

theorem goThrough_agrees (d : Disk) (directory : Path) (limit : Option Nat) :
    AgreesUnless (· = .tooNested) (goThrough d directory limit) (.ok ()) := by
  rw [goThrough]
  split
  · exact .of_error rfl
  · exact .refl _

theorem goThrough_eq_ok_iff {directory : Path} :
    goThrough d directory limits.directories = .ok () ↔ limits.Admits (d.depthBelow directory) := by
  rw [goThrough, Limits.Admits]
  cases limits.directories <;> simp

/-- Two disks that are as deep are gone through alike, and any two are without a limit. -/
theorem goThrough_congr {directory : Path} {limit : Option Nat}
    (h : limit ≠ none → d'.depthBelow directory = d.depthBelow directory) :
    goThrough d' directory limit = goThrough d directory limit := by
  cases limit with
  | none => rfl
  | some n => rw [goThrough, goThrough, h (Option.some_ne_none n)]

theorem metadataOf_agrees (path : Path) (bytes : ByteArray) (limit : Option Nat) :
    AgreesUnless IsLimit (metadataOf path bytes limit) (metadataOf path bytes) := by
  rw [metadataOf, metadataOf]
  split
  · exact .refl _
  · dsimp only
    rcases Json.read_agrees (unifyNewlines _) limit with heq | ⟨refusal, rfl, hdeep⟩
    · rw [heq]
      exact .refl _
    · rw [hdeep]
      exact .of_error rfl

/-- What is read within limits is what is read without any. -/
theorem project_agrees (content : Content) (d : Disk) (id : Text) (limits : Limits) :
    AgreesUnless IsLimit (content.project d id limits) (content.project d id) := by
  rw [project, project]
  refine (AgreesUnless.refl _).bind fun directory _ => ?_
  refine (AgreesUnless.refl _).bind fun bytes _ => ?_
  refine (metadataOf_agrees _ _ _).bind fun json _ => ?_
  refine (AgreesUnless.refl _).bind fun p _ => ?_
  refine ((goThrough_agrees _ _ _).mono fun failure h => ?_).bind fun _ _ => .refl _
  subst h
  trivial

/-- What is read within limits is what is read without the one on directories. -/
theorem project_lax (content : Content) (d : Disk) (id : Text) (limits : Limits) :
    AgreesUnless (· = .tooNested) (content.project d id limits)
      (content.project d id limits.lax) := by
  rw [project, project]
  refine (AgreesUnless.refl _).bind fun directory _ => ?_
  refine (AgreesUnless.refl _).bind fun bytes _ => ?_
  refine (AgreesUnless.refl _).bind fun json _ => ?_
  refine (AgreesUnless.refl _).bind fun p _ => ?_
  exact (goThrough_agrees _ _ _).bind fun _ _ => .refl _

/-- What is read of a project is the same within any limits. -/
theorem project_unique (h : content.project d id limits = .ok p)
    (h' : content.project d id limits' = .ok p') : p = p' := by
  have heq := (content.project_agrees d id limits).eq_ok h
  rw [(content.project_agrees d id limits').eq_ok h'] at heq
  exact (Except.ok.inj heq).symm

/-- A project that is read within some limits is not told to be wrong within others. -/
theorem project_ne_invalid_of_ok (h : content.project d id limits = .ok p) :
    content.project d id limits' ≠ .error (.invalid e) := by
  intro h'
  have heq := (content.project_agrees d id limits').eq_error h' not_false
  rw [(content.project_agrees d id limits).eq_ok h] at heq
  cases heq

end Marginalia.Content
