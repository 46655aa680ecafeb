import ExerciseDoc.Proofs.Parse.Lines

/-!
# Parse — comments and warnings in front

What lines do does not depend on the comments and the warnings that a document has already:
with more of them in front, the same lines make the same requests and come to the same end,
with the same ones in front of the result (`steps_behind`). One law for every operation on
documents, and from these one for every directive, for a line, and for lines in order.
-/

namespace ExerciseDoc

/-- The document with more comments and warnings in front of its own. -/
def Document.behind (doc : Document) (comments warnings : List String) : Document :=
  { doc with comments := comments ++ doc.comments, warnings := warnings ++ doc.warnings }

namespace Document

variable (doc : Document) (comments warnings : List String)

theorem behind_addWarning (warning : String) :
    (doc.behind comments warnings).addWarning warning =
      (doc.addWarning warning).behind comments warnings := by
  simp [behind, addWarning]

theorem behind_addComment (comment : String) :
    (doc.behind comments warnings).addComment comment =
      (doc.addComment comment).behind comments warnings := by
  simp [behind, addComment]

theorem behind_addDependency (d : Dependency) :
    (doc.behind comments warnings).addDependency d =
      (doc.addDependency d).behind comments warnings :=
  rfl

theorem behind_merge (found : Document) :
    (doc.behind comments warnings).merge found = (doc.merge found).behind comments warnings := by
  simp [behind, merge]

end Document

namespace Parse

/-! ## Directives -/

section Directives

variable (doc : Document) (place : Place) (comments warnings : List String)

theorem store_behind (key : String) (incoming : Incoming) (mode : Mode) :
    store (doc.behind comments warnings) place key incoming mode =
      Run.bind (store doc place key incoming mode) fun doc =>
        Run.ok (doc.behind comments warnings) := by
  have hdata : (doc.behind comments warnings).data = doc.data := rfl
  unfold store
  rw [hdata]
  rcases Key.apply doc.data key incoming mode with ⟨data, e | none | warning⟩
  · rfl
  · rfl
  · rw [Run.ok_bind, ← Document.behind_addWarning]
    rfl

theorem storeText_behind (key : String) (op : Operator) (origin : JsonOrigin)
    (text : String) :
    storeText (doc.behind comments warnings) place key op origin text =
      Run.bind (storeText doc place key op origin text) fun doc =>
        Run.ok (doc.behind comments warnings) := by
  unfold storeText
  split
  · unfold storeJson
    split
    · exact store_behind doc place comments warnings key _ _
    · rfl
  · exact store_behind doc place comments warnings key _ _

theorem storeComponent_behind (key name : String) :
    storeComponent (doc.behind comments warnings) place key name =
      Run.bind (storeComponent doc place key name) fun doc =>
        Run.ok (doc.behind comments warnings) := by
  unfold storeComponent
  split
  · exact store_behind doc place comments warnings key _ _
  · rfl

theorem perform_behind (ancestor : Location → Run Document) (ctx : Context)
    (directive : Directive) :
    perform ancestor ctx (doc.behind comments warnings) place directive =
      Run.bind (perform ancestor ctx doc place directive) fun doc =>
        Run.ok (doc.behind comments warnings) := by
  cases directive with
  | «extends» uri =>
      simp only [perform, inherit, Run.bind_assoc, Run.ok_bind, Document.behind_merge]
  | fromFile key op uri =>
      simp only [perform, storeFile, Run.bind_assoc]
      congr 1
      funext location
      split
      · rfl
      · exact storeText_behind doc place comments warnings key op _ _
  | link key uri =>
      simp only [perform, storeLink, Run.bind_assoc, store_behind]
  | component key name => exact storeComponent_behind doc place comments warnings key name
  | dependency uri name =>
      simp only [perform, addDependency, Run.bind_assoc, Run.ok_bind,
        Document.behind_addDependency]
  | comment text => simp only [perform, Run.ok_bind, Document.behind_addComment]
  | value key op text => exact storeText_behind doc place comments warnings key op _ text
  | openBlock key op => simp only [perform, Run.ok_bind]
  | blank => simp only [perform, Run.ok_bind]

end Directives

/-! ## Lines -/

/-- The state with more comments and warnings in front of those of its document. -/
def State.behind (s : State) (comments warnings : List String) : State :=
  ⟨s.document.behind comments warnings, s.block⟩

section Lines

variable (ancestor : Location → Run Document) (ctx : Context) (s : State)
variable (comments warnings : List String)

theorem step_behind (number : Nat) (raw : List Char) :
    step ancestor ctx (s.behind comments warnings) number raw =
      Run.bind (step ancestor ctx s number raw) fun s =>
        Run.ok (s.behind comments warnings) := by
  obtain ⟨doc, block⟩ := s
  cases block with
  | some block =>
      simp only [step, State.behind, storeBlock, storeText_behind]
      split
      · simp only [Run.bind_assoc, Run.ok_bind]
      · rfl
  | none =>
      simp only [step, State.behind]
      split
      · rfl
      · rfl
      · simp only [perform_behind, Run.bind_assoc, Run.ok_bind]

/-- What lines do does not depend on the comments and the warnings in front. -/
theorem steps_behind (number : Nat) (lines : List (List Char)) :
    steps ancestor ctx (s.behind comments warnings) number lines =
      Run.bind (steps ancestor ctx s number lines) fun s =>
        Run.ok (s.behind comments warnings) := by
  induction lines generalizing s number with
  | nil => rfl
  | cons raw rest ih => simp only [steps, step_behind, Run.bind_assoc, Run.ok_bind, ih]

theorem finish_behind :
    finish (s.behind comments warnings) =
      Run.bind (finish s) fun doc => Run.ok (doc.behind comments warnings) := by
  obtain ⟨doc, block⟩ := s
  cases block <;> rfl

end Lines

/-- The check for mandatory keys does not look at comments and warnings. -/
theorem checked_behind (doc : Document) (comments warnings : List String) :
    checked (doc.behind comments warnings) =
      Run.bind (checked doc) fun doc => Run.ok (doc.behind comments warnings) := by
  have hdata : (doc.behind comments warnings).data = doc.data := rfl
  unfold checked
  rw [hdata]
  split <;> rfl

end Parse

end ExerciseDoc
