import ExerciseDoc.Parse.Basic
import ExerciseDoc.Proofs.Run
import ExerciseDoc.Proofs.Value.Built

/-!
# Parse — what a line can do

One spec lemma for every directive, and from them one for a line (`step_ends`): a
line keeps every property of documents that the operations on documents keep
(`Lasting`), and where it fails, the fault belongs to its place or comes from the
ancestor that the line leads to. Then the lines of a file in order: `steps_append`,
where the first failure stands (`steps_eq_error`), what holds of every state
(`steps_ends`), and the lines that a parse comes to (`Reaches`).
-/

namespace ExerciseDoc.Parse

/-! ## Properties that lines keep -/

/-- `P` is kept by everything that a line does to a document: what it stores is put
together by a reader, and an ancestor that it folds in has `Q`. -/
structure Lasting (P Q : Document → Prop) : Prop where
  stored : ∀ {doc : Document} {key incoming mode} {data : Mapping} {warning},
    incoming.Built → Key.apply doc.data key incoming mode = (data, .ok warning) →
    P doc → P { doc with data := data }
  warned : ∀ {doc : Document} {warning}, P doc → P (doc.addWarning warning)
  commented : ∀ {doc : Document} {comment}, P doc → P (doc.addComment comment)
  depends : ∀ {doc : Document} {d}, P doc → P (doc.addDependency d)
  merged : ∀ {doc found : Document}, P doc → Q found → P (doc.merge found)

/-! ## Directives -/

section Directives

variable {P Q : Document → Prop} {p : ParseError → Prop}
variable {ancestor : Location → Run Document} {ctx : Context} {place : Place} {doc : Document}
variable (hP : Lasting P Q) (hdoc : P doc) (hp : ∀ fault, p (.line place fault))

include hp

theorem locate_ends (uri : String) :
    Run.Ends (fun location => ctx.resolver (ctx.request uri) = some location) p
      (locate ctx place uri) := by
  refine Run.Ends.bind (Run.Ends.ask ctx.resolver (ctx.request uri)) fun found hfound => ?_
  cases found with
  | none => exact .error (hp _)
  | some location => exact .ok hfound

include hP hdoc

theorem store_ends (key : String) {incoming : Incoming} (hbuilt : incoming.Built)
    (mode : Mode) : Run.Ends P p (store doc place key incoming mode) := by
  unfold store
  split
  · rename_i happly
    exact .ok (hP.stored hbuilt happly hdoc)
  · rename_i happly
    exact .ok (hP.warned (hP.stored hbuilt happly hdoc))
  · exact .error (hp _)

theorem storeJson_ends (key : String) (origin : JsonOrigin) (text : String) :
    Run.Ends P p (storeJson doc place key origin text) := by
  unfold storeJson
  split
  · rename_i hv
    exact store_ends hP hdoc hp key (.json hv) _
  · exact .error (hp _)

theorem storeText_ends (key : String) (op : Operator) (origin : JsonOrigin)
    (text : String) : Run.Ends P p (storeText doc place key op origin text) := by
  unfold storeText
  split
  · exact storeJson_ends hP hdoc hp key origin text
  · refine store_ends hP hdoc hp key ?_ _
    cases origin with
    | line => exact .line text
    | block => exact .block text
    | file => exact .text text

theorem storeFile_ends (key : String) (op : Operator) (uri : String) :
    Run.Ends P p (storeFile ctx doc place key op uri) := by
  refine Run.Ends.bind (locate_ends hp uri) fun location _ => ?_
  split
  · exact .error (hp _)
  · exact storeText_ends hP hdoc hp key op _ _

theorem storeComponent_ends (key name : String) :
    Run.Ends P p (storeComponent doc place key name) := by
  unfold storeComponent
  split
  · rename_i hv
    exact store_ends hP hdoc hp key (.component hv) _
  · exact .error (hp _)

theorem inherit_ends (uri : String)
    (hanc : ∀ location, ctx.resolver (ctx.request uri) = some location →
      Run.Ends Q p (descend ancestor ctx location)) :
    Run.Ends P p (inherit ancestor ctx doc place uri) := by
  refine Run.Ends.bind (locate_ends hp uri) fun location hfound => ?_
  exact Run.Ends.bind (hanc location hfound) fun found hq => .ok (hP.merged hdoc hq)

/-- What a directive ends with. Ancestors concern `extends` alone. -/
theorem perform_ends (directive : Directive)
    (hanc : ∀ uri location, directive = .extends uri →
      ctx.resolver (ctx.request uri) = some location →
      Run.Ends Q p (descend ancestor ctx location)) :
    Run.Ends P p (perform ancestor ctx doc place directive) := by
  cases directive with
  | «extends» uri => exact inherit_ends hP hdoc hp uri fun location => hanc uri location rfl
  | fromFile key op uri => exact storeFile_ends hP hdoc hp key op uri
  | link key uri =>
      exact Run.Ends.bind (locate_ends hp uri) fun _ _ =>
        store_ends hP hdoc hp key (Incoming.Built.text _) _
  | component key name => exact storeComponent_ends hP hdoc hp key name
  | dependency uri name =>
      exact Run.Ends.bind (locate_ends hp uri) fun _ _ => .ok (hP.depends hdoc)
  | comment text => exact .ok (hP.commented hdoc)
  | value key op text => exact storeText_ends hP hdoc hp key op _ text
  | openBlock key op => exact .ok hdoc
  | blank => exact .ok hdoc

end Directives

/-! ## One line -/

/-- The place that a fault of a line has: where the open block was opened, if there
is one, and else the line itself. -/
def State.place (s : State) (ctx : Context) (number : Nat) (raw : List Char) : Place :=
  match s.block with
  | some block => block.place
  | none => Place.of ctx.path (Text.lineBody raw) number

/-- The line inherits from the file at a location: no block is open, the line is an
`extends` line, and the resolver answers its reference. -/
structure Extends (ctx : Context) (s : State) (raw : List Char) (location : Location) :
    Prop where
  idle : s.block = none
  found : ∃ uri, Line.classify (Text.lineBody raw) = some (.extends uri) ∧
    ctx.resolver (ctx.request uri) = some location

/-- A line ends with what lasts, with a fault at its place, or with what the ancestor
that it leads to ends with. -/
theorem step_ends {P Q : Document → Prop} {p : ParseError → Prop} (hP : Lasting P Q)
    {ancestor : Location → Run Document} {ctx : Context} {s : State} {number : Nat}
    {raw : List Char} (hdoc : P s.document)
    (hp : ∀ fault, p (.line (s.place ctx number raw) fault))
    (hanc : ∀ location, Extends ctx s raw location →
      Run.Ends Q p (descend ancestor ctx location)) :
    Run.Ends (fun s' => P s'.document) p (step ancestor ctx s number raw) := by
  obtain ⟨doc, block⟩ := s
  cases block with
  | some block =>
      -- Inside a block a line stores the whole block or says nothing.
      simp only [step]
      split
      · exact Run.Ends.bind (storeText_ends hP hdoc hp block.key block.op _ _)
          fun _ h => .ok h
      · exact .ok hdoc
  | none =>
      simp only [step]
      split
      · exact .error (hp _)
      · exact .ok hdoc
      · rename_i directive _ hshape
        refine Run.Ends.bind (perform_ends hP hdoc hp directive ?_) fun _ h => .ok h
        rintro uri location rfl hfound
        exact hanc location ⟨rfl, uri, hshape, hfound⟩

/-! ## Lines in order -/

theorem steps_append (ancestor : Location → Run Document) (ctx : Context) (s : State)
    (number : Nat) (before after : List (List Char)) :
    steps ancestor ctx s number (before ++ after) =
      Run.bind (steps ancestor ctx s number before) fun s =>
        steps ancestor ctx s (number + before.length) after := by
  induction before generalizing s number with
  | nil => simp [steps]
  | cons raw rest ih =>
      simp only [List.cons_append, steps, Run.bind_assoc, ih, List.length_cons]
      rw [show number + 1 + rest.length = number + (rest.length + 1) from by omega]

/-- The first line that fails, and the state in front of it. -/
theorem steps_eq_error {ancestor : Location → Run Document} {ctx : Context} {s : State}
    {number : Nat} {lines : List (List Char)} {e : ParseError}
    (h : (steps ancestor ctx s number lines).result = .error e) :
    ∃ before raw after s', lines = before ++ raw :: after ∧
      (steps ancestor ctx s number before).result = .ok s' ∧
      (step ancestor ctx s' (number + before.length) raw).result = .error e := by
  induction lines generalizing s number with
  | nil => simp [steps, Run.ok] at h
  | cons raw rest ih =>
      rcases Run.bind_eq_error.mp h with hstep | ⟨s₁, hstep, hrest⟩
      · exact ⟨[], raw, rest, s, rfl, rfl, hstep⟩
      · obtain ⟨before, raw', after, s', hlines, hbefore, hfail⟩ := ih hrest
        refine ⟨raw :: before, raw', after, s', by rw [hlines]; rfl, ?_, ?_⟩
        · simp only [steps, Run.result_bind_of_ok _ hstep, hbefore]
        · rw [List.length_cons, show number + (before.length + 1) = number + 1 + before.length
            from by omega]
          exact hfail

/-- Lines in order end with what lasts, with a fault of some line, or with what some
ancestor ends with. -/
theorem steps_ends {P Q : Document → Prop} {p : ParseError → Prop} (hP : Lasting P Q)
    {ancestor : Location → Run Document} {ctx : Context} {s : State} {number : Nat}
    {lines : List (List Char)} (hdoc : P s.document)
    (hp : ∀ place fault, p (.line place fault))
    (hanc : ∀ location, Run.Ends Q p (descend ancestor ctx location)) :
    Run.Ends (fun s' => P s'.document) p (steps ancestor ctx s number lines) := by
  induction lines generalizing s number with
  | nil => exact .ok hdoc
  | cons raw rest ih =>
      refine Run.Ends.bind (step_ends hP hdoc (hp _) fun location _ => hanc location) ?_
      intro s' hdoc'
      exact ih hdoc'

/-- A file ends with what lasts from its start, or with an error in `p`. -/
theorem fileWith_ends {P Q : Document → Prop} {p : ParseError → Prop} (hP : Lasting P Q)
    {ancestor : Location → Run Document} {ctx : Context} (contents : ByteArray)
    (hstart : P (State.start ctx).document) (hp : ∀ place fault, p (.line place fault))
    (hdecode : p (.undecodable ctx.path))
    (hanc : ∀ location, Run.Ends Q p (descend ancestor ctx location)) :
    Run.Ends P p (fileWith ancestor ctx contents) := by
  unfold fileWith
  split
  · exact .error hdecode
  · refine Run.Ends.bind (steps_ends hP hstart hp hanc) fun s hdoc => ?_
    unfold finish
    split
    · exact .error (hp _ _)
    · exact .ok hdoc

theorem fromUTF8?_toUTF8 (text : String) : String.fromUTF8? text.toUTF8 = some text := by
  have hvalid : text.toUTF8.IsValidUTF8 := text.isValidUTF8
  rw [String.fromUTF8?, dif_pos hvalid]
  rfl

/-- A file that is a text is its lines in order. -/
theorem fileWith_toUTF8 (ancestor : Location → Run Document) (ctx : Context)
    (text : String) :
    fileWith ancestor ctx text.toUTF8 =
      Run.bind (steps ancestor ctx (State.start ctx) 1 (Text.physicalLines text.toList))
        finish := by
  rw [fileWith, fromUTF8?_toUTF8]

/-- At the end of a file a document comes from a state without an open block. -/
theorem finish_eq_ok {s : State} {doc : Document} (h : (finish s).result = .ok doc) :
    s = ⟨doc, none⟩ := by
  obtain ⟨doc', block⟩ := s
  cases block with
  | none =>
      cases h
      rfl
  | some block => cases h

/-- What lines keep, whatever their ancestors are, holds of the document that they come to
if it holds of the one that they start from. -/
theorem Lasting.of_finish {P : Document → Prop} (hP : Lasting P fun _ => True)
    {ancestor : Location → Run Document} {ctx : Context} {doc doc' : Document} {number : Nat}
    {lines : List (List Char)} (hdoc : P doc)
    (h : (Run.bind (steps ancestor ctx ⟨doc, none⟩ number lines) finish).result = .ok doc') :
    P doc' := by
  obtain ⟨s, hsteps, hfinish⟩ := Run.bind_eq_ok.mp h
  have hends : Run.Ends (fun s => P s.document) (fun _ => True)
      (steps ancestor ctx ⟨doc, none⟩ number lines) :=
    steps_ends hP hdoc (fun _ _ => trivial) fun _ => ⟨fun _ _ => trivial, fun _ _ => trivial⟩
  have hlast := hends.value s hsteps
  rwa [finish_eq_ok hfinish] at hlast

/-! ## The lines that a parse comes to -/

/-- The parse of a file comes to the line `raw` with this number in the state `s`: the
lines in front of it have been processed without an error. -/
def Reaches (ancestor : Location → Run Document) (ctx : Context) (contents : ByteArray)
    (number : Nat) (raw : List Char) (s : State) : Prop :=
  ∃ text before after, String.fromUTF8? contents = some text ∧
    Text.physicalLines text.toList = before ++ raw :: after ∧ number = before.length + 1 ∧
    (steps ancestor ctx (State.start ctx) 1 before).result = .ok s

/-- The parse of a file comes to a line that inherits from the file at a location. -/
def LeadsTo (ancestor : Location → Run Document) (ctx : Context) (contents : ByteArray)
    (location : Location) : Prop :=
  ∃ number raw s, Reaches ancestor ctx contents number raw s ∧ Extends ctx s raw location

end ExerciseDoc.Parse
