import ExerciseDoc.Proofs.Document.Order
import ExerciseDoc.Proofs.Inheritance.Independence
import ExerciseDoc.Proofs.Text.Lines

/-!
# Inheritance — textual inclusion

A file whose first line inherits from a file beside it says what one text says: the
lines of that file and then its own other lines. The ancestor's lines do the same in
the context of the heir as in their own, since they make the same requests from there
and fewer files are refused (`steps_beside`). Folded into the empty document in front of
the first line, the ancestor's document is what its lines leave in front of the rest.
-/

namespace ExerciseDoc.Parse

/-! ## Lines with and without a terminator -/

section Lines

variable {f : Location → Run Document} {ctx : Context}

/-- A line that leaves no block open does the same with a terminator. -/
theorem step_append_feed {s s' : State} {number : Nat} {raw : List Char}
    (hraw : '\n' ∉ raw) (h : (step f ctx s number raw).result = .ok s')
    (hidle : s'.block = none) :
    step f ctx s number (raw ++ ['\n']) = step f ctx s number raw := by
  obtain ⟨doc, block⟩ := s
  cases block with
  | none => simp only [step, Text.lineBody_append_feed hraw]
  | some block =>
      simp only [step] at h ⊢
      rw [Text.lineBody_append_feed hraw]
      split at h
      · rename_i hcloses
        rw [if_pos hcloses, if_pos hcloses]
      · -- A line that is collected leaves its block open.
        cases h
        cases hidle

/-- A text whose lines leave no block open does the same with a terminator behind its
last line. -/
theorem steps_terminated {s : State} {text : String}
    (h : (steps f ctx (State.start ctx) 1 (Text.physicalLines text.toList)).result = .ok s)
    (hidle : s.block = none) :
    steps f ctx (State.start ctx) 1 (Text.physicalLines (Text.terminated text).toList) =
      steps f ctx (State.start ctx) 1 (Text.physicalLines text.toList) := by
  rcases Text.physicalLines_terminated text with hsame | ⟨hempty, hfeed⟩ |
    ⟨before, raw, hraw, hlines, hlines'⟩
  · rw [hsame]
  · -- The line that is added to the empty text is blank.
    rw [hempty, hfeed]
    rfl
  · rw [hlines, hlines', steps_append, steps_append]
    rw [hlines, steps_append] at h
    obtain ⟨s₁, hbefore, hlast⟩ := Run.bind_eq_ok.mp h
    obtain ⟨s₂, hstep, hend⟩ := Run.bind_eq_ok.mp hlast
    cases hend
    have hsame := step_append_feed hraw hstep hidle
    simp only [Run.bind, hbefore, steps, hsame]

end Lines

/-! ## The lines of an ancestor -/

/-- The file at a location stands beside the file of a context: in its repository, its
directory and its circle. -/
structure Beside (ctx : Context) (location : Location) : Prop where
  resource : location.path.resourceId = ctx.path.resourceId
  directory : location.path.directory = ctx.path.directory
  circle : location.circleId = ctx.circleId

theorem Beside.request {ctx : Context} {location : Location} (h : Beside ctx location)
    (uri : String) : (ctx.under location).request uri = ctx.request uri := by
  simp only [Context.request, Context.under, h.resource, h.directory, h.circle]

theorem Beside.alongside {ctx : Context} {location : Location} (h : Beside ctx location) :
    Alongside (· = ·) (ctx.under location) ctx :=
  .of_request_eq h.request rfl

/-- Whatever an ancestor inherits from in its own context, its heir inherits from alike:
the heir's chain is that of the ancestor without the ancestor. -/
theorem descend_beside (ctx : Context) (location further : Location) :
    Run.Agree (fun _ _ => True) ParseError.OfInheritance (fun _ => False) Document.Alike
      (descend (ancestor (ctx.under location)) (ctx.under location) further)
      (descend (ancestor ctx) ctx further) := by
  cases hrefusal : refusal (ctx.under location) further with
  | some e =>
      rw [descend_of_refusal hrefusal]
      exact .left rfl (refusal_ofInheritance hrefusal)
  | none =>
      -- The heir refuses nothing that the ancestor does not refuse.
      have hsub : ctx.chain ⊆ (ctx.under location).chain := List.subset_append_left _ _
      have hlength : ctx.chain.length ≤ (ctx.under location).chain.length := by
        simp only [Context.under, List.length_append]
        omega
      rw [descend_of_no_refusal hrefusal,
        descend_of_no_refusal (refusal_eq_none_of_subset hrefusal hsub hlength rfl)]
      apply (subChain_simulation fun _ => trivial).fileIn_agree
      refine ⟨ctx.chain ++ [further.path], rfl, ?_, ?_⟩
      · exact List.append_subset.mpr ⟨List.subset_append_of_subset_left _ hsub,
          List.subset_append_right _ _⟩
      · simp [Context.under]

/-- The lines of a file beside the heir, which that file comes to a document with, leave
the same document in the context of the heir, after the same requests. -/
theorem steps_beside {ctx : Context} {location : Location} {base : String}
    (hbeside : Beside ctx location) {found : Document}
    (h : (fileIn (ctx.under location) base.toUTF8).result = .ok found) :
    ∃ doc, (steps (ancestor ctx) ctx (State.start ctx) 1
        (Text.physicalLines (Text.terminated base).toList)).result = .ok ⟨doc, none⟩ ∧
      (fileIn (ctx.under location) base.toUTF8).calls =
        (steps (ancestor ctx) ctx (State.start ctx) 1
          (Text.physicalLines (Text.terminated base).toList)).calls ∧
      found.Alike doc := by
  rw [fileIn_eq, fileWith_toUTF8] at h
  obtain ⟨s, hsteps, hfinish⟩ := Run.bind_eq_ok.mp h
  have hs := finish_eq_ok hfinish
  subst hs
  have hstart : State.Alike (fun _ _ => True) (State.start (ctx.under location))
      (State.start ctx) := .idle ⟨ctx.path, ctx.circleId, rfl⟩
  have hanc : ∀ further further', BothFind (ctx.under location) ctx further further' →
      Run.Agree (fun _ _ => True) ParseError.OfInheritance (fun _ => False) Document.Alike
        (descend (ancestor (ctx.under location)) (ctx.under location) further)
        (descend (ancestor ctx) ctx further') := by
    intro further further' hfind
    obtain rfl := hfind.eq hbeside.request rfl
    exact descend_beside ctx location further
  have hagree : Run.Agree (fun _ _ => True) ParseError.OfInheritance (fun _ => False) _
      (steps (ancestor (ctx.under location)) (ctx.under location)
        (State.start (ctx.under location)) 1 (Text.physicalLines base.toList))
      (steps (ancestor ctx) ctx (State.start ctx) 1 (Text.physicalLines base.toList)) :=
    steps_agree hbeside.alongside hanc hstart _ fun _ _ _ => trivial
  obtain ⟨s', hsteps', hcalls, halike⟩ := hagree.of_ok hsteps
  cases halike with
  | @idle _ doc hdoc =>
      refine ⟨doc, ?_, ?_, hdoc⟩
      · rw [steps_terminated hsteps' rfl, hsteps']
      · rw [steps_terminated hsteps' rfl, ← hcalls, fileIn_eq, fileWith_toUTF8]
        simp [Run.bind, hsteps, finish, Run.ok]

/-- In front of the first line, an ancestor beside the heir leaves its own document, as
the heir's. -/
theorem merge_start {ctx : Context} {location : Location} {contents : ByteArray}
    (hbeside : Beside ctx location) {found : Document}
    (h : (fileIn (ctx.under location) contents).result = .ok found) :
    (State.start ctx).document.merge found = { found with path := ctx.path } := by
  obtain ⟨-, hcircle, hformat⟩ := fileIn_header h
  have hsame : found.circleId = ctx.circleId := hcircle.trans hbeside.circle
  rw [State.start, (fileIn_ordered h).merge_empty, ← hsame, ← hformat]

/-! ## The file and its text -/

theorem locate_bind {α : Type} {ctx : Context} {uri : String} {location : Location}
    (hfound : ctx.resolver (ctx.request uri) = some location) (place : Place)
    (f : Location → Run α) :
    Run.bind (locate ctx place uri) f =
      Run.bind (Run.ask ctx.resolver (ctx.request uri)) fun _ => f location := by
  rw [locate, Run.bind_assoc, Run.ask_bind, Run.ask_bind]
  simp only [hfound, Run.ok_bind]

/-- A file whose first line inherits from the file at a location is, after the request
for that file, the ancestor folded into the empty document and then the other lines. -/
theorem fileIn_extends {ctx : Context} {line rest uri : String} {location : Location}
    (hlines : Text.physicalLines (line ++ rest).toList =
      line.toList :: Text.physicalLines rest.toList)
    (hshape : Line.classify (Text.lineBody line.toList) = some (.extends uri))
    (hfound : ctx.resolver (ctx.request uri) = some location) :
    fileIn ctx (line ++ rest).toUTF8 =
      Run.bind (Run.ask ctx.resolver (ctx.request uri)) fun _ =>
        Run.bind (descend (ancestor ctx) ctx location) fun found =>
          Run.bind (steps (ancestor ctx) ctx ⟨(State.start ctx).document.merge found, none⟩ 2
            (Text.physicalLines rest.toList)) finish := by
  rw [fileIn_eq, fileWith_toUTF8, hlines]
  simp only [steps, step, State.start, hshape, perform, inherit, locate_bind hfound,
    Run.bind_assoc, Run.ok_bind]

/-- An ancestor beside the heir is followed by its own lines. -/
theorem descend_follows {ctx : Context} {location : Location} {base : String}
    (hbase : location.contents = base.toUTF8) (hbeside : Beside ctx location) :
    Run.Follows (fun found s => ∃ doc, s = ⟨doc, none⟩ ∧
        ((State.start ctx).document.merge found).Alike doc)
      (descend (ancestor ctx) ctx location)
      (steps (ancestor ctx) ctx (State.start ctx) 1
        (Text.physicalLines (Text.terminated base).toList)) := by
  apply Run.Agree.follows
  intro found h
  cases hrefusal : refusal ctx location with
  | some e =>
      rw [descend_of_refusal hrefusal] at h
      cases h
  | none =>
      rw [descend_of_no_refusal hrefusal, hbase] at h ⊢
      obtain ⟨doc, hsteps, hcalls, path, circleId, rfl⟩ := steps_beside hbeside h
      rw [merge_start hbeside h]
      exact ⟨_, hsteps, hcalls, _, rfl, path, circleId, rfl⟩

/-- From documents that are alike the same lines come to documents that are, whatever
numbers the lines have. -/
theorem steps_follow (ctx : Context) {doc doc' : Document} (hdoc : doc.Alike doc')
    (number number' : Nat) (lines : List (List Char)) :
    Run.Follows Document.Alike
      (Run.bind (steps (ancestor ctx) ctx ⟨doc, none⟩ number lines) finish)
      (Run.bind (steps (ancestor ctx) ctx ⟨doc', none⟩ number' lines) finish) := by
  have hanc : ∀ location location', BothFind ctx ctx location location' →
      Run.Follows Document.Alike (descend (ancestor ctx) ctx location)
        (descend (ancestor ctx) ctx location') := by
    intro location location' hfind
    obtain rfl := (SameFile.refl ctx).location_eq hfind
    apply (Run.Agree.refl (fun _ => trivial) _).mono
    rintro found _ _ _ rfl
    exact .refl found
  exact Run.Accord.bind (steps_agree (SameFile.refl ctx).alongside hanc (.idle hdoc) lines
    fun _ _ _ => trivial) fun _ _ hs => finish_agree hs

/-- **An ancestor in the first line is text.** A file whose first line inherits from a
file beside it comes to the same document as its text with the lines of that file in
place of the first line. The text lacks the request for that file and makes all others. -/
theorem fileIn_included {ctx : Context} {line rest base uri : String} {location : Location}
    (hlines : Text.physicalLines (line ++ rest).toList =
      line.toList :: Text.physicalLines rest.toList)
    (hshape : Line.classify (Text.lineBody line.toList) = some (.extends uri))
    (hfound : ctx.resolver (ctx.request uri) = some location)
    (hbase : location.contents = base.toUTF8) (hbeside : Beside ctx location)
    {doc : Document} (h : (fileIn ctx (line ++ rest).toUTF8).result = .ok doc) :
    (fileIn ctx (Text.terminated base ++ rest).toUTF8).result = .ok doc ∧
      (fileIn ctx (line ++ rest).toUTF8).calls =
        ctx.request uri :: (fileIn ctx (Text.terminated base ++ rest).toUTF8).calls := by
  have hheir := fileIn_extends hlines hshape hfound
  rw [Run.ask_bind] at hheir
  have hfollows : Run.Follows Document.Alike
      (Run.bind (descend (ancestor ctx) ctx location) fun found =>
        Run.bind (steps (ancestor ctx) ctx ⟨(State.start ctx).document.merge found, none⟩ 2
          (Text.physicalLines rest.toList)) finish)
      (fileIn ctx (Text.terminated base ++ rest).toUTF8) := by
    rw [fileIn_eq, fileWith_toUTF8, String.toList_append,
      Text.physicalLines_append (Text.whole_terminated base), steps_append, Run.bind_assoc]
    refine Run.Accord.bind (descend_follows hbase hbeside) ?_
    rintro found _ ⟨doc, rfl, hdoc⟩
    exact steps_follow ctx hdoc _ _ _
  -- Both documents are the heir's, so they differ in nothing.
  have hreturns := h
  rw [hheir] at hreturns
  obtain ⟨doc', hdoc', hcalls, halike⟩ := hfollows.of_ok hreturns
  have hheader := fileIn_header h
  have hheader' := fileIn_header hdoc'
  rw [halike.eq (by rw [hheader.1, hheader'.1]) (by rw [hheader.2.1, hheader'.2.1])] at hdoc'
  refine ⟨hdoc', ?_⟩
  rw [hheir, hcalls]

/-! ## Whole parses -/

/-- **Inheritance in the first line is textual inclusion.** A file starts with the line
`line`, which inherits from a file beside it: one in the same repository and circle,
with the same directory. If the parse of the file yields a document, then the parse of
the text in which the lines of that other file stand in place of `line`, terminated,
yields the same one, and makes all the requests but the one for that file. -/
theorem parse_included (settings : Settings) (path found : FullPath) (circleId : Int)
    (line rest base uri : String) (doc : Document)
    (hline : Text.physicalLines line.toList = [line.toList])
    (hend : line.toList.getLast? = some '\n' ∨ rest = "")
    (hshape : Line.classify (Text.lineBody line.toList) = some (.extends uri))
    (hfound : settings.resolver ⟨uri, path.directory, path.resourceId, circleId⟩ =
      some ⟨base.toUTF8, found, circleId⟩)
    (hresource : found.resourceId = path.resourceId)
    (hdirectory : found.directory = path.directory)
    (h : (parse settings ⟨(line ++ rest).toUTF8, path, circleId⟩).result = .ok doc) :
    (parse settings ⟨(Text.terminated base ++ rest).toUTF8, path, circleId⟩).result =
        .ok doc ∧
      (parse settings ⟨(line ++ rest).toUTF8, path, circleId⟩).calls =
        ⟨uri, path.directory, path.resourceId, circleId⟩ ::
          (parse settings
            ⟨(Text.terminated base ++ rest).toUTF8, path, circleId⟩).calls := by
  have hlines : Text.physicalLines (line ++ rest).toList =
      line.toList :: Text.physicalLines rest.toList := by
    rcases hend with hend | rfl
    · rw [String.toList_append, Text.physicalLines_append (.inr hend), hline]
      rfl
    · rw [String.append_empty, hline]
      rfl
  have hparse : ∀ contents, parse settings ⟨contents, path, circleId⟩ =
      Run.bind (fileIn (contextOf settings ⟨ByteArray.empty, path, circleId⟩) contents)
        (if settings.checkMandatoryKeys then checked else Run.ok) :=
    fun contents => parse_eq settings ⟨contents, path, circleId⟩
  have hbeside : Beside (contextOf settings ⟨ByteArray.empty, path, circleId⟩)
      ⟨base.toUTF8, found, circleId⟩ := ⟨hresource, hdirectory, rfl⟩
  rw [hparse] at h
  rw [hparse, hparse]
  obtain ⟨doc', hfile, hchecked⟩ := Run.bind_eq_ok.mp h
  obtain ⟨htext, hcalls⟩ := fileIn_included hlines hshape hfound rfl hbeside hfile
  constructor
  · rw [Run.result_bind_of_ok _ htext]
    exact hchecked
  · rw [Run.calls_bind_of_ok _ hfile, Run.calls_bind_of_ok _ htext, hcalls]
    rfl

/-! A file that inherits from one other file in its first line. -/

/-- The heir and its text, in which the line of the other file has a terminator. -/
theorem parse_included_heir :
    ∃ doc : Document, doc.data = [("x", .int 1)] ∧ doc.comments = ["# y"] ∧
      (parse ⟨heirResolver, [], 64, false⟩
        ⟨("extends = b\n" ++ "# y").toUTF8, ⟨0, "a"⟩, 0⟩).result = .ok doc ∧
      (parse ⟨heirResolver, [], 64, false⟩
        ⟨("x = 1\n" ++ "# y").toUTF8, ⟨0, "a"⟩, 0⟩).result = .ok doc := by
  have hheir : (parse ⟨heirResolver, [], 64, false⟩
      ⟨("extends = b\n" ++ "# y").toUTF8, ⟨0, "a"⟩, 0⟩).result =
      .ok ⟨⟨0, "a"⟩, 0, "pl", [], ["# y"], [], [("x", .int 1)]⟩ := rfl
  have htext := parse_included ⟨heirResolver, [], 64, false⟩ ⟨0, "a"⟩ ⟨0, "b"⟩ 0
    "extends = b\n" "# y" "x = 1" "b" _ rfl (.inl rfl) rfl rfl rfl rfl hheir
  exact ⟨_, rfl, rfl, hheir, htext.1⟩

end ExerciseDoc.Parse
