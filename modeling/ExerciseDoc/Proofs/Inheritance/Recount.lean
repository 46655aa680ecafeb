import ExerciseDoc.Proofs.Document.Order
import ExerciseDoc.Proofs.Inheritance.Tour
import ExerciseDoc.Proofs.Parse.Agreement

/-!
# Inheritance — nothing lost, nothing twice

A parse goes where the tour of its root goes (`Recounts`): it makes the requests of the
lines that the tour visits, in that order, and up to the line where it fails. What it
returns has the comments of these lines in order and their dependencies (`Gains`), no
more and no fewer, however deep in the tree the lines are.
-/

namespace ExerciseDoc

/-! ## Runs that follow a tour -/

/-- The run makes the requests of the lines of an agenda in the order of the tour. If it
returns, the tour has come to its end, and `P` holds of the lines and the value. -/
inductive Recounts {α : Type} (resolver : Resolver) (agenda : List Visit)
    (P : List Visit → α → Prop) : Run α → Prop where
  | value {seen : List Visit} {a : α} : Tour resolver agenda seen [] → P seen a →
      Recounts resolver agenda P ⟨seen.filterMap Visit.request?, .ok a⟩
  | fault {seen left : List Visit} {e : ParseError} : Tour resolver agenda seen left →
      Recounts resolver agenda P ⟨seen.filterMap Visit.request?, .error e⟩

namespace Recounts

variable {α β : Type} {resolver : Resolver} {agenda agenda' : List Visit}
variable {P P' : List Visit → α → Prop} {Q : List Visit → β → Prop}

theorem ok {a : α} (h : P [] a) : Recounts resolver [] P (Run.ok a) :=
  .value .stop h

theorem error (e : ParseError) : Recounts resolver agenda P (Run.error e) :=
  .fault .stop

theorem mono {x : Run α} (h : Recounts resolver agenda P x)
    (hP : ∀ seen a, P seen a → P' seen a) : Recounts resolver agenda P' x := by
  cases h with
  | value htour ha => exact .value htour (hP _ _ ha)
  | fault htour => exact .fault htour

/-- Runs one behind the other follow their tours one behind the other. -/
theorem bind {x : Run α} {f : α → Run β} (h : Recounts resolver agenda P x)
    (hf : ∀ seen a, P seen a →
      Recounts resolver agenda' (fun seen' b => Q (seen ++ seen') b) (f a)) :
    Recounts resolver (agenda ++ agenda') Q (Run.bind x f) := by
  cases h with
  | fault htour => exact .fault (htour.append_right agenda')
  | @value seen a htour ha =>
      cases hrun : f a with | mk calls result =>
      have hrest := hf seen a ha
      rw [hrun] at hrest
      simp only [Run.bind, hrun]
      cases hrest with
      | value htour' hb =>
          rw [← List.filterMap_append]
          exact .value (htour.append htour') hb
      | fault htour' =>
          rw [← List.filterMap_append]
          exact .fault (htour.append htour')

/-- A line on its own: its request, and then what stands below it. -/
theorem visit {v : Visit} {x : Run α}
    (h : Recounts resolver (v.below resolver) (fun seen a => P (v :: seen) a) x) :
    Recounts resolver [v] P ⟨v.request?.toList ++ x.calls, x.result⟩ := by
  have hcalls : ∀ seen : List Visit, v.request?.toList ++ seen.filterMap Visit.request? =
      (v :: seen).filterMap Visit.request? := by
    intro seen
    cases hrequest : v.request? <;> simp [hrequest]
  cases h with
  | value htour ha =>
      rw [hcalls]
      exact .value (.visit (htour.append_right [])) ha
  | fault htour =>
      rw [hcalls]
      exact .fault (.visit (htour.append_right []))

/-- A line that makes no request and has nothing below it. -/
theorem quiet {v : Visit} {x : Run α} (hrequest : v.request? = none)
    (hbelow : v.below resolver = [])
    (h : Recounts resolver [] (fun seen a => P (v :: seen) a) x) :
    Recounts resolver [v] P x := by
  rw [← hbelow] at h
  have hvisit := h.visit
  rw [hrequest] at hvisit
  exact hvisit

theorem of_ok {x : Run α} {a : α} (h : Recounts resolver agenda P x)
    (hx : x.result = .ok a) :
    ∃ seen, Tour resolver agenda seen [] ∧ x.calls = seen.filterMap Visit.request? ∧
      P seen a := by
  cases h with
  | value htour ha =>
      cases hx
      exact ⟨_, htour, rfl, ha⟩
  | fault htour => cases hx

theorem exists_tour {x : Run α} (h : Recounts resolver agenda P x) :
    ∃ seen left, Tour resolver agenda seen left ∧
      x.calls = seen.filterMap Visit.request? := by
  cases h with
  | value htour _ => exact ⟨_, _, htour, rfl⟩
  | fault htour => exact ⟨_, _, htour, rfl⟩

end Recounts

/-! ## What lines add to a document -/

/-- The second document has, besides what the first one has, the comments of the lines
behind it and their dependencies. -/
structure Gains (resolver : Resolver) (doc : Document) (seen : List Visit)
    (doc' : Document) : Prop where
  comments : doc'.comments = doc.comments ++ seen.filterMap Visit.comment?
  dependencies : ∀ d, d ∈ doc'.dependencies ↔
    d ∈ doc.dependencies ∨ d ∈ seen.filterMap (Visit.dependency? resolver)

namespace Gains

variable {resolver : Resolver} {doc doc' doc'' : Document} {seen seen' : List Visit}
variable {v : Visit}

theorem of_same (hcomments : doc'.comments = doc.comments)
    (hdependencies : doc'.dependencies = doc.dependencies) : Gains resolver doc [] doc' := by
  constructor
  · simp [hcomments]
  · simp [hdependencies]

theorem refl (doc : Document) : Gains resolver doc [] doc :=
  of_same rfl rfl

theorem trans (h : Gains resolver doc seen doc') (h' : Gains resolver doc' seen' doc'') :
    Gains resolver doc (seen ++ seen') doc'' := by
  constructor
  · rw [h'.comments, h.comments, List.append_assoc, List.filterMap_append]
  · intro d
    rw [h'.dependencies, h.dependencies, List.filterMap_append, List.mem_append, or_assoc]

/-- A line that is neither a comment nor a dependency adds nothing by itself. -/
theorem behind (h : Gains resolver doc seen doc') (hcomment : v.comment? = none)
    (hdependency : v.dependency? resolver = none) :
    Gains resolver doc (v :: seen) doc' := by
  constructor
  · rw [h.comments, List.filterMap_cons_none hcomment]
  · intro d
    rw [h.dependencies, List.filterMap_cons_none hdependency]

theorem comment {text : String} (h : v.comment? = some text)
    (hdependency : v.dependency? resolver = none) :
    Gains resolver doc [v] (doc.addComment text) := by
  constructor
  · simp [Document.addComment, h]
  · simp [Document.addComment, hdependency]

theorem dependency {d : Dependency} (h : v.dependency? resolver = some d)
    (hcomment : v.comment? = none) : Gains resolver doc [v] (doc.addDependency d) := by
  constructor
  · simp [Document.addDependency, hcomment]
  · simp [Document.addDependency, h, Dependency.mem_insertInto, or_comm]

/-- An ancestor that is folded in adds what it has gained from its own start. -/
theorem merge {start found : Document} (hcomments : start.comments = [])
    (hdependencies : start.dependencies = []) (h : Gains resolver start seen found) :
    Gains resolver doc seen (doc.merge found) := by
  constructor
  · simp [Document.merge, h.comments, hcomments]
  · intro d
    simp [Document.merge, Dependency.mem_union, h.dependencies, hdependencies]

end Gains

namespace Parse

/-! ## Directives -/

/-- A line of the file of a context. -/
def Context.visit (ctx : Context) (directive : Directive) : Visit :=
  ⟨ctx.path, ctx.circleId, directive⟩

section Directives

variable {ctx : Context} {place : Place} {doc : Document}

theorem store_recounts (key : String) (incoming : Incoming) (mode : Mode) :
    Recounts ctx.resolver [] (Gains ctx.resolver doc) (store doc place key incoming mode) := by
  unfold store
  split
  · exact .ok (.of_same rfl rfl)
  · exact .ok (.of_same rfl rfl)
  · exact .error _

theorem storeText_recounts (key : String) (op : Operator) (origin : JsonOrigin)
    (text : String) :
    Recounts ctx.resolver [] (Gains ctx.resolver doc)
      (storeText doc place key op origin text) := by
  unfold storeText
  split
  · unfold storeJson
    split
    · exact store_recounts key _ _
    · exact .error _
  · exact store_recounts key _ _

theorem storeComponent_recounts (key name : String) :
    Recounts ctx.resolver [] (Gains ctx.resolver doc)
      (storeComponent doc place key name) := by
  unfold storeComponent
  split
  · exact store_recounts key _ _
  · exact .error _

/-- A line that refers to another file makes its request, whether it is answered or not,
and goes on only if it is. -/
theorem locate_recounts {α : Type} {P : List Visit → α → Prop} {v : Visit} {uri : String}
    {f : Location → Run α} (hrequest : v.request? = some (ctx.request uri))
    (h : ∀ location, ctx.resolver (ctx.request uri) = some location →
      Recounts ctx.resolver (v.below ctx.resolver) (fun seen a => P (v :: seen) a)
        (f location)) :
    Recounts ctx.resolver [v] P (Run.bind (locate ctx place uri) f) := by
  have hlocate : ∀ x : Run α, (⟨ctx.request uri :: x.calls, x.result⟩ : Run α) =
      ⟨v.request?.toList ++ x.calls, x.result⟩ := by
    intro x
    rw [hrequest]
    rfl
  rw [locate, Run.bind_assoc, Run.ask_bind]
  cases hfound : ctx.resolver (ctx.request uri) with
  | none =>
      simp only [Run.error_bind, hlocate]
      exact .visit (.error _)
  | some location =>
      simp only [Run.ok_bind, hlocate]
      exact .visit (h location hfound)

/-- What a directive does, an ancestor following the tour of its own lines. -/
theorem perform_recounts {f : Location → Run Document} (directive : Directive)
    (hanc : ∀ location, Recounts ctx.resolver location.visits
      (Gains ctx.resolver (State.start (ctx.under location)).document)
      (descend f ctx location)) :
    Recounts ctx.resolver [ctx.visit directive] (Gains ctx.resolver doc)
      (perform f ctx doc place directive) := by
  cases directive with
  | «extends» uri =>
      refine locate_recounts rfl fun location hfound => ?_
      have hbelow : (ctx.visit (.extends uri)).below ctx.resolver = location.visits ++ [] := by
        rw [List.append_nil]
        unfold Visit.below Context.visit Visit.ask
        unfold Context.request at hfound
        simp only [hfound]
      rw [hbelow]
      refine (hanc location).bind fun seen found hfound => .ok ?_
      rw [List.append_nil]
      exact (hfound.merge rfl rfl).behind rfl rfl
  | fromFile key op uri =>
      refine locate_recounts rfl fun location _ => ?_
      split
      · exact .error _
      · exact (storeText_recounts key op _ _).mono fun _ _ h => h.behind rfl rfl
  | link key uri =>
      refine locate_recounts rfl fun location _ => ?_
      exact (store_recounts key _ _).mono fun _ _ h => h.behind rfl rfl
  | component key name =>
      exact .quiet rfl rfl ((storeComponent_recounts key name).mono fun _ _ h => h.behind rfl rfl)
  | dependency uri name =>
      refine locate_recounts rfl fun location hfound => .ok ?_
      refine .dependency ?_ rfl
      unfold Visit.dependency? Context.visit Visit.ask
      unfold Context.request at hfound
      simp only [hfound, Option.map_some]
  | comment text => exact .quiet rfl rfl (.ok (.comment rfl rfl))
  | value key op text =>
      exact .quiet rfl rfl ((storeText_recounts key op _ text).mono fun _ _ h => h.behind rfl rfl)
  | openBlock key op => exact .quiet rfl rfl (.ok ((Gains.refl doc).behind rfl rfl))
  | blank => exact .quiet rfl rfl (.ok ((Gains.refl doc).behind rfl rfl))

end Directives

/-! ## Lines -/

section Lines

variable {f : Location → Run Document} {ctx : Context}
variable (hanc : ∀ location, Recounts ctx.resolver location.visits
  (Gains ctx.resolver (State.start (ctx.under location)).document)
  (descend f ctx location))

include hanc

/-- A line visits itself, if it is outside blocks and says something. -/
theorem step_recounts (s : State) (number : Nat) (raw : List Char) :
    Recounts ctx.resolver ((directive? s.block.isSome raw).toList.map ctx.visit)
      (fun seen s' => s'.block.isSome = inBlockAfter s.block.isSome raw ∧
        Gains ctx.resolver s.document seen s'.document)
      (step f ctx s number raw) := by
  obtain ⟨doc, block⟩ := s
  cases block with
  | some block =>
      simp only [step, directive?, inBlockAfter, Option.isSome_some, Option.toList_none,
        List.map_nil]
      split
      · rename_i hcloses
        refine (storeText_recounts block.key block.op .block _).bind fun seen doc' hgains =>
          .ok ⟨?_, ?_⟩
        · simp [hcloses]
        · rw [List.append_nil]
          exact hgains
      · rename_i hcloses
        exact .ok ⟨by simp [hcloses], .refl doc⟩
  | none =>
      simp only [step, directive?, inBlockAfter, Option.isSome_none]
      have hperform : ∀ place directive, Recounts ctx.resolver [ctx.visit directive]
          (fun seen (s' : State) => s'.block.isSome = false ∧
            Gains ctx.resolver doc seen s'.document)
          (Run.bind (perform f ctx doc place directive) fun doc => Run.ok ⟨doc, none⟩) := by
        intro place directive
        refine (perform_recounts directive hanc).bind fun seen doc' hgains => .ok ⟨rfl, ?_⟩
        rw [List.append_nil]
        exact hgains
      cases hshape : Line.classify (Text.lineBody raw) with
      | none => exact .error _
      | some directive =>
          -- Only the line that opens a block leaves one open.
          cases directive with
          | openBlock key op =>
              exact .quiet rfl rfl (.ok ⟨rfl, (Gains.refl doc).behind rfl rfl⟩)
          | _ => exact hperform _ _

theorem steps_recounts (s : State) (number : Nat) (lines : List (List Char)) :
    Recounts ctx.resolver ((directives s.block.isSome lines).map ctx.visit)
      (fun seen s' => Gains ctx.resolver s.document seen s'.document)
      (steps f ctx s number lines) := by
  induction lines generalizing s number with
  | nil => exact .ok (.refl _)
  | cons raw rest ih =>
      rw [directives, List.map_append]
      refine (step_recounts hanc s number raw).bind fun seen s' h => ?_
      obtain ⟨hblock, hgains⟩ := h
      rw [← hblock]
      exact (ih s' (number + 1)).mono fun _ _ hrest => hgains.trans hrest

theorem fileWith_recounts (contents : ByteArray) :
    Recounts ctx.resolver (Location.visits ⟨contents, ctx.path, ctx.circleId⟩)
      (Gains ctx.resolver (State.start ctx).document) (fileWith f ctx contents) := by
  unfold fileWith
  cases htext : String.fromUTF8? contents with
  | none => exact .error _
  | some text =>
      have hvisits : Location.visits ⟨contents, ctx.path, ctx.circleId⟩ =
          (directives false (Text.physicalLines text.toList)).map ctx.visit ++ [] := by
        simp only [Location.visits, htext, List.append_nil]
        rfl
      rw [hvisits]
      refine (steps_recounts hanc (State.start ctx) 1 _).bind fun seen s hgains => ?_
      unfold finish
      split
      · exact .error _
      · refine .ok ?_
        rw [List.append_nil]
        exact hgains

end Lines

/-! ## Files -/

/-- **A file goes where the tour goes.** -/
theorem fileIn_recounts (ctx : Context) (contents : ByteArray) :
    Recounts ctx.resolver (Location.visits ⟨contents, ctx.path, ctx.circleId⟩)
      (Gains ctx.resolver (State.start ctx).document) (fileIn ctx contents) := by
  induction ctx using Context.descent generalizing contents with
  | further ctx ih =>
      rw [fileIn_eq]
      refine fileWith_recounts ?_ contents
      intro location
      rw [descend_ancestor]
      cases hrefusal : refusal ctx location with
      | some e => exact .error e
      | none => exact ih location hrefusal location.contents

theorem parse_recounts (settings : Settings) (source : Location) :
    Recounts settings.resolver source.visits
      (Gains settings.resolver (State.start (contextOf settings source)).document)
      (parse settings source) := by
  rw [parse_eq, ← List.append_nil source.visits]
  refine (fileIn_recounts (contextOf settings source) source.contents).bind
    fun seen doc hgains => ?_
  -- The check makes no request and changes nothing.
  split
  · unfold checked
    split
    · exact .error _
    · refine .ok ?_
      rw [List.append_nil]
      exact hgains
  · refine .ok ?_
    rw [List.append_nil]
    exact hgains

/-- **Nothing is lost over the tree of ancestors, and nothing comes twice.** A parse that
succeeds has gone on the whole tour of its root: its requests are those of the lines that
refer to another file, its comments are the comments of the tour, both in the order of
the tour, and its dependencies, in strictly ascending order, are those of the tour. The
document keeps the path, the circle and the format of the root. A parse that fails has
made the requests of the lines up to some point of the tour. -/
theorem parse_follows_tour (settings : Settings) (source : Location) :
    (∀ doc, (parse settings source).result = .ok doc →
      ∃ visits, Tour settings.resolver source.visits visits [] ∧
        (parse settings source).calls = visits.filterMap Visit.request? ∧
        doc.comments = visits.filterMap Visit.comment? ∧
        Dependency.Ascending doc.dependencies ∧
        (∀ d, d ∈ doc.dependencies ↔
          d ∈ visits.filterMap (Visit.dependency? settings.resolver)) ∧
        doc.path = source.path ∧ doc.circleId = source.circleId ∧ doc.format = formatTag) ∧
    (∀ e, (parse settings source).result = .error e →
      (∃ visits left, Tour settings.resolver source.visits visits left ∧
        (parse settings source).calls = visits.filterMap Visit.request?) ∧
      ∀ visits, Tour settings.resolver source.visits visits [] →
        (parse settings source).calls <+: visits.filterMap Visit.request?) := by
  have hrecounts := parse_recounts settings source
  constructor
  · intro doc hdoc
    obtain ⟨visits, htour, hcalls, hgains⟩ := hrecounts.of_ok hdoc
    have hfile := parse_eq_ok hdoc
    have hheader := fileIn_header hfile
    refine ⟨visits, htour, hcalls, ?_, (fileIn_ordered hfile).dependencies, ?_, hheader⟩
    · rw [hgains.comments]
      rfl
    · intro d
      rw [hgains.dependencies]
      simp [State.start, Document.empty]
  · intro e _
    obtain ⟨seen, left, htour, hcalls⟩ := hrecounts.exists_tour
    refine ⟨⟨seen, left, htour, hcalls⟩, ?_⟩
    intro visits hwhole
    rw [hcalls]
    exact (hwhole.isPrefix htour).filterMap _

/-! An heir in one circle, and its ancestor in another circle and another directory. -/

def circlesResolver : Resolver := fun q =>
  if q.uri = "b" then some ⟨"# of b\n@ g [x]".toUTF8, ⟨0, "e/b"⟩, 5⟩
  else if q.uri = "g" ∨ q.uri = "t" then some ⟨"".toUTF8, ⟨0, q.uri⟩, q.circleId⟩
  else none

def heirOfCircles : Location :=
  ⟨"# of a\nextends = b\n@ t".toUTF8, ⟨0, "d/a"⟩, 1⟩

/-- The same with a line that leads nowhere. -/
def brokenHeirOfCircles : Location :=
  ⟨"extends = b\n@ u\n@ t".toUTF8, ⟨0, "d/a"⟩, 1⟩

/-- The request of the ancestor comes between those of the heir and is made from its own
directory and circle, and its comment comes last. The requests of the broken heir end
with the one that has no answer. -/
theorem parse_follows_tour_circles :
    (∃ doc visits, (parse ⟨circlesResolver, [], 64, false⟩ heirOfCircles).result = .ok doc ∧
      Tour circlesResolver heirOfCircles.visits visits [] ∧
      visits.filterMap Visit.request? =
        [⟨"b", "d", 0, 1⟩, ⟨"g", "e", 0, 5⟩, ⟨"t", "d", 0, 1⟩] ∧
      visits.filterMap Visit.comment? = ["# of a", "# of b"] ∧
      (∀ d, d ∈ visits.filterMap (Visit.dependency? circlesResolver) ↔
        d ∈ [(⟨⟨0, "g"⟩, "x"⟩ : Dependency), ⟨⟨0, "t"⟩, "t"⟩]) ∧
      doc.circleId = 1) ∧
    ∃ visits left, Tour circlesResolver brokenHeirOfCircles.visits visits left ∧
      visits.filterMap Visit.request? =
        [⟨"b", "d", 0, 1⟩, ⟨"g", "e", 0, 5⟩, ⟨"u", "d", 0, 1⟩] := by
  have hcalls : (parse ⟨circlesResolver, [], 64, false⟩ heirOfCircles).calls =
      [⟨"b", "d", 0, 1⟩, ⟨"g", "e", 0, 5⟩, ⟨"t", "d", 0, 1⟩] := by decide +kernel
  have hlists : ((parse ⟨circlesResolver, [], 64, false⟩ heirOfCircles).result.toOption.map
      fun doc => (doc.comments, doc.dependencies)) =
      some (["# of a", "# of b"], [⟨⟨0, "g"⟩, "x"⟩, ⟨⟨0, "t"⟩, "t"⟩]) := by decide +kernel
  have hcalls' : (parse ⟨circlesResolver, [], 64, false⟩ brokenHeirOfCircles).calls =
      [⟨"b", "d", 0, 1⟩, ⟨"g", "e", 0, 5⟩, ⟨"u", "d", 0, 1⟩] := by decide +kernel
  have hfault : (parse ⟨circlesResolver, [], 64, false⟩ brokenHeirOfCircles).result =
      .error (.line ⟨⟨0, "d/a"⟩, "@ u", 2⟩ (.unresolved "u")) := rfl
  constructor
  · obtain ⟨doc, hdoc, hlists⟩ := Option.map_eq_some_iff.mp hlists
    obtain ⟨hcomments, hdependencies⟩ := Prod.mk.inj hlists
    have hresult := Run.result_of_toOption hdoc
    obtain ⟨visits, htour, hcalls'', hcomments', -, hdependencies', -, hcircle, -⟩ :=
      (parse_follows_tour _ _).1 doc hresult
    refine ⟨doc, visits, hresult, htour, hcalls''.symm.trans hcalls,
      hcomments'.symm.trans hcomments, ?_, hcircle⟩
    intro d
    rw [← hdependencies', hdependencies]
  · obtain ⟨⟨visits, left, htour, hcalls''⟩, -⟩ := (parse_follows_tour _ _).2 _ hfault
    exact ⟨visits, left, htour, hcalls''.symm.trans hcalls'⟩

end Parse

end ExerciseDoc
