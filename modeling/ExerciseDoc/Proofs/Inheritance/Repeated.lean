import ExerciseDoc.Proofs.Document.InOrder
import ExerciseDoc.Proofs.Inheritance.Inclusion
import ExerciseDoc.Proofs.Parse.Remarks
import ExerciseDoc.Proofs.Value.Overlay

/-!
# Inheritance — inheriting twice

An ancestor that has been folded into a document may be folded in again: its data and its
dependencies are there already, so only its comments and warnings are repeated
(`Document.merge_merge_self`). The lines behind do not look at these (`steps_behind`), so a
file in which an `extends` line stands twice comes to the same document as with one such line,
but for the comments and the warnings of the ancestor (`fileIn_repeated`).
-/

namespace ExerciseDoc

/-! ## An ancestor folded in twice -/

/-- The document without its comments and warnings. -/
def Document.bare (doc : Document) : Document :=
  { doc with comments := [], warnings := [] }

theorem Document.bare_behind (doc : Document) :
    doc.bare.behind doc.comments doc.warnings = doc := by
  simp [bare, behind]

/-- Folded in again, an ancestor adds nothing but its comments and warnings. -/
theorem Document.merge_merge_self {doc found : Document} (hdoc : doc.InOrder)
    (hordered : doc.Ordered) (hfound : found.InOrder) :
    (doc.merge found).merge found =
      (doc.merge found).bare.behind ((doc.merge found).comments ++ found.comments)
        ((doc.merge found).warnings ++ found.warnings) := by
  have hdata : Mapping.merge (doc.merge found).data found.data = (doc.merge found).data :=
    Mapping.merge_merge_self hdoc hfound
  have hdependencies : found.dependencies.foldl (fun ds d => d.insertInto ds)
      (doc.merge found).dependencies = (doc.merge found).dependencies :=
    Dependency.union_of_subset (hordered.dependencies.union _)
      fun d hd => Dependency.mem_union.mpr (.inr hd)
  rw [Document.merge, hdata, hdependencies]
  simp [bare, behind]

namespace Parse

/-! ## The line -/

/-- The document of an ancestor is what its file is parsed to. -/
theorem fileIn_of_descend {ctx : Context} {location : Location} {found : Document}
    (h : (descend (ancestor ctx) ctx location).result = .ok found) :
    (fileIn (ctx.under location) location.contents).result = .ok found := by
  rw [descend_ancestor] at h
  split at h
  · cases h
  · exact h

section Line

variable {ctx : Context} {raw : List Char} {uri : String}
variable (hshape : Line.classify (Text.lineBody raw) = some (.extends uri))

include hshape

/-- An `extends` line outside blocks folds in the document of the ancestor that it leads to,
whatever its number is. -/
theorem step_extends {location : Location} {found : Document}
    (hfound : ctx.resolver (ctx.request uri) = some location)
    (hdescend : (descend (ancestor ctx) ctx location).result = .ok found) (doc : Document)
    (number : Nat) :
    (step (ancestor ctx) ctx ⟨doc, none⟩ number raw).result = .ok ⟨doc.merge found, none⟩ := by
  simp only [step, hshape, perform, inherit, Run.bind_assoc, Run.ok_bind]
  rw [locate_bind hfound, Run.ask_bind, Run.result_bind_of_ok _ hdescend]
  rfl

/-- Only so does it succeed. -/
theorem step_extends_eq_ok {doc : Document} {number : Nat} {s : State}
    (h : (step (ancestor ctx) ctx ⟨doc, none⟩ number raw).result = .ok s) :
    ∃ location found, ctx.resolver (ctx.request uri) = some location ∧
      (descend (ancestor ctx) ctx location).result = .ok found ∧
      s = ⟨doc.merge found, none⟩ := by
  simp only [step, hshape, perform, inherit, Run.bind_assoc, Run.ok_bind] at h
  obtain ⟨location, hlocate, hrest⟩ := Run.bind_eq_ok.mp h
  obtain ⟨found, hdescend, hstate⟩ := Run.bind_eq_ok.mp hrest
  have hfound := (locate_ends (p := fun _ => True) (fun _ => trivial) uri).value _ hlocate
  exact ⟨location, found, hfound, hdescend, (Except.ok.inj hstate).symm⟩

end Line

/-! ## The lines behind it -/

/-- Lines behind documents that differ in their comments and warnings alone come to
documents that do, whatever numbers the lines have. -/
theorem steps_behind_follow {ctx : Context} {base doc : Document} {number : Nat}
    {lines : List (List Char)} {comments warnings : List String}
    (h : (Run.bind (steps (ancestor ctx) ctx ⟨base.behind comments warnings, none⟩ number lines)
      finish).result = .ok doc) :
    ∃ rest : Document, doc = rest.behind comments warnings ∧
      ∀ comments' warnings' number',
        (Run.bind (steps (ancestor ctx) ctx ⟨base.behind comments' warnings', none⟩ number'
          lines) finish).result = .ok (rest.behind comments' warnings') := by
  -- With nothing in front, the lines come to one document under all numbers.
  have hbehind : ∀ comments warnings number,
      Run.bind (steps (ancestor ctx) ctx ⟨base.behind comments warnings, none⟩ number lines)
          finish =
        Run.bind (Run.bind (steps (ancestor ctx) ctx ⟨base, none⟩ number lines) finish)
          fun doc => Run.ok (doc.behind comments warnings) := by
    intro comments warnings number
    have hsteps := steps_behind (ancestor ctx) ctx ⟨base, none⟩ comments warnings number lines
    rw [State.behind] at hsteps
    simp only [hsteps, Run.bind_assoc, Run.ok_bind, finish_behind]
  rw [hbehind] at h
  obtain ⟨rest, hrest, hdoc⟩ := Run.bind_eq_ok.mp h
  refine ⟨rest, (Except.ok.inj hdoc).symm, fun comments' warnings' number' => ?_⟩
  obtain ⟨rest', hrest', -, halike⟩ :=
    (steps_follow ctx (.refl base) number number' lines).of_ok hrest
  have hlasting := header_lasting base.path base.circleId base.format
  have hheader := hlasting.of_finish ⟨rfl, rfl, rfl⟩ hrest
  have hheader' := hlasting.of_finish ⟨rfl, rfl, rfl⟩ hrest'
  rw [halike.eq (by rw [hheader.1, hheader'.1]) (by rw [hheader.2.1, hheader'.2.1])] at hrest'
  rw [hbehind, Run.result_bind_of_ok _ hrest']
  rfl

/-! ## The file -/

/-- The line is a single one, and whole lines are in front of it. It ends with a line feed,
or nothing follows it. -/
structure StandsAlone (before line after : String) : Prop where
  whole : Text.Whole before.toList
  single : Text.physicalLines line.toList = [line.toList]
  ended : line.toList.getLast? = some '\n' ∨ after = ""

theorem StandsAlone.physicalLines {before line after : String}
    (h : StandsAlone before line after) :
    Text.physicalLines (before ++ line ++ after).toList =
      Text.physicalLines before.toList ++ line.toList :: Text.physicalLines after.toList := by
  rw [String.append_assoc, String.toList_append, Text.physicalLines_append h.whole]
  congr 1
  rcases h.ended with hend | rfl
  · rw [String.toList_append, Text.physicalLines_append (.inr hend), h.single]
    rfl
  · rw [String.append_empty, h.single]
    rfl

/-- In front of itself the line stands terminated. -/
theorem StandsAlone.physicalLines_twice {before line after : String}
    (h : StandsAlone before line after) :
    Text.physicalLines (before ++ Text.terminated line ++ line ++ after).toList =
      Text.physicalLines before.toList ++
        (Text.terminated line).toList :: line.toList :: Text.physicalLines after.toList := by
  have hwhole : Text.Whole (before ++ Text.terminated line).toList := by
    rw [String.toList_append]
    rcases Text.whole_terminated line with hempty | hlast
    · rw [hempty, List.append_nil]
      exact h.whole
    · refine .inr ?_
      rw [List.getLast?_append, hlast]
      rfl
  have htwice : StandsAlone (before ++ Text.terminated line) line after :=
    ⟨hwhole, h.single, h.ended⟩
  rw [htwice.physicalLines, String.toList_append, Text.physicalLines_append h.whole,
    (Text.terminated_line h.single).1, List.append_assoc, List.singleton_append]

/-- **Inheriting twice.** Let a file with an `extends` line, which is met while no block is
open, come to a document. With that line twice the file comes to the same document, but for
the comments and the warnings of the ancestor, which are repeated. -/
theorem fileIn_repeated {ctx : Context} {before line after uri : String}
    {front doc : Document} (halone : StandsAlone before line after)
    (hshape : Line.classify (Text.lineBody line.toList) = some (.extends uri))
    (hfront : (fileIn ctx before.toUTF8).result = .ok front)
    (h : (fileIn ctx (before ++ line ++ after).toUTF8).result = .ok doc) :
    ∃ location found rest, ctx.resolver (ctx.request uri) = some location ∧
      (fileIn (ctx.under location) location.contents).result = .ok found ∧
      doc = Document.behind rest (front.comments ++ found.comments)
        (front.warnings ++ found.warnings) ∧
      (fileIn ctx (before ++ Text.terminated line ++ line ++ after).toUTF8).result =
        .ok (rest.behind (front.comments ++ found.comments ++ found.comments)
          (front.warnings ++ found.warnings ++ found.warnings)) := by
  have hinOrder := fileIn_inOrder hfront
  have hordered := fileIn_ordered hfront
  have hshape' := (Text.terminated_line halone.single).2 ▸ hshape
  rw [fileIn_eq, fileWith_toUTF8] at hfront h ⊢
  rw [halone.physicalLines, steps_append, Run.bind_assoc] at h
  rw [halone.physicalLines_twice, steps_append, Run.bind_assoc]
  -- The lines in front come to the document that they are a file of.
  obtain ⟨s, hbefore, hidle⟩ := Run.bind_eq_ok.mp hfront
  obtain rfl := finish_eq_ok hidle
  rw [Run.result_bind_of_ok _ hbefore] at h ⊢
  simp only [steps, Run.bind_assoc] at h ⊢
  obtain ⟨s, hline, hafter⟩ := Run.bind_eq_ok.mp h
  obtain ⟨location, found, hfound, hdescend, rfl⟩ := step_extends_eq_ok hshape hline
  have hfile := fileIn_of_descend hdescend
  have hmerged := Document.merge_merge_self hinOrder hordered (fileIn_inOrder hfile)
  rw [← (front.merge found).bare_behind] at hafter
  obtain ⟨rest, hdoc, hfollow⟩ := steps_behind_follow hafter
  refine ⟨location, found, rest, hfound, hfile, hdoc, ?_⟩
  rw [Run.result_bind_of_ok _ (step_extends hshape' hfound hdescend _ _),
    Run.result_bind_of_ok _ (step_extends hshape hfound hdescend _ _), hmerged]
  exact hfollow _ _ _

/-! ## Whole parses -/

/-- A document that passes the check passes it with other comments and warnings. -/
theorem checked_of_behind {doc doc' : Document} {comments warnings : List String}
    (h : (checked (doc.behind comments warnings)).result = .ok doc')
    (comments' warnings' : List String) :
    (checked (doc.behind comments' warnings')).result =
      .ok (doc.behind comments' warnings') := by
  rw [checked_behind] at h ⊢
  obtain ⟨doc₁, hchecked, -⟩ := Run.bind_eq_ok.mp h
  have hsame : doc₁ = doc := by
    unfold checked at hchecked
    split at hchecked <;> cases hchecked
    rfl
  rw [Run.result_bind_of_ok _ hchecked, hsame]
  rfl

/-- **Laws of merging.** What has been laid over a mapping may be laid over it again without
a change, and three mappings may be merged from either end, unless the middle one has a leaf
where both others have a mapping. So an `extends` line that is met while no block is open may
stand twice: a parse that comes to a document comes to the same one, but for the comments and
the warnings of the ancestor, which are repeated. -/
theorem merge_laws :
    (∀ a b : Mapping, a.InOrder → b.InOrder →
      Mapping.merge (Mapping.merge a b) b = Mapping.merge a b) ∧
    (∀ a b c : Mapping, a.InOrder → b.InOrder → c.InOrder → ¬ b.Severs a c →
      Mapping.merge (Mapping.merge a b) c = Mapping.merge a (Mapping.merge b c)) ∧
    (∀ (settings : Settings) (path : FullPath) (circleId : Int)
      (before line after uri : String) (front doc : Document),
      StandsAlone before line after →
      Line.classify (Text.lineBody line.toList) = some (.extends uri) →
      (parse { settings with checkMandatoryKeys := false }
        ⟨before.toUTF8, path, circleId⟩).result = .ok front →
      (parse settings ⟨(before ++ line ++ after).toUTF8, path, circleId⟩).result = .ok doc →
      ∃ location found comments warnings,
        settings.resolver ⟨uri, path.directory, path.resourceId, circleId⟩ = some location ∧
        (parse { settings with
          inherited := settings.inherited ++ [path]
          checkMandatoryKeys := false } location).result = .ok found ∧
        doc.comments = front.comments ++ found.comments ++ comments ∧
        doc.warnings = front.warnings ++ found.warnings ++ warnings ∧
        (parse settings ⟨(before ++ Text.terminated line ++ line ++ after).toUTF8, path,
          circleId⟩).result = .ok { doc with
            comments := front.comments ++ found.comments ++ found.comments ++ comments
            warnings := front.warnings ++ found.warnings ++ found.warnings ++ warnings }) := by
  refine ⟨fun a b => Mapping.merge_merge_self, fun a b c => Mapping.merge_assoc, ?_⟩
  intro settings path circleId before line after uri front doc halone hshape hfront h
  have hparse : ∀ contents, parse settings ⟨contents, path, circleId⟩ =
      Run.bind (fileIn (contextOf settings ⟨ByteArray.empty, path, circleId⟩) contents)
        (if settings.checkMandatoryKeys then checked else Run.ok) :=
    fun contents => parse_eq settings ⟨contents, path, circleId⟩
  have hfront : (fileIn (contextOf settings ⟨ByteArray.empty, path, circleId⟩)
      before.toUTF8).result = .ok front := hfront
  have hfile : (fileIn (contextOf settings ⟨ByteArray.empty, path, circleId⟩)
      (before ++ line ++ after).toUTF8).result = .ok doc := parse_eq_ok h
  obtain ⟨location, found, rest, hfound, hancestor, rfl, htwice⟩ :=
    fileIn_repeated halone hshape hfront hfile
  refine ⟨location, found, rest.comments, rest.warnings, hfound, hancestor, rfl, rfl, ?_⟩
  rw [hparse, Run.result_bind_of_ok _ hfile] at h
  rw [hparse, Run.result_bind_of_ok _ htwice]
  by_cases hcheck : settings.checkMandatoryKeys
  · rw [if_pos hcheck] at h ⊢
    exact checked_of_behind h _ _
  · rw [if_neg hcheck]
    rfl

/-- An ancestor with a warning and a comment. -/
def remarkingResolver : Resolver := fun q =>
  if q.uri = "b" then some ⟨"x = 1\nx = 2\n# b".toUTF8, ⟨0, "b"⟩, 0⟩ else none

/-- Two mappings that come in beside each other, and an heir with a line of its own in front
of the line that inherits and one behind it. -/
theorem merge_laws_heir :
    (let a : Mapping := [("k", .mapping [("x", .int 1)])]
     let b : Mapping := [("m", .int 2)]
     let c : Mapping := [("k", .mapping [("y", .int 3)])]
     a.InOrder ∧ b.InOrder ∧ c.InOrder ∧ ¬ b.Severs a c ∧
      Mapping.merge (Mapping.merge a b) b = Mapping.merge a b ∧
      Mapping.merge (Mapping.merge a b) c = Mapping.merge a (Mapping.merge b c)) ∧
    (let settings : Settings := ⟨remarkingResolver, [], 64, false⟩
     ∃ doc : Document, doc.comments = ["# a", "# b"] ∧
      doc.warnings = [Key.overwriteWarning "x"] ∧
      (parse settings ⟨("# a\n" ++ "extends = b\n" ++ "y = 3").toUTF8, ⟨0, "a"⟩,
        0⟩).result = .ok doc ∧
      (parse settings ⟨("# a\n" ++ "extends = b\n" ++ "extends = b\n" ++ "y = 3").toUTF8,
        ⟨0, "a"⟩, 0⟩).result = .ok { doc with
          comments := ["# a", "# b", "# b"]
          warnings := [Key.overwriteWarning "x", Key.overwriteWarning "x"] }) := by
  obtain ⟨hself, hassoc, hrepeated⟩ := merge_laws
  constructor
  · intro a b c
    have ha : a.InOrder := Mapping.inOrder_nil.insert "k" (Mapping.inOrder_nil.insert "x" (.int 1))
    have hb : b.InOrder := Mapping.inOrder_nil.insert "m" (.int 2)
    have hc : c.InOrder := Mapping.inOrder_nil.insert "k" (Mapping.inOrder_nil.insert "y" (.int 3))
    have hsevers : ¬ b.Severs a c := by
      rintro ⟨_ | ⟨key, rest⟩, leaf, m, m', hleaf, hB, hA, -⟩
      · exact hleaf b (Option.some.inj hB).symm
      · obtain ⟨u, hu, -⟩ := Option.bind_eq_some_iff.mp hB
        obtain ⟨w, hw, -⟩ := Option.bind_eq_some_iff.mp hA
        have hm : key = "m" := congrArg Prod.fst (List.mem_singleton.mp (Mapping.mem_of_get? hu))
        have hk : key = "k" := congrArg Prod.fst (List.mem_singleton.mp (Mapping.mem_of_get? hw))
        exact absurd (hm.symm.trans hk) (by decide)
    exact ⟨ha, hb, hc, hsevers, hself a b ha hb, hassoc a b c ha hb hc hsevers⟩
  · intro settings
    have hfront : (parse settings ⟨"# a\n".toUTF8, ⟨0, "a"⟩, 0⟩).result =
        .ok ⟨⟨0, "a"⟩, 0, "pl", [], ["# a"], [], []⟩ := rfl
    have hremarks : (parse settings ⟨("# a\n" ++ "extends = b\n" ++ "y = 3").toUTF8, ⟨0, "a"⟩,
        0⟩).result.toOption.map (fun doc => (doc.comments, doc.warnings)) =
          some (["# a", "# b"], [Key.overwriteWarning "x"]) := by decide +kernel
    have hfoundRemarks : (parse { settings with inherited := [⟨0, "a"⟩] }
        ⟨"x = 1\nx = 2\n# b".toUTF8, ⟨0, "b"⟩, 0⟩).result.toOption.map
          (fun doc => (doc.comments, doc.warnings)) =
          some (["# b"], [Key.overwriteWarning "x"]) := by decide +kernel
    obtain ⟨doc, hdoc, hsame⟩ := Option.map_eq_some_iff.mp hremarks
    have hdoc := Run.result_of_toOption hdoc
    obtain ⟨location, found, comments, warnings, hfound, hancestor, hcomments, hwarnings,
      htwice⟩ := hrepeated settings ⟨0, "a"⟩ 0 "# a\n" "extends = b\n" "y = 3" "b" _ doc
        ⟨.inr rfl, rfl, .inl rfl⟩ rfl hfront hdoc
    obtain rfl : (⟨"x = 1\nx = 2\n# b".toUTF8, ⟨0, "b"⟩, 0⟩ : Location) = location :=
      Option.some.inj hfound
    have hancestor : (parse { settings with inherited := [⟨0, "a"⟩] }
        ⟨"x = 1\nx = 2\n# b".toUTF8, ⟨0, "b"⟩, 0⟩).result = .ok found := hancestor
    rw [hancestor] at hfoundRemarks
    obtain ⟨hdocComments, hdocWarnings⟩ := Prod.mk.inj hsame
    obtain ⟨hfoundComments, hfoundWarnings⟩ := Prod.mk.inj (Option.some.inj hfoundRemarks)
    -- Nothing is left for the line behind: it says nothing that is on record.
    rw [hdocComments, hfoundComments] at hcomments
    rw [hdocWarnings, hfoundWarnings] at hwarnings
    obtain rfl : [] = comments := by simpa using hcomments
    obtain rfl : [] = warnings := by simpa using hwarnings
    rw [hfoundComments, hfoundWarnings] at htwice
    exact ⟨doc, hdocComments, hdocWarnings, hdoc, htwice⟩

end Parse

end ExerciseDoc
