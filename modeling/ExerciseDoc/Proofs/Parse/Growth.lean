import ExerciseDoc.Proofs.Document.Order
import ExerciseDoc.Proofs.Parse.Position

/-!
# Parse — what is there stays

No line takes back what the lines in front of it have put on record: the comments and the
warnings stand in front of those to come, and no dependency and no key at the top of the data
is lost (`Document.Grows`). Every line of a file goes on where the lines in front of it have
left off, so with more text behind it a file that fails in one of its lines fails as it did,
and one that comes to a document comes to a document that has grown (`parse_append_only`).
-/

namespace ExerciseDoc

/-! ## Keys at the top -/

namespace Mapping

theorem contains_insert {m : Mapping} {k : String} (h : m.contains k) (key : String)
    (v : Value) : Mapping.contains (m.insert key v) k := by
  unfold contains at h ⊢
  rw [Entries.get?_insert]
  split
  · rfl
  · exact h

theorem contains_merge {m : Mapping} {k : String} (h : m.contains k) (incoming : Mapping) :
    contains (merge m incoming) k := by
  induction incoming generalizing m with
  | nil => rwa [merge_nil]
  | cons entry rest ih =>
      obtain ⟨key, v⟩ := entry
      rw [merge]
      exact ih (contains_insert h key _)

end Mapping

namespace Key

theorem contains_put {m : Mapping} {k : String} (h : m.contains k) (key last : String)
    (incoming : Incoming) (mode : Mode) : (put key last incoming mode m).1.contains k := by
  rcases put_fst_cases m key last incoming mode with hput | ⟨v, hput, -⟩ <;> rw [hput]
  · exact h
  · exact Mapping.contains_insert h last v

theorem contains_focus {α : Type} {f : Mapping → Mapping × α} {root : Mapping} {k : String}
    (path : List String) (hf : root.contains k → (f root).1.contains k)
    (hroot : root.contains k) : (focus f path root).1.contains k := by
  cases path with
  | nil => exact hf hroot
  | cons seg rest =>
      rcases enters_or_blocks root seg with ⟨sub, hsub⟩ | hblocks
      · rw [hsub.focus_cons]
        exact Mapping.contains_insert hroot seg _
      · rw [hblocks.focus_cons]
        exact hroot

theorem contains_apply {root : Mapping} {k : String} (h : root.contains k) (key : String)
    (incoming : Incoming) (mode : Mode) : (apply root key incoming mode).1.contains k := by
  rcases apply_fst_cases root key incoming mode with happly | ⟨parents, last, -, happly⟩ <;>
    rw [happly]
  · exact h
  · exact contains_focus parents (fun h => contains_put h key last incoming mode) h

end Key

/-! ## Documents that grow -/

/-- The second document has what the first one has on record: its comments and its warnings
in front of all others, its dependencies, and its keys at the top of the data. -/
structure Document.Grows (doc doc' : Document) : Prop where
  comments : doc.comments <+: doc'.comments
  warnings : doc.warnings <+: doc'.warnings
  dependencies : doc.dependencies ⊆ doc'.dependencies
  keys : ∀ key, doc.data.contains key → doc'.data.contains key

namespace Document

theorem Grows.refl (doc : Document) : doc.Grows doc :=
  ⟨List.prefix_rfl, List.prefix_rfl, List.Subset.refl _, fun _ h => h⟩

/-- Whatever a line does to a document, it keeps what has been on record at the start. -/
theorem grows_lasting (start : Document) : Parse.Lasting start.Grows fun _ => True where
  stored := by
    intro doc key incoming mode data warning _ happly h
    refine ⟨h.comments, h.warnings, h.dependencies, fun k hk => ?_⟩
    have hdata := Key.contains_apply (h.keys k hk) key incoming mode
    rw [happly] at hdata
    exact hdata
  warned h := ⟨h.comments, h.warnings.trans (List.prefix_append _ _), h.dependencies, h.keys⟩
  commented h := ⟨h.comments.trans (List.prefix_append _ _), h.warnings, h.dependencies, h.keys⟩
  depends h := by
    refine ⟨h.comments, h.warnings, fun e he => ?_, h.keys⟩
    exact Dependency.mem_insertInto.mpr (.inr (h.dependencies he))
  merged h _ := by
    refine ⟨h.comments.trans (List.prefix_append _ _), h.warnings.trans (List.prefix_append _ _),
      fun e he => ?_, fun k hk => Mapping.contains_merge (h.keys k hk) _⟩
    exact Dependency.mem_union.mpr (.inl (h.dependencies he))

end Document

namespace Parse

/-! ## More text behind a file -/

section Text

variable {ctx : Context} {front : String} (hwhole : Text.Whole front.toList) (back : String)

include hwhole

/-- Behind whole lines, more text is more lines in the state that they have left. -/
theorem fileIn_append :
    fileIn ctx (front ++ back).toUTF8 =
      Run.bind (steps (ancestor ctx) ctx (State.start ctx) 1 (Text.physicalLines front.toList))
        fun s => Run.bind (steps (ancestor ctx) ctx s
          (1 + (Text.physicalLines front.toList).length) (Text.physicalLines back.toList))
          finish := by
  rw [fileIn_eq, fileWith_toUTF8, String.toList_append, Text.physicalLines_append hwhole,
    steps_append, Run.bind_assoc]

/-- A file that fails in a line fails there with more text behind it, too. Only a block that
it has not closed can be closed there. -/
theorem fileIn_append_of_error {e : ParseError}
    (h : (fileIn ctx front.toUTF8).result = .error e)
    (hclosed : ∀ place, place.path = ctx.path → e ≠ .line place .unclosed) :
    fileIn ctx (front ++ back).toUTF8 = fileIn ctx front.toUTF8 := by
  rw [fileIn_append hwhole]
  rw [fileIn_eq, fileWith_toUTF8] at h ⊢
  rcases Run.bind_eq_error.mp h with hsteps | ⟨⟨doc, block⟩, hsteps, hfinish⟩
  · simp only [Run.bind, hsteps]
  · cases block with
    | none => cases hfinish
    | some block =>
        cases hfinish
        obtain ⟨_, _, _, _, _, _, _, _, _, rfl⟩ := steps_collecting hsteps rfl
        exact absurd rfl (hclosed _ rfl)

/-- A file that comes to a document has grown with more text behind it. -/
theorem fileIn_append_of_ok {doc doc' : Document}
    (h : (fileIn ctx front.toUTF8).result = .ok doc)
    (h' : (fileIn ctx (front ++ back).toUTF8).result = .ok doc') :
    doc.Grows doc' ∧ (fileIn ctx front.toUTF8).calls <+:
      (fileIn ctx (front ++ back).toUTF8).calls := by
  rw [fileIn_append hwhole] at h' ⊢
  rw [fileIn_eq, fileWith_toUTF8] at h ⊢
  obtain ⟨s, hsteps, hfinish⟩ := Run.bind_eq_ok.mp h
  obtain rfl := finish_eq_ok hfinish
  rw [Run.result_bind_of_ok _ hsteps] at h'
  constructor
  · exact (Document.grows_lasting doc).of_finish (.refl doc) h'
  · rw [Run.calls_bind_of_ok _ hsteps, Run.calls_bind_of_ok _ hsteps]
    exact (List.prefix_append_right_inj _).mpr List.nil_prefix

end Text

/-- **What is there stays.** Let a parse that does not check for mandatory keys have whole
lines for its text, and let more text come behind them. If the parse fails, and not for a
block of its own file that nothing closes, it fails with the same error after the same
requests. If it comes to a document with the first text and with both, the second document
has what the first one has on record, and the requests of the first parse come first. -/
theorem parse_append_only (settings : Settings) (path : FullPath) (circleId : Int)
    (front back : String) (hcheck : settings.checkMandatoryKeys = false)
    (hwhole : Text.Whole front.toList) :
    (∀ e, (parse settings ⟨front.toUTF8, path, circleId⟩).result = .error e →
      (∀ place, place.path = path → e ≠ .line place .unclosed) →
      (parse settings ⟨(front ++ back).toUTF8, path, circleId⟩).result = .error e ∧
        (parse settings ⟨(front ++ back).toUTF8, path, circleId⟩).calls =
          (parse settings ⟨front.toUTF8, path, circleId⟩).calls) ∧
    (∀ doc doc', (parse settings ⟨front.toUTF8, path, circleId⟩).result = .ok doc →
      (parse settings ⟨(front ++ back).toUTF8, path, circleId⟩).result = .ok doc' →
      doc.Grows doc' ∧ (parse settings ⟨front.toUTF8, path, circleId⟩).calls <+:
        (parse settings ⟨(front ++ back).toUTF8, path, circleId⟩).calls) := by
  have hparse : ∀ contents, parse settings ⟨contents, path, circleId⟩ =
      fileIn (contextOf settings ⟨ByteArray.empty, path, circleId⟩) contents := by
    intro contents
    rw [parse_eq, hcheck]
    exact Run.bind_ok _
  rw [hparse, hparse]
  refine ⟨fun e h hclosed => ?_, fun doc doc' => fileIn_append_of_ok hwhole back⟩
  rw [fileIn_append_of_error hwhole back h hclosed]
  exact ⟨h, rfl⟩

/-- A line that says nothing, in front of one that would; and a line that inherits, in front
of a comment and of a value that is replaced. -/
theorem parse_append_only_heir :
    let settings : Settings :=
      ⟨fun _ => some ⟨"x = 1".toUTF8, ⟨0, "b"⟩, 0⟩, [], 64, false⟩
    settings.checkMandatoryKeys = false ∧
    Text.Whole "x\n".toList ∧ Text.Whole "extends = b\n".toList ∧
    (parse settings ⟨("x\n" ++ "y = 1").toUTF8, ⟨0, "a"⟩, 0⟩).result =
      .error (.line ⟨⟨0, "a"⟩, "x", 1⟩ .shapeless) ∧
    ∃ doc doc' : Document,
      (parse settings ⟨"extends = b\n".toUTF8, ⟨0, "a"⟩, 0⟩).result = .ok doc ∧
      (parse settings ⟨("extends = b\n" ++ "# a\nx = 2").toUTF8, ⟨0, "a"⟩, 0⟩).result =
        .ok doc' ∧
      doc.Grows doc' ∧
      [⟨"b", (⟨0, "a"⟩ : FullPath).directory, 0, 0⟩] <+:
        (parse settings ⟨("extends = b\n" ++ "# a\nx = 2").toUTF8, ⟨0, "a"⟩, 0⟩).calls := by
  intro settings
  have hfails : (parse settings ⟨"x\n".toUTF8, ⟨0, "a"⟩, 0⟩).result =
      .error (.line ⟨⟨0, "a"⟩, "x", 1⟩ .shapeless) := rfl
  have hshapeless := (parse_append_only settings ⟨0, "a"⟩ 0 "x\n" "y = 1" rfl (.inr rfl)).1
    _ hfails fun _ _ h => nomatch h
  have hsome : (parse settings ⟨"extends = b\n".toUTF8, ⟨0, "a"⟩,
      0⟩).result.toOption.isSome := by decide +kernel
  have hsome' : (parse settings ⟨("extends = b\n" ++ "# a\nx = 2").toUTF8, ⟨0, "a"⟩,
      0⟩).result.toOption.isSome := by decide +kernel
  obtain ⟨doc, hdoc⟩ := Option.isSome_iff_exists.mp hsome
  obtain ⟨doc', hdoc'⟩ := Option.isSome_iff_exists.mp hsome'
  have hdoc := Run.result_of_toOption hdoc
  have hdoc' := Run.result_of_toOption hdoc'
  have hcalls : (parse settings ⟨"extends = b\n".toUTF8, ⟨0, "a"⟩, 0⟩).calls =
      [⟨"b", (⟨0, "a"⟩ : FullPath).directory, 0, 0⟩] := by decide +kernel
  obtain ⟨hgrows, hprefix⟩ := (parse_append_only settings ⟨0, "a"⟩ 0 "extends = b\n"
    "# a\nx = 2" rfl (.inr rfl)).2 _ _ hdoc hdoc'
  rw [hcalls] at hprefix
  exact ⟨rfl, .inr rfl, .inr rfl, hshapeless.1, doc, doc', hdoc, hdoc', hgrows, hprefix⟩

end Parse

end ExerciseDoc
