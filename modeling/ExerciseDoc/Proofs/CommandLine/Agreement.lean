import ExerciseDoc.CommandLine.Answer

/-!
# CommandLine — one answer from two commands

The same arguments tell `parse` and `check` the same (`ofArguments?_check`): whatever stands
in front of the command's name is read without it (`level_append`), and what stands behind it
is read with the same options. Every line that is understood as `parse` is of that shape
(`exists_asks`). So both commands parse the same file, and `parse_check_consistent` compares
what they print.
-/

namespace ExerciseDoc

/-- The value at a name of an object, whatever the order of its names. -/
def Value.field? : Value → String → Option Value
  | .mapping entries, name => entries.lookup name
  | _, _ => none

namespace CommandLine

/-! ## Arguments -/

/-- Behind options alone, a level goes on with what follows them. -/
theorem level_append {known : List (String × OptionName)} {l outer : Level}
    {front : List String} (h : level known true l front = some (outer, [])) (rest : List String) :
    level known true l (front ++ rest) = level known true outer rest := by
  generalize hstop : true = stop at h ⊢
  -- Four cases add an option and go on, the first one ends, and the others hand nothing back.
  fun_induction level known stop l front with
  | case1 l =>
      cases h
      rfl
  | case6 l arg args l' hadded harg ih =>
      simp only [List.cons_append, level, harg, if_true, hadded, ih h]
  | case10 l arg name option hknown htakes value args l' hadded harg ih =>
      simp only [List.cons_append, level, harg, hknown, htakes, if_true, hadded, ih h]
  | case12 l arg name option hknown htakes value args hvalue l' hadded harg ih =>
      simp only [List.cons_append, level, harg, hknown, htakes, hvalue, if_true, hadded, ih h]
  | case16 l arg args name option hknown htakes l' hadded harg ih =>
      simp only [List.cons_append, level, harg, hknown, if_neg htakes, hadded, ih h]
  | case2 => cases h
  | case3 | case5 =>
      subst hstop
      contradiction
  | case4 | case7 | case8 | case9 | case11 | case13 | case14 | case15 | case17 => cases h

/-- The arguments are options that every command knows, and nothing else. -/
def OptionsOnly (front : List String) : Prop :=
  ∃ outer, level commonOptions true ⟨[], []⟩ front = some (outer, [])

/-- The same command, with `check` in the place of `parse`. -/
def Command.checking : Command → Command
  | .parse options => .check options
  | .check options => .check options
  | .extensions => .extensions

theorem command?_check (rest : List String) :
    command? "check" rest = (command? "parse" rest).map fun (l, c) => (l, c.checking) := by
  have hname : ("check" = "parse") = False := by decide
  simp only [command?, hname, if_true, if_false]
  cases level fileOptions false ⟨[], []⟩ rest with
  | none => rfl
  | some found =>
      show (found.1.fileOptions?.bind _) = Option.map _ (found.1.fileOptions?.bind _)
      cases found.1.fileOptions? <;> rfl

/-- **One line for two commands.** The name of the command is all that the same arguments
around `parse` and `check` come to differ in. -/
theorem ofArguments?_check {front : List String} (h : OptionsOnly front) (rest : List String) :
    Invocation.ofArguments? (front ++ "check" :: rest) =
      (Invocation.ofArguments? (front ++ "parse" :: rest)).map
        fun i => { i with command := i.command.checking } := by
  obtain ⟨outer, houter⟩ := h
  have hname : ∀ name, Word.of name = .plain name →
      level commonOptions true ⟨[], []⟩ (front ++ name :: rest) = some (outer, name :: rest) := by
    intro name hplain
    rw [level_append houter, level, hplain]
    rfl
  simp only [Invocation.ofArguments?, hname "check" rfl, hname "parse" rfl, command?_check]
  cases command? "parse" rest with
  | none => rfl
  | some told =>
      obtain ⟨inner, command⟩ := told
      dsimp only [Option.map_some]
      show (Option.bind (outer.get .output style? .text) _) =
        Option.map _ (Option.bind (outer.get .output style? .text) _)
      cases outer.get .output style? .text with
      | none => rfl
      | some outerStyle =>
          show Option.bind (inner.get .output style? outerStyle) _ =
            Option.map _ (Option.bind (inner.get .output style? outerStyle) _)
          cases inner.get .output style? outerStyle <;> rfl

/-- What a level hands back is the end of its arguments, and what stands in front of that is
options alone. -/
theorem exists_front_of_level {known : List (String × OptionName)} {l outer : Level}
    {args : List String} {name : String} {rest : List String}
    (h : level known true l args = some (outer, name :: rest)) :
    ∃ front, args = front ++ name :: rest ∧ level known true l front = some (outer, []) := by
  generalize hstop : true = stop at h ⊢
  fun_induction level known stop l args with
  | case1 => cases h
  | case2 l args text harg =>
      cases h
      exact ⟨[], rfl, rfl⟩
  | case6 l arg args l' hadded harg ih =>
      obtain ⟨front, rfl, hfront⟩ := ih h
      exact ⟨arg :: front, rfl, by simp only [level, harg, if_true, hadded, hfront]⟩
  | case10 l arg name' option hknown htakes value args l' hadded harg ih =>
      obtain ⟨front, rfl, hfront⟩ := ih h
      exact ⟨arg :: front, rfl, by
        simp only [level, harg, hknown, htakes, if_true, hadded, hfront]⟩
  | case12 l arg name' option hknown htakes value args hvalue l' hadded harg ih =>
      obtain ⟨front, rfl, hfront⟩ := ih h
      exact ⟨arg :: value :: front, rfl, by
        simp only [level, harg, hknown, htakes, hvalue, if_true, hadded, hfront]⟩
  | case16 l arg args name' option hknown htakes l' hadded harg ih =>
      obtain ⟨front, rfl, hfront⟩ := ih h
      exact ⟨arg :: front, rfl, by
        simp only [level, harg, hknown, if_neg htakes, hadded, hfront]⟩
  | case3 | case5 =>
      subst hstop
      contradiction
  | case4 | case7 | case8 | case9 | case11 | case13 | case14 | case15 | case17 => cases h

/-- The arguments ask for `parse` of a file, with options in front of the command's name and
the rest behind it. Lines with `--verbose` are among them; of what they print, the log is left
out, so `stderr` is compared without it. -/
structure Asks (front rest : List String) (style : Style) (quiet : Bool)
    (options : FileOptions) : Prop where
  optionsOnly : OptionsOnly front
  told : Invocation.ofArguments? (front ++ "parse" :: rest) =
    some ⟨style, quiet, .parse options⟩

theorem command?_eq_parse {name : String} {rest : List String} {inner : Level}
    {options : FileOptions} (h : command? name rest = some (inner, .parse options)) :
    name = "parse" := by
  unfold command? at h
  split at h
  · assumption
  · split at h
    · obtain ⟨l, -, h⟩ := Option.bind_eq_some_iff.1 h
      obtain ⟨options', -, h⟩ := Option.bind_eq_some_iff.1 h
      cases h
    · split at h
      · obtain ⟨⟨l, _⟩, -, h⟩ := Option.bind_eq_some_iff.1 h
        dsimp only at h
        split at h <;> cases h
      · cases h

/-- Every line that is understood as `parse` is of this shape. -/
theorem exists_asks {args : List String} {style : Style} {quiet : Bool} {options : FileOptions}
    (h : Invocation.ofArguments? args = some ⟨style, quiet, .parse options⟩) :
    ∃ front rest, args = front ++ "parse" :: rest ∧ Asks front rest style quiet options := by
  have htold := h
  unfold Invocation.ofArguments? at h
  split at h
  · rename_i outer name rest hlevel
    obtain ⟨⟨inner, command⟩, hcommand, h⟩ := Option.bind_eq_some_iff.1 h
    obtain ⟨outerStyle, -, h⟩ := Option.bind_eq_some_iff.1 h
    obtain ⟨style', -, h⟩ := Option.bind_eq_some_iff.1 h
    cases h
    obtain rfl := command?_eq_parse hcommand
    obtain ⟨front, rfl, hfront⟩ := exists_front_of_level hlevel
    exact ⟨front, rest, rfl, ⟨outer, hfront⟩, htold⟩
  · cases h

/-- The same arguments ask for `check` of the file in the same way. -/
theorem Asks.told_check {front rest : List String} {style : Style} {quiet : Bool}
    {options : FileOptions} (h : Asks front rest style quiet options) :
    Invocation.ofArguments? (front ++ "check" :: rest) =
      some ⟨style, quiet, .check options⟩ := by
  rw [ofArguments?_check h.optionsOnly, h.told]
  rfl

/-! ## Answers -/

/-- The file can be read, and its parse yields a document. -/
def Parses (options : FileOptions) (disk : Disk) (doc : Document) : Prop :=
  ∃ contents, disk options.file = .ok contents ∧
    (runFile options disk contents).result = .ok doc

theorem documentOf_eq_ok {options : FileOptions} {disk : Disk} {doc : Document} :
    documentOf options disk = .ok doc ↔ Parses options disk doc := by
  unfold documentOf Parses
  cases disk options.file with
  | error failure => simp
  | ok contents =>
      cases hresult : (runFile options disk contents).result with
      | error error => simp [hresult]
      | ok doc' => simp [hresult]

theorem lines_singleton (s : String) : lines [s] = s ++ "\n" :=
  String.empty_append

/-- A failure ends with 1 and prints nothing. -/
theorem Failure.answer_eq (failure : Failure) (style : Style) (quiet : Bool) :
    failure.answer style quiet = ⟨1, "", (failure.answer style quiet).stderr⟩ := by
  cases failure <;> cases style <;> cases quiet <;> rfl

/-- **The command line is consistent with itself.** `parse` and `check` succeed exactly if the
file can be read and parsed. Then `parse` prints one document in any style, quiet or not, and
`check` counts its entries and its dependencies and repeats its warnings. Otherwise both end
with 1, print nothing and report the same. -/
theorem parse_check_consistent (options : FileOptions) (disk : Disk) :
    (∃ doc, Parses options disk doc ∧
      ∃ entries dependencies warnings,
        (documentValue doc).field? "data" = some (.mapping entries) ∧
        (documentValue doc).field? "dependencies" = some (.list dependencies) ∧
        (documentValue doc).field? "warnings" = some (.list warnings) ∧
        ∀ front rest style quiet, Asks front rest style quiet options →
          (answer (front ++ "parse" :: rest) disk).code = 0 ∧
          (answer (front ++ "parse" :: rest) disk).stdout =
            Json.prettyText (documentValue doc) ++ "\n" ∧
          (answer (front ++ "check" :: rest) disk).code = 0 ∧
          (style = .json → ∃ summary,
            (answer (front ++ "check" :: rest) disk).stdout = Json.prettyText summary ++ "\n" ∧
            summary.field? "keys" = some (natValue entries.length) ∧
            summary.field? "dependencies" = some (natValue dependencies.length) ∧
            summary.field? "warnings" = some (.list warnings))) ∨
    ((∀ doc, ¬ Parses options disk doc) ∧
      ∃ report : Style → Bool → String,
        ∀ front rest style quiet, Asks front rest style quiet options →
          answer (front ++ "parse" :: rest) disk = ⟨1, "", report style quiet⟩ ∧
          answer (front ++ "check" :: rest) disk = ⟨1, "", report style quiet⟩) := by
  cases hdocument : documentOf options disk with
  | ok doc =>
      refine .inl ⟨doc, documentOf_eq_ok.1 hdocument, doc.data,
        doc.dependencies.map dependencyValue, doc.warnings.map .text, rfl, rfl, rfl, ?_⟩
      intro front rest style quiet hasks
      have hparse : answer (front ++ "parse" :: rest) disk = parseAnswer style quiet doc := by
        simp only [answer, hasks.told, Invocation.answer, hdocument]
      have hcheck : answer (front ++ "check" :: rest) disk =
          checkAnswer style quiet options.file doc := by
        simp only [answer, hasks.told_check, Invocation.answer, hdocument]
      refine ⟨by rw [hparse]; rfl, by rw [hparse]; exact lines_singleton _, ?_, ?_⟩
      · rw [hcheck]
        cases style <;> cases quiet <;> rfl
      · rintro rfl
        refine ⟨summaryValue doc, by rw [hcheck]; exact lines_singleton _, rfl, ?_, rfl⟩
        rw [List.length_map]
        rfl
  | error failure =>
      refine .inr ⟨fun doc hparses => ?_, fun style quiet => (failure.answer style quiet).stderr,
        fun front rest style quiet hasks => ⟨?_, ?_⟩⟩
      · rw [documentOf_eq_ok.2 hparses] at hdocument
        cases hdocument
      · simp only [answer, hasks.told, Invocation.answer, hdocument]
        exact failure.answer_eq style quiet
      · simp only [answer, hasks.told_check, Invocation.answer, hdocument]
        exact failure.answer_eq style quiet

/-- A file with a redefined key and a dependency, and a file with no shape at all. -/
def twoFiles : FileTree :=
  (FileTree.empty.addFile "a.pl" "x = 1\nx = 2\n@ b.pl".toUTF8).addFile "b.pl" "?".toUTF8

/-- `check` counts one key and one dependency where `parse` prints them, and both commands
fail alike on the file that has no shape. -/
theorem parse_check_consistent_twoFiles :
    (∃ doc summary,
      (answer ["--quiet", "parse", "--no-mandatory-keys", "a.pl", "--output=json"]
        twoFiles.disk).stdout = Json.prettyText (documentValue doc) ++ "\n" ∧
      (answer ["--quiet", "check", "--no-mandatory-keys", "a.pl", "--output=json"]
        twoFiles.disk).stdout = Json.prettyText summary ++ "\n" ∧
      summary.field? "keys" = some (natValue doc.data.length) ∧
      summary.field? "dependencies" = some (natValue doc.dependencies.length) ∧
      (doc.data.length, doc.dependencies.length, doc.warnings.length) = (1, 1, 1)) ∧
    ∃ report,
      answer ["parse", "b.pl"] twoFiles.disk = ⟨1, "", report⟩ ∧
      answer ["check", "b.pl"] twoFiles.disk = ⟨1, "", report⟩ := by
  constructor
  · let options : FileOptions := ⟨"a.pl", 0, 0, defaultDepthLimit, false⟩
    have hasks : Asks ["--quiet"] ["--no-mandatory-keys", "a.pl", "--output=json"] .json true
        options := ⟨⟨_, rfl⟩, by decide +kernel⟩
    have hcounts : ((documentOf options twoFiles.disk).toOption.map fun doc =>
        (doc.data.length, doc.dependencies.length, doc.warnings.length)) =
          some (1, 1, 1) := by decide +kernel
    rcases parse_check_consistent options twoFiles.disk with
      ⟨doc, hparses, entries, dependencies, warnings, hdata, hdependencies, -, hall⟩ | ⟨hnone, -⟩
    · obtain ⟨-, hprinted, -, hsummary⟩ := hall _ _ _ _ hasks
      obtain ⟨summary, hprinted', hkeys, hcount, -⟩ := hsummary rfl
      cases hdata
      cases hdependencies
      rw [documentOf_eq_ok.2 hparses] at hcounts
      exact ⟨doc, summary, hprinted, hprinted', hkeys, by rwa [List.length_map] at hcount,
        Option.some.inj hcounts⟩
    · cases hdocument : documentOf options twoFiles.disk with
      | ok doc => exact absurd (documentOf_eq_ok.1 hdocument) (hnone doc)
      | error failure =>
          rw [hdocument] at hcounts
          cases hcounts
  · let options : FileOptions := ⟨"b.pl", 0, 0, defaultDepthLimit, true⟩
    have hasks : Asks [] ["b.pl"] .text false options := ⟨⟨_, rfl⟩, by decide +kernel⟩
    have hfails : (documentOf options twoFiles.disk).toOption.isNone = true := by decide +kernel
    rcases parse_check_consistent options twoFiles.disk with ⟨doc, hparses, -⟩ | ⟨-, report, hall⟩
    · rw [documentOf_eq_ok.2 hparses] at hfails
      cases hfails
    · exact ⟨_, hall _ _ _ _ hasks⟩

end CommandLine
end ExerciseDoc
