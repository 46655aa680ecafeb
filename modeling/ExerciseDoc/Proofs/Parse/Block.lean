import ExerciseDoc.Proofs.Parse.Opened
import ExerciseDoc.Proofs.Text.Lines

/-!
# Parse — blocks

A line that opens a block takes the lines behind it up to the first one that closes a
block. They are collected character by character, whatever they would say as lines of
their own (`steps_body`), and together they come to one right-hand side, stored at the
place of the opening line (`steps_block`). A block that nothing closes is a fault of the
line that opened it (`steps_unclosed`). What a whole parse makes of a block, with the
lines in front of it and behind it, is `parse_block`.
-/

namespace ExerciseDoc.Parse

/-! ## Lines inside a block -/

section Body

variable (f : Location → Run Document) (ctx : Context) (doc : Document) (number : Nat)

/-- Lines that close no block are collected. -/
theorem steps_body (block : Block) {body : List (List Char)}
    (h : ∀ l ∈ body, Line.closesBlock (Text.lineBody l) = false) :
    steps f ctx ⟨doc, some block⟩ number body =
      Run.ok ⟨doc, some { block with body := block.body ++ String.ofList body.flatten }⟩ := by
  induction body generalizing block number with
  | nil => simp [steps]
  | cons raw rest ih =>
      have hraw : Line.closesBlock (Text.lineBody raw) = false := h raw List.mem_cons_self
      have hrest : ∀ l ∈ rest, Line.closesBlock (Text.lineBody l) = false :=
        fun l hl => h l (List.mem_cons_of_mem _ hl)
      simp [steps, step, hraw, ih _ _ hrest, String.ofList_append, String.append_assoc]

variable {opening : List Char} {key : String} {op : Operator}
variable (hopens : Line.classify (Text.lineBody opening) = some (.openBlock key op))

include hopens

/-- A block that nothing has closed is open, with its opening line remembered. -/
theorem steps_unclosed {body : List (List Char)}
    (h : ∀ l ∈ body, Line.closesBlock (Text.lineBody l) = false) :
    steps f ctx ⟨doc, none⟩ number (opening :: body) =
      Run.ok ⟨doc, some ⟨key, op, String.ofList body.flatten,
        Place.of ctx.path (Text.lineBody opening) number⟩⟩ := by
  have hstep : step f ctx ⟨doc, none⟩ number opening =
      Run.ok ⟨doc, some ⟨key, op, "", Place.of ctx.path (Text.lineBody opening) number⟩⟩ := by
    simp only [step, hopens]
  rw [steps, hstep, Run.ok_bind, steps_body f ctx doc _ _ h, String.empty_append]

/-- The lines of a block are stored as one where it is closed. -/
theorem steps_block {body : List (List Char)} {closing : List Char}
    (h : ∀ l ∈ body, Line.closesBlock (Text.lineBody l) = false)
    (hcloses : Line.closesBlock (Text.lineBody closing)) :
    steps f ctx ⟨doc, none⟩ number (opening :: body ++ [closing]) =
      Run.bind (storeBlock doc ⟨key, op, String.ofList body.flatten,
        Place.of ctx.path (Text.lineBody opening) number⟩) fun doc => Run.ok ⟨doc, none⟩ := by
  rw [steps_append, steps_unclosed f ctx doc number hopens h, Run.ok_bind]
  simp only [steps, step, hcloses, if_true, Run.bind_ok]

end Body

/-! ## The content of a block -/

/-- The run asks nothing, and leaves no block open and the comments and dependencies as
they are. -/
structure Quiet (doc : Document) (run : Run State) : Prop where
  calls : run.calls = []
  kept : ∀ s, run.result = .ok s → s.block = none ∧
    s.document.comments = doc.comments ∧ s.document.dependencies = doc.dependencies

theorem quiet_error (doc : Document) (e : ParseError) : Quiet doc (Run.error e) := by
  refine ⟨rfl, ?_⟩
  intro s hs
  cases hs

theorem quiet_store (doc : Document) (place : Place) (key : String) (incoming : Incoming)
    (mode : Mode) :
    Quiet doc (Run.bind (store doc place key incoming mode) fun doc => Run.ok ⟨doc, none⟩) := by
  unfold store
  split
  · refine ⟨rfl, ?_⟩
    intro s hs
    cases hs
    exact ⟨rfl, rfl, rfl⟩
  · refine ⟨rfl, ?_⟩
    intro s hs
    cases hs
    exact ⟨rfl, rfl, rfl⟩
  · exact quiet_error doc _

/-- The run stores one content at a key as the operator has it, a JSON text as the value
that it is a notation of, and does nothing else. -/
structure StoresContent (doc : Document) (place : Place) (key : String) (op : Operator)
    (content : String) (run : Run State) : Prop extends Quiet doc run where
  text : op ≠ .json →
    run = Run.bind (store doc place key (.block content) (modeOf op))
      fun doc => Run.ok ⟨doc, none⟩
  json : op = .json → ∀ v, Json.ofText? content = some v →
    run = Run.bind (store doc place key (.value v) .assign) fun doc => Run.ok ⟨doc, none⟩
  malformed : op = .json → Json.ofText? content = none →
    run = Run.error (.line place (.notJson .block))

/-- A block is stored as the text of its lines without the last terminator. -/
theorem storesContent_storeBlock (doc : Document) (place : Place) (key : String)
    (op : Operator) (body : List Char) :
    StoresContent doc place key op (String.ofList (Text.blockBody body))
      (Run.bind (storeBlock doc ⟨key, op, String.ofList body, place⟩)
        fun doc => Run.ok ⟨doc, none⟩) := by
  simp only [storeBlock, String.toList_ofList]
  generalize String.ofList (Text.blockBody body) = content
  by_cases hjson : op = .json
  · subst hjson
    have hstore : storeText doc place key .json .block content =
        storeJson doc place key .block content := rfl
    rw [hstore, storeJson]
    cases hv : Json.ofText? content with
    | none =>
        refine ⟨quiet_error doc _, fun h => absurd rfl h, ?_, fun _ _ => rfl⟩
        intro _ v h
        rw [hv] at h
        cases h
    | some v =>
        refine ⟨quiet_store doc place key _ _, fun h => absurd rfl h, ?_, ?_⟩
        · intro _ v' h
          rw [hv] at h
          cases h
          rfl
        · intro _ h
          rw [hv] at h
          cases h
  · have hstore : storeText doc place key op .block content =
        store doc place key (.block content) (modeOf op) := by
      cases op with
      | json => exact absurd rfl hjson
      | _ => rfl
    rw [hstore]
    exact ⟨quiet_store doc place key _ _, fun _ => rfl, fun h => absurd h hjson,
      fun h => absurd h hjson⟩

/-! ## Blocks in a parse -/

/-- What is made of the state at the end of a file that is parsed: no block may be open,
and no mandatory key missing. -/
def conclude (settings : Settings) (s : State) : Run Document :=
  Run.bind (finish s) (if settings.checkMandatoryKeys then checked else Run.ok)

/-- The parse of a text is its lines in order. -/
theorem parse_text {settings : Settings} {source : Location} {text : String}
    (htext : String.fromUTF8? source.contents = some text) :
    parse settings source =
      Run.bind (steps (ancestor (contextOf settings source)) (contextOf settings source)
        (State.start (contextOf settings source)) 1 (Text.physicalLines text.toList))
        (conclude settings) := by
  rw [parse_eq, fileIn_eq, fileWith, htext]
  exact Run.bind_assoc _ _ _

/-- The first line that closes a block parts the lines of the block from those behind. -/
theorem exists_first_closing {rest : List (List Char)}
    (h : ∃ l ∈ rest, Line.closesBlock (Text.lineBody l)) :
    ∃ body closing after, rest = body ++ closing :: after ∧
      (∀ l ∈ body, Line.closesBlock (Text.lineBody l) = false) ∧
      Line.closesBlock (Text.lineBody closing) := by
  obtain ⟨closing, hfind⟩ := Option.isSome_iff_exists.mp (List.find?_isSome.mpr h)
  obtain ⟨hcloses, body, after, hrest, hbody⟩ := List.find?_eq_some_iff_append.mp hfind
  refine ⟨body, closing, after, hrest, ?_, hcloses⟩
  intro l hl
  simpa using hbody l hl

/-- **Blocks.** Let the lines in front of an opening line leave no block open. If some
line behind it closes a block, the lines up to the first such line are stored as one
content, the text between the two lines without its last terminator, at the place of the
opening line; each line in between is only collected. Otherwise the parse fails with a
fault of the opening line. -/
theorem parse_block (settings : Settings) (source : Location) (text : String)
    (before rest : List (List Char)) (opening : List Char) (doc : Document) (key : String)
    (op : Operator) (htext : String.fromUTF8? source.contents = some text)
    (hlines : Text.physicalLines text.toList = before ++ opening :: rest)
    (hidle : (steps (ancestor (contextOf settings source)) (contextOf settings source)
      (State.start (contextOf settings source)) 1 before).result = .ok ⟨doc, none⟩)
    (hopens : Line.classify (Text.lineBody opening) = some (.openBlock key op)) :
    let ctx := contextOf settings source
    let number := before.length + 1
    let place := Place.of source.path (Text.lineBody opening) number
    ((∃ l ∈ rest, Line.closesBlock (Text.lineBody l)) →
      ∃ body closing after content, rest = body ++ closing :: after ∧
        (∀ l ∈ body, Line.closesBlock (Text.lineBody l) = false) ∧
        Line.closesBlock (Text.lineBody closing) ∧
        text.toList =
          before.flatten ++ opening ++ body.flatten ++ closing ++ after.flatten ∧
        Text.Unterminated body.flatten content.toList ∧
        StoresContent doc place key op content
          (steps (ancestor ctx) ctx ⟨doc, none⟩ number (opening :: body ++ [closing])) ∧
        (∀ front, front <+: body →
          steps (ancestor ctx) ctx ⟨doc, none⟩ number (opening :: front) =
            Run.ok ⟨doc, some ⟨key, op, String.ofList front.flatten, place⟩⟩) ∧
        parse settings source =
          Run.bind (steps (ancestor ctx) ctx (State.start ctx) 1 before) fun s =>
            Run.bind (steps (ancestor ctx) ctx s number (opening :: body ++ [closing])) fun s =>
              Run.bind (steps (ancestor ctx) ctx s (number + (body.length + 2)) after)
                (conclude settings)) ∧
    ((∀ l ∈ rest, Line.closesBlock (Text.lineBody l) = false) →
      (parse settings source).result = .error (.line place .unclosed)) := by
  intro ctx number place
  have hparse : parse settings source =
      Run.bind (steps (ancestor ctx) ctx (State.start ctx) 1 (Text.physicalLines text.toList))
        (conclude settings) := parse_text htext
  refine ⟨?_, ?_⟩
  · intro hcloses
    obtain ⟨body, closing, after, hrest, hbody, hclosing⟩ := exists_first_closing hcloses
    have hparted : Text.physicalLines text.toList =
        (before ++ opening :: body) ++ closing :: after := by
      rw [hlines, hrest]
      simp
    -- A line follows the body, so it ends with a line feed.
    have hfront : Text.Whole (before ++ opening :: body).flatten :=
      .inr (Text.getLast?_of_physicalLines hparted (List.cons_ne_nil _ _) (by simp))
    have hwhole : Text.Whole body.flatten := by
      rw [List.flatten_append, List.flatten_cons] at hfront
      exact hfront.of_append.of_append
    refine ⟨body, closing, after, String.ofList (Text.blockBody body.flatten), hrest, hbody,
      hclosing, ?_, ?_, ?_, ?_, ?_⟩
    · rw [← Text.flatten_physicalLines text.toList, hparted]
      simp
    · rw [String.toList_ofList]
      exact Text.unterminated_blockBody hwhole
    · rw [steps_block (ancestor ctx) ctx doc number hopens hbody hclosing]
      exact storesContent_storeBlock doc place key op body.flatten
    · intro front hfront
      exact steps_unclosed (ancestor ctx) ctx doc number hopens
        fun l hl => hbody l (hfront.subset hl)
    · have hblock : before ++ opening :: rest =
          before ++ ((opening :: body ++ [closing]) ++ after) := by
        rw [hrest]
        simp
      have hlength : (opening :: body ++ [closing]).length = body.length + 2 := by simp
      rw [hparse, hlines, hblock, steps_append, Run.bind_assoc, Nat.add_comm 1 before.length]
      simp only [steps_append _ _ _ _ (opening :: body ++ [closing]), Run.bind_assoc, hlength]
      rfl
  · intro hopen
    rw [hparse, hlines, steps_append, Run.bind_assoc, Run.result_bind_of_ok _ hidle,
      steps_unclosed (ancestor ctx) ctx doc _ hopens hopen, Run.ok_bind, Nat.add_comm]
    rfl

/-! A block of lines that look like directives, and one that is not closed. -/

def commentDocument : Document :=
  (Document.empty ⟨0, "a"⟩ 0 formatTag).addComment "# c"

def lookalikeText : String :=
  "# c\nk ==\r\nextends = b\r\n@ b\r\n==\nt = 1"

def unclosedText : String :=
  "# c\nk %=\nextends = b\n@ b\n =="

/-- The lines in the block inherit nothing and add no dependency. -/
theorem parse_block_lookalike :
    let settings : Settings := ⟨fun _ => none, [], 64, false⟩
    let closed : Location := ⟨lookalikeText.toUTF8, ⟨0, "a"⟩, 0⟩
    let unclosed : Location := ⟨unclosedText.toUTF8, ⟨0, "a"⟩, 0⟩
    (∃ body closing after content,
      ["extends = b\r\n".toList, "@ b\r\n".toList, "==\n".toList, "t = 1".toList] =
        body ++ closing :: after ∧
      Line.closesBlock (Text.lineBody closing) ∧
      Text.Unterminated body.flatten content.toList ∧
      StoresContent commentDocument ⟨⟨0, "a"⟩, "k ==", 2⟩ "k" .assign content
        (steps (ancestor (contextOf settings closed)) (contextOf settings closed)
          ⟨commentDocument, none⟩ 2 ("k ==\r\n".toList :: body ++ [closing]))) ∧
    (parse settings unclosed).result = .error (.line ⟨⟨0, "a"⟩, "k %=", 2⟩ .unclosed) := by
  intro settings closed unclosed
  refine ⟨?_, ?_⟩
  · obtain ⟨body, closing, after, content, hrest, -, hcloses, -, hcontent, hstores, -⟩ :=
      (parse_block settings closed lookalikeText ["# c\n".toList]
        ["extends = b\r\n".toList, "@ b\r\n".toList, "==\n".toList, "t = 1".toList]
        "k ==\r\n".toList commentDocument "k" .assign
        (fromUTF8?_toUTF8 lookalikeText) rfl rfl rfl).1
        ⟨"==\n".toList, by simp, rfl⟩
    exact ⟨body, closing, after, content, hrest, hcloses, hcontent, hstores⟩
  · exact (parse_block settings unclosed unclosedText ["# c\n".toList]
      ["extends = b\n".toList, "@ b\n".toList, " ==".toList] "k %=\n".toList
      commentDocument "k" .json (fromUTF8?_toUTF8 unclosedText) rfl rfl rfl).2
      (by decide)

end ExerciseDoc.Parse
