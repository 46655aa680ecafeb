import ExerciseDoc.Proofs.Line.Keyed
import ExerciseDoc.Proofs.Parse.Block

/-!
# Parse — three ways to write a value

A text without blanks around it can be written behind its key, in a block of its own, or
in a file that the line loads. A value and a block are read in different ways and stored
by different lines, but they come to the same right-hand side (`ofLine_eq_ofBlock`), and
so to the same document or to a fault of one kind at the same line (`parse_forms`). For
the operator of JSON the same holds of a file; by the other operators the text of a file
is stored as it is.
-/

namespace ExerciseDoc

open Text (Stops stops_cons isBlank)

/-! ## The same end -/

/-- Both runs come to the same value, or to errors of one kind at the same line. -/
inductive SameEnd {α : Type} : Except ParseError α → Except ParseError α → Prop where
  | value (a : α) : SameEnd (.ok a) (.ok a)
  | fault {e e' : ParseError} : e.kind = e'.kind → e.lineNumber? = e'.lineNumber? →
      SameEnd (.error e) (.error e')

namespace SameEnd

variable {α β : Type} {x y z : Except ParseError α}

theorem refl (x : Except ParseError α) : SameEnd x x := by
  cases x with
  | ok a => exact .value a
  | error e => exact .fault rfl rfl

theorem symm (h : SameEnd x y) : SameEnd y x := by
  cases h with
  | value a => exact .value a
  | fault hkind hline => exact .fault hkind.symm hline.symm

theorem trans (h : SameEnd x y) (h' : SameEnd y z) : SameEnd x z := by
  cases h with
  | value a => exact h'
  | fault hkind hline =>
      cases h' with
      | fault hkind' hline' => exact .fault (hkind.trans hkind') (hline.trans hline')

/-- What stands behind two runs with the same end has the same end. -/
theorem bind {x y : Run α} (h : SameEnd x.result y.result) (f : α → Run β) :
    SameEnd (Run.bind x f).result (Run.bind y f).result := by
  generalize hx : x.result = a at h
  generalize hy : y.result = b at h
  cases h with
  | value a =>
      rw [Run.result_bind_of_ok f hx, Run.result_bind_of_ok f hy]
      exact .refl _
  | fault hkind hline =>
      rw [Run.result_bind_of_error f hx, Run.result_bind_of_error f hy]
      exact .fault hkind hline

end SameEnd

/-! ## The same right-hand side -/

/-- Where a text has no blanks around it, a line and a block of it are one value. -/
theorem Literal.ofLine_eq_ofBlock {s : String} (h : Text.trimmed s.toList = s.toList) :
    Literal.ofLine s = Literal.ofBlock s := by
  rw [Literal.ofLine, Literal.ofBlock, h, String.ofList_toList]

/-- What is stored depends on the value and the text of a right-hand side alone. -/
theorem Key.apply_congr {incoming incoming' : Incoming}
    (hvalue : incoming.toValue = incoming'.toValue)
    (htext : incoming.toText? = incoming'.toText?) (root : Mapping) (key : String)
    (mode : Mode) : Key.apply root key incoming mode = Key.apply root key incoming' mode := by
  have hjoined : ∀ existing, Key.joined existing incoming mode =
      Key.joined existing incoming' mode := by
    intro existing
    cases existing <;> simp only [Key.joined, hvalue, htext]
  have hput : ∀ last, Key.put key last incoming mode = Key.put key last incoming' mode := by
    intro last
    funext m
    simp only [Key.put, hjoined, hvalue]
  simp only [Key.apply, hput]

namespace Parse

section Store

variable {doc : Document} {place place' : Place} (hnumber : place.number = place'.number)

include hnumber

theorem store_sameEnd {incoming incoming' : Incoming}
    (hvalue : incoming.toValue = incoming'.toValue)
    (htext : incoming.toText? = incoming'.toText?) (key : String) (mode : Mode) :
    SameEnd (store doc place key incoming mode).result
      (store doc place' key incoming' mode).result := by
  unfold store
  rw [Key.apply_congr hvalue htext]
  split
  · exact .refl _
  · exact .refl _
  · exact .fault rfl (congrArg some hnumber)

/-- A JSON text comes to the same end wherever it stands. -/
theorem storeJson_sameEnd (key text : String) (origin origin' : JsonOrigin) :
    SameEnd (storeJson doc place key origin text).result
      (storeJson doc place' key origin' text).result := by
  unfold storeJson
  cases Json.ofText? text with
  | none => exact .fault rfl (congrArg some hnumber)
  | some v => exact store_sameEnd hnumber rfl rfl key .assign

/-- A text without blanks around it comes to the same end on a line and in a block. -/
theorem storeText_sameEnd (key : String) (op : Operator) {text : String}
    (htrimmed : Text.trimmed text.toList = text.toList) :
    SameEnd (storeText doc place key op .line text).result
      (storeText doc place' key op .block text).result := by
  have hvalue : (Incoming.line text).toValue = (Incoming.block text).toValue :=
    Literal.ofLine_eq_ofBlock htrimmed
  cases op with
  | json => exact storeJson_sameEnd hnumber key text .line .block
  | assign => exact store_sameEnd hnumber hvalue rfl key .assign
  | append => exact store_sameEnd hnumber hvalue rfl key .append
  | prepend => exact store_sameEnd hnumber hvalue rfl key .prepend

end Store

/-- A file that is found and is a text is stored as that text. -/
theorem storeFile_json_result {ctx : Context} {doc : Document} {place : Place}
    {key uri text : String} {path : FullPath} {circleId : Int}
    (hfound : ctx.resolver (ctx.request uri) = some ⟨text.toUTF8, path, circleId⟩) :
    (storeFile ctx doc place key .json uri).result =
      (storeJson doc place key .file text).result := by
  rw [storeFile, locate, Run.bind_assoc, Run.ask_bind, hfound]
  simp only [Run.ok_bind, fromUTF8?_toUTF8]
  rfl

/-! ## Lines of the three forms -/

/-- A value on its key's line. -/
def valueLine (key : String) (op : Operator) (text : String) : String :=
  key ++ " " ++ String.singleton op.sign ++ " " ++ text

/-- A block of one line. -/
def blockLines (key : String) (op : Operator) (text : String) : String :=
  key ++ " " ++ String.singleton op.sign ++ "=\n" ++ text ++ "\n=="

/-- A file that a line loads. -/
def fileLine (key : String) (op : Operator) (uri : String) : String :=
  key ++ " " ++ String.singleton op.sign ++ "@ " ++ uri

theorem sign_ne_feed (op : Operator) : op.sign ≠ '\n' := by
  cases op <;> decide

/-- The text is the lines of a form, the last one with its line feed or without it. -/
def Written (form text : String) : Prop :=
  text = form ∨ text = form ++ "\n"

theorem Written.toList {form text : String} (h : Written form text) :
    text.toList = form.toList ∨ text.toList = form.toList ++ ['\n'] := by
  rcases h with rfl | rfl
  · exact .inl rfl
  · exact .inr String.toList_append

/-- A line that starts with a key ends where the text behind its sign does. -/
theorem line_of_key {k front text : List Char} (op : Operator) (hk : Line.IsKey k)
    (hfront : '\n' ∉ front) (hfeed : '\n' ∉ text) (hreturn : text.getLast? ≠ some '\r') :
    let form := k ++ ([' '] ++ op.sign :: (front ++ ' ' :: text))
    form ≠ [] ∧ '\n' ∉ form ∧ form.getLast? ≠ some '\r' := by
  have hkey := hk.not_mem (rfl : Line.isKeyChar '\n' = false)
  refine ⟨by simp, by simp [hkey, hfront, hfeed, (sign_ne_feed op).symm], ?_⟩
  have hlast : (k ++ ([' '] ++ op.sign :: (front ++ ' ' :: text))).getLast? =
      (' ' :: text).getLast? := by
    rw [← List.append_assoc, ← List.cons_append, ← List.append_assoc]
    exact List.getLast?_append_of_ne_nil _ (List.cons_ne_nil _ _)
  rw [hlast, List.getLast?_cons]
  cases htext : text.getLast? with
  | none => simp
  | some e =>
      rw [htext] at hreturn
      exact hreturn

theorem notInheriting_of_ne {key : String} (hextends : key ≠ "extends")
    (htemplate : key ≠ "template") (op : Operator) : Line.NotInheriting op key.toList :=
  fun _ => ⟨mt String.toList_inj.mp hextends, mt String.toList_inj.mp htemplate⟩

section Forms

variable (f : Location → Run Document) (ctx : Context) (doc : Document) (number : Nat)
variable {key text written : String} {op : Operator} (hk : Line.IsKey key.toList)

include hk

/-- A value on the line of a key that does not inherit is stored. -/
theorem steps_ownValueLine (hown : Line.NotInheriting op key.toList)
    (hfeed : '\n' ∉ text.toList) (hv : Line.IsValue text.toList)
    (hwritten : Written (valueLine key op text) written) :
    ∃ place, place.number = number ∧
      steps f ctx ⟨doc, none⟩ number (Text.physicalLines written.toList) =
        Run.bind (storeText doc place key op .line text) fun doc => Run.ok ⟨doc, none⟩ := by
  have hform : (valueLine key op text).toList =
      key.toList ++ ([' '] ++ op.sign :: ([] ++ ' ' :: text.toList)) := by
    simp [valueLine]
  have hshape : Line.classify (valueLine key op text).toList = some (.value key op text) := by
    rw [hform, List.nil_append, Line.classify_value hk hown Text.blanks_space hfeed hv,
      String.ofList_toList, String.ofList_toList]
  obtain ⟨hne, hformFeed, hformReturn⟩ := line_of_key op hk List.not_mem_nil hfeed
    (Text.getLast?_ne_of_stops rfl hv.back)
  rw [← hform] at hne hformFeed hformReturn
  obtain ⟨raw, hlines, hbody⟩ :=
    Text.exists_physicalLines_line hwritten.toList hne hformFeed hformReturn
  refine ⟨Place.of ctx.path (valueLine key op text).toList number, rfl, ?_⟩
  rw [hlines]
  simp only [steps, step, hbody, hshape, Run.bind_ok]
  rfl

/-- A text none of whose lines closes a block is stored from a block of a key that does not
inherit. -/
theorem steps_ownBlockLines (hown : Line.NotInheriting op key.toList)
    (hinside : ∀ l ∈ Text.physicalLines (text.toList ++ ['\n']),
      Line.closesBlock (Text.lineBody l) = false)
    (hreturn : text.toList.getLast? ≠ some '\r')
    (hwritten : Written (blockLines key op text) written) :
    ∃ place, place.number = number ∧
      steps f ctx ⟨doc, none⟩ number (Text.physicalLines written.toList) =
        Run.bind (storeText doc place key op .block text) fun doc => Run.ok ⟨doc, none⟩ := by
  let opening := key.toList ++ ([' '] ++ [op.sign, '='])
  have hshape : Line.classify opening = some (.openBlock key op) := by
    rw [Line.classify_openBlock hk hown Text.blanks_space, String.ofList_toList]
  have hopeningFeed : '\n' ∉ opening := by
    simp [opening, hk.not_mem (rfl : Line.isKeyChar '\n' = false), (sign_ne_feed op).symm]
  have hopeningReturn : opening.getLast? ≠ some '\r' := by
    simp [opening]
  -- The last line of the block is the only one that can end without a line feed.
  obtain ⟨last, hlast, hwritten⟩ : ∃ last, (last = ['=', '='] ∨ last = ['=', '='] ++ ['\n']) ∧
      written.toList = (opening ++ ['\n']) ++ ((text.toList ++ ['\n']) ++ last) := by
    rcases hwritten with rfl | rfl
    · exact ⟨_, .inl rfl, by simp [blockLines, opening]⟩
    · exact ⟨_, .inr rfl, by simp [blockLines, opening]⟩
  obtain ⟨closing, hclosing, hbody⟩ :=
    Text.exists_physicalLines_line hlast (by simp) (by decide) (by decide)
  have hlines : Text.physicalLines written.toList =
      (opening ++ ['\n']) :: Text.physicalLines (text.toList ++ ['\n']) ++ [closing] := by
    rw [hwritten, Text.physicalLines_append (Text.whole_concat_feed opening),
      Text.physicalLines_append (Text.whole_concat_feed text.toList),
      Text.physicalLines_line hopeningFeed, hclosing]
    rfl
  have hopens : Line.classify (Text.lineBody (opening ++ ['\n'])) = some (.openBlock key op) := by
    rw [Text.lineBody_append_feed hopeningFeed,
      Text.lineBody_of_not_mem hopeningFeed hopeningReturn, hshape]
  refine ⟨Place.of ctx.path (Text.lineBody (opening ++ ['\n'])) number, rfl, ?_⟩
  rw [hlines, steps_block f ctx doc number hopens hinside (by rw [hbody]; rfl), storeBlock]
  simp only [Text.flatten_physicalLines, String.toList_ofList, Text.blockBody_line hreturn,
    String.ofList_toList]

variable (hextends : key ≠ "extends") (htemplate : key ≠ "template")

include hextends htemplate

theorem steps_valueLine (hfeed : '\n' ∉ text.toList) (hv : Line.IsValue text.toList)
    (hwritten : Written (valueLine key op text) written) :
    ∃ place, place.number = number ∧
      steps f ctx ⟨doc, none⟩ number (Text.physicalLines written.toList) =
        Run.bind (storeText doc place key op .line text) fun doc => Run.ok ⟨doc, none⟩ :=
  steps_ownValueLine f ctx doc number hk (notInheriting_of_ne hextends htemplate op) hfeed hv
    hwritten

theorem steps_blockLines (hfeed : '\n' ∉ text.toList) (hv : Line.IsValue text.toList)
    (hwritten : Written (blockLines key op text) written) :
    ∃ place, place.number = number ∧
      steps f ctx ⟨doc, none⟩ number (Text.physicalLines written.toList) =
        Run.bind (storeText doc place key op .block text) fun doc => Run.ok ⟨doc, none⟩ := by
  have hreturn : text.toList.getLast? ≠ some '\r' := Text.getLast?_ne_of_stops rfl hv.back
  refine steps_ownBlockLines f ctx doc number hk (notInheriting_of_ne hextends htemplate op) ?_
    hreturn hwritten
  rw [Text.physicalLines_line hfeed, List.forall_mem_singleton, Text.lineBody_append_feed hfeed,
    Text.lineBody_of_not_mem hfeed hreturn]
  exact hv.closesBlock_eq_false

theorem steps_fileLine {uri : String} (hu : Line.IsReference uri.toList)
    (hfront : Stops isBlank uri.toList) (hreturn : uri.toList.getLast? ≠ some '\r')
    (hwritten : Written (fileLine key op uri) written) :
    ∃ place, place.number = number ∧
      steps f ctx ⟨doc, none⟩ number (Text.physicalLines written.toList) =
        Run.bind (storeFile ctx doc place key op uri) fun doc => Run.ok ⟨doc, none⟩ := by
  have hform : (fileLine key op uri).toList =
      key.toList ++ ([' '] ++ op.sign :: (['@'] ++ ' ' :: uri.toList)) := by
    simp [fileLine]
  have hshape : Line.classify (fileLine key op uri).toList = some (.fromFile key op uri) := by
    rw [hform, show ['@'] ++ ' ' :: uri.toList = '@' :: ' ' :: uri.toList from rfl,
      Line.classify_fromFile hk (notInheriting_of_ne hextends htemplate op) Text.blanks_space hu
        hfront,
      String.ofList_toList, String.ofList_toList]
  have hat : '\n' ∉ ['@'] := by decide
  have huriFeed : '\n' ∉ uri.toList := by
    intro hmem
    cases hu.chars _ hmem
  obtain ⟨hne, hformFeed, hformReturn⟩ := line_of_key op hk hat huriFeed hreturn
  rw [← hform] at hne hformFeed hformReturn
  obtain ⟨raw, hlines, hbody⟩ :=
    Text.exists_physicalLines_line hwritten.toList hne hformFeed hformReturn
  refine ⟨Place.of ctx.path (fileLine key op uri).toList number, rfl, ?_⟩
  rw [hlines]
  simp only [steps, step, hbody, hshape, Run.bind_ok]
  rfl

end Forms

/-! ## The three forms -/

/-- Behind whole lines that leave no block open, a parse goes on with the lines that
follow. -/
theorem parse_behind {settings : Settings} {path : FullPath} {circleId : Int}
    {before : String} {doc : Document} {ctx : Context}
    (hctx : contextOf settings ⟨before.toUTF8, path, circleId⟩ = ctx)
    (hwhole : Text.Whole before.toList)
    (hidle : (steps (ancestor ctx) ctx (State.start ctx) 1
      (Text.physicalLines before.toList)).result = .ok ⟨doc, none⟩) (lines : String) :
    (parse settings ⟨(before ++ lines).toUTF8, path, circleId⟩).result =
      (Run.bind (steps (ancestor ctx) ctx ⟨doc, none⟩
        ((Text.physicalLines before.toList).length + 1) (Text.physicalLines lines.toList))
        (conclude settings)).result := by
  -- The context of a file does not depend on its contents.
  have hcontext : contextOf settings ⟨(before ++ lines).toUTF8, path, circleId⟩ = ctx := hctx
  rw [parse_text (fromUTF8?_toUTF8 _), hcontext, String.toList_append,
    Text.physicalLines_append hwhole, steps_append, Run.bind_assoc,
    Run.result_bind_of_ok _ hidle, Nat.add_comm]

/-- **Three forms of a value.** Let the lines of a text leave no block open. A key with a
value, a text without blanks around it, brings the parse behind these lines to the same
end on a line of its own and in a block. As JSON the value can also come from a file that
the line loads. (A reference starts behind the blanks of its line, and a carriage return
at the end of the line is not part of it.) -/
theorem parse_forms (settings : Settings) (path : FullPath) (circleId : Int)
    (before key text : String) (op : Operator) (doc : Document)
    (hwhole : Text.Whole before.toList)
    (hidle : let ctx := contextOf settings ⟨before.toUTF8, path, circleId⟩
      (steps (ancestor ctx) ctx (State.start ctx) 1 (Text.physicalLines before.toList)).result =
        .ok ⟨doc, none⟩)
    (hk : Line.IsKey key.toList) (hextends : key ≠ "extends") (htemplate : key ≠ "template")
    (hfeed : '\n' ∉ text.toList) (hv : Line.IsValue text.toList) :
    let parseBehind (lines : String) : Except ParseError Document :=
      (parse settings ⟨(before ++ lines).toUTF8, path, circleId⟩).result
    ∀ line block, Written (valueLine key op text) line → Written (blockLines key op text) block →
      SameEnd (parseBehind line) (parseBehind block) ∧
      (op = .json → ∀ uri found circleId' line', Written (fileLine key op uri) line' →
        Line.IsReference uri.toList → Stops isBlank uri.toList →
        uri.toList.getLast? ≠ some '\r' →
        settings.resolver ⟨uri, path.directory, path.resourceId, circleId⟩ =
          some ⟨text.toUTF8, found, circleId'⟩ →
        SameEnd (parseBehind line) (parseBehind line') ∧
        SameEnd (parseBehind block) (parseBehind line')) := by
  intro parseBehind line block hline hblock
  obtain ⟨ctx, hctx⟩ : ∃ ctx, contextOf settings ⟨before.toUTF8, path, circleId⟩ = ctx :=
    ⟨_, rfl⟩
  have hidle : (steps (ancestor ctx) ctx (State.start ctx) 1
      (Text.physicalLines before.toList)).result = .ok ⟨doc, none⟩ := hctx ▸ hidle
  have hbehind : ∀ lines, parseBehind lines = _ := parse_behind hctx hwhole hidle
  obtain ⟨place, hnumber, hsteps⟩ := steps_valueLine (ancestor ctx) ctx doc
    ((Text.physicalLines before.toList).length + 1) hk hextends htemplate hfeed hv hline
  obtain ⟨place', hnumber', hsteps'⟩ := steps_blockLines (ancestor ctx) ctx doc
    ((Text.physicalLines before.toList).length + 1) hk hextends htemplate hfeed hv hblock
  have hsame : SameEnd (parseBehind line) (parseBehind block) := by
    rw [hbehind, hbehind, hsteps, hsteps']
    have htrimmed := Text.trimmed_of_stops hv.front hv.back
    exact ((storeText_sameEnd (hnumber.trans hnumber'.symm) key op htrimmed).bind _).bind _
  refine ⟨hsame, ?_⟩
  rintro rfl uri found circleId' line' hfile hu hfront hreturn hfound
  obtain ⟨place'', hnumber'', hsteps''⟩ := steps_fileLine (ancestor ctx) ctx doc
    ((Text.physicalLines before.toList).length + 1) hk hextends htemplate hu hfront hreturn hfile
  have hstore : (storeFile ctx doc place'' key .json uri).result =
      (storeJson doc place'' key .file text).result := by
    subst hctx
    exact storeFile_json_result hfound
  have hsame' : SameEnd (parseBehind line) (parseBehind line') := by
    rw [hbehind, hbehind, hsteps, hsteps'']
    refine SameEnd.bind (SameEnd.bind ?_ _) _
    rw [hstore]
    exact storeJson_sameEnd (hnumber.trans hnumber''.symm) key text .line .file
  exact ⟨hsame', hsame.symm.trans hsame'⟩

/-! A list behind a comment, in its three forms. -/

def listResolver : Resolver := fun q =>
  if q.uri = "f" then some ⟨"[1]".toUTF8, ⟨0, "f"⟩, 0⟩ else none

/-- The list is the same on a line, in a block and in a file. -/
theorem parse_forms_list :
    let settings : Settings := ⟨listResolver, [], 64, false⟩
    let parseBehind (lines : String) : Except ParseError Document :=
      (parse settings ⟨("# c\n" ++ lines).toUTF8, ⟨0, "a"⟩, 0⟩).result
    SameEnd (parseBehind "k % [1]") (parseBehind "k %=\n[1]\n==\n") ∧
    SameEnd (parseBehind "k % [1]") (parseBehind "k %@ f") ∧
    SameEnd (parseBehind "k %=\n[1]\n==\n") (parseBehind "k %@ f") := by
  intro settings parseBehind
  have hv : Line.IsValue "[1]".toList :=
    ⟨by decide, stops_cons.mpr rfl, (stops_cons.mpr rfl : Stops isBlank [']', '1', '[']),
      stops_cons.mpr rfl⟩
  have hu : Line.IsReference "f".toList :=
    .inl ⟨[['f']], List.cons_ne_nil _ _, List.forall_mem_singleton.mpr
      ⟨List.cons_ne_nil _ _, List.forall_mem_singleton.mpr rfl⟩, rfl⟩
  have h := parse_forms settings ⟨0, "a"⟩ 0 "# c\n" "k" "[1]" .json commentDocument
    (.inr rfl) rfl ⟨'k', [], rfl, rfl, List.forall_mem_nil _⟩ (by decide) (by decide) (by decide) hv
    "k % [1]" "k %=\n[1]\n==\n" (.inl (by decide)) (.inr (by decide))
  exact ⟨h.1, h.2 rfl "f" ⟨0, "f"⟩ 0 "k %@ f" (.inl (by decide)) hu (stops_cons.mpr rfl)
    (by decide) rfl⟩

end Parse

end ExerciseDoc
