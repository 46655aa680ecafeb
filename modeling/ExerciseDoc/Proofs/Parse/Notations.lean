import ExerciseDoc.Proofs.Json.Literals
import ExerciseDoc.Proofs.Parse.Carried

/-!
# Parse — values in two notations

A text that is JSON as well as a literal, with one value, can be written behind a key with
either operator. An assignment reads it as a literal, the operator of JSON as JSON, and both
assign what they read (`store_assign_congr`), so both lines come to the same end
(`parse_notations_agree`).
-/

namespace ExerciseDoc.Parse

open Text (Stops stops_cons isBlank)

variable {doc : Document} {key text : String} {v : Value}

/-- Of what is assigned, only the value counts, also for the document. -/
theorem store_assign_congr {incoming incoming' : Incoming}
    (h : incoming.toValue = incoming'.toValue) (place : Place) :
    store doc place key incoming .assign = store doc place key incoming' .assign := by
  unfold store
  rw [Key.apply_assign_congr h]

/-- A text without blanks around it that is a literal is assigned as that literal's value. -/
theorem storeText_assign (hread : Literal.read? text.toList = some v)
    (htrimmed : Text.trimmed text.toList = text.toList) (place : Place) :
    storeText doc place key .assign .line text = store doc place key (.value v) .assign := by
  refine store_assign_congr ?_ place
  change Literal.ofLine text = v
  rw [Literal.ofLine, htrimmed, hread]
  rfl

theorem storeText_json (hread : Json.ofText? text = some v) (place : Place) :
    storeText doc place key .json .line text = store doc place key (.value v) .assign := by
  rw [storeText, storeJson, hread]

/-- Where the lines end without an open block, the document is complete. -/
theorem conclude_result (settings : Settings) (doc : Document) :
    (conclude settings ⟨doc, none⟩).result =
      (if settings.checkMandatoryKeys then checked doc else Run.ok doc).result := by
  rw [conclude, finish, Run.ok_bind]
  split <;> rfl

/-- A file that starts with these whole lines has this document behind them, and no open
block. -/
structure IdleBehind (settings : Settings) (path : FullPath) (circleId : Int) (before : String)
    (doc : Document) : Prop where
  whole : Text.Whole before.toList
  idle : let ctx := contextOf settings ⟨before.toUTF8, path, circleId⟩
    (steps (ancestor ctx) ctx (State.start ctx) 1 (Text.physicalLines before.toList)).result =
      .ok ⟨doc, none⟩

/-- **One text in two notations.** A text of JSON whose numbers and escapes are plain is a
literal of the same value. Where it can be the value of a line, a key with the text brings a
parse to the same end by an assignment and by the operator of JSON, and if the key is
assignable, both store the value. -/
theorem parse_notations_agree (text : String) (v : Value)
    (hread : Json.ofText? text = some v) (hplain : ∀ t ∈ Json.tokens text.toList, t.Plain) :
    Literal.read? text.toList = some v ∧
    ∀ (settings : Settings) (path : FullPath) (circleId : Int) (before key : String)
      (doc : Document), IdleBehind settings path circleId before doc →
      Line.IsKey key.toList → key ≠ "extends" → key ≠ "template" →
      '\n' ∉ text.toList → Line.IsValue text.toList →
      let parseBehind (lines : String) : Except ParseError Document :=
        (parse settings ⟨(before ++ lines).toUTF8, path, circleId⟩).result
      ∀ line line', Written (valueLine key .assign text) line →
        Written (valueLine key .json text) line' →
        SameEnd (parseBehind line) (parseBehind line') ∧
        (Key.Assignable doc.data key → ∃ doc', Stored doc doc' key v ∧
          let complete := if settings.checkMandatoryKeys then checked doc' else Run.ok doc'
          parseBehind line = complete.result ∧ parseBehind line' = complete.result) := by
  have hliteral : Literal.read? text.toList = some v := Json.literal_of_read? hplain hread
  refine ⟨hliteral, ?_⟩
  intro settings path circleId before key doc hbefore hk hextends htemplate hfeed hv
    parseBehind line line' hline hline'
  obtain ⟨ctx, hctx⟩ : ∃ ctx, contextOf settings ⟨before.toUTF8, path, circleId⟩ = ctx :=
    ⟨_, rfl⟩
  have hidle : (steps (ancestor ctx) ctx (State.start ctx) 1
      (Text.physicalLines before.toList)).result = .ok ⟨doc, none⟩ := hctx ▸ hbefore.idle
  have hbehind : ∀ lines, parseBehind lines = _ := parse_behind hctx hbefore.whole hidle
  obtain ⟨place, hnumber, hsteps⟩ := steps_valueLine (ancestor ctx) ctx doc
    ((Text.physicalLines before.toList).length + 1) hk hextends htemplate hfeed hv hline
  obtain ⟨place', hnumber', hsteps'⟩ := steps_valueLine (ancestor ctx) ctx doc
    ((Text.physicalLines before.toList).length + 1) hk hextends htemplate hfeed hv hline'
  rw [storeText_assign hliteral (Text.trimmed_of_stops hv.front hv.back)] at hsteps
  rw [storeText_json hread] at hsteps'
  rw [hbehind, hbehind, hsteps, hsteps']
  constructor
  · exact ((store_sameEnd (hnumber.trans hnumber'.symm) rfl rfl key .assign).bind _).bind _
  · intro hassignable
    obtain ⟨doc', hstored, hstore⟩ := store_assign hassignable (.value v)
    refine ⟨doc', hstored, ?_⟩
    simp only [hstore, Run.ok_bind, conclude_result, and_self]

/-! A mapping behind a comment, with a negative number and an escape in it. -/

def listedText : String := "\x7b\"a\":[1,-2,\"x\\n\"]\x7d"

def listed : Value := .mapping [("a", .list [.int 1, .int (-2), .text "x\n"])]

theorem ofText?_listedText : Json.ofText? listedText = some listed := by
  have hitems : Json.Exact (.list [.int 1, .int (-2), .text "x\n"]) := by
    refine .list ?_
    simp only [List.forall_mem_cons]
    exact ⟨.int (by decide) (by decide), .int (by decide) (by decide), .text _,
      List.forall_mem_nil _⟩
  have hexact : Json.Exact listed :=
    .mapping (List.pairwise_singleton _ _) (List.forall_mem_singleton.mpr hitems)
  have htext : listedText = Json.compactText listed := by decide +kernel
  rw [htext]
  exact (Json.blockable_compactText hexact (by decide)).read

/-- Both notations store the mapping. -/
theorem parse_notations_agree_listed :
    let settings : Settings := ⟨fun _ => none, [], 64, false⟩
    let parseBehind (lines : String) : Except ParseError Document :=
      (parse settings ⟨("# c\n" ++ lines).toUTF8, ⟨0, "a"⟩, 0⟩).result
    Literal.read? listedText.toList = some listed ∧
    SameEnd (parseBehind ("k = " ++ listedText)) (parseBehind ("k % " ++ listedText ++ "\n")) ∧
    ∃ doc', Stored commentDocument doc' "k" listed ∧
      parseBehind ("k = " ++ listedText) = .ok doc' ∧
      parseBehind ("k % " ++ listedText ++ "\n") = .ok doc' := by
  intro settings parseBehind
  have hv : Line.IsValue listedText.toList :=
    ⟨by decide, stops_cons.mpr rfl, (stops_cons.mpr rfl : Stops isBlank ('\x7d' :: _)),
      stops_cons.mpr rfl⟩
  obtain ⟨hliteral, hlines⟩ :=
    parse_notations_agree listedText listed ofText?_listedText (by decide +kernel)
  obtain ⟨hsame, hstored⟩ := hlines settings ⟨0, "a"⟩ 0 "# c\n" "k" commentDocument
    ⟨.inr rfl, rfl⟩ ⟨'k', [], rfl, rfl, List.forall_mem_nil _⟩ (by decide) (by decide) (by decide)
    hv ("k = " ++ listedText) ("k % " ++ listedText ++ "\n") (.inl (by decide +kernel))
    (.inr (by decide +kernel))
  have hassignable : Key.Assignable commentDocument.data "k" :=
    ⟨by decide, by decide, Key.passable_nil _⟩
  exact ⟨hliteral, hsame, hstored hassignable⟩

end ExerciseDoc.Parse
