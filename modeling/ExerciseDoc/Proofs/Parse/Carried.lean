import ExerciseDoc.Proofs.Json.Notation
import ExerciseDoc.Proofs.Key.Assign
import ExerciseDoc.Proofs.Parse.Forms

/-!
# Parse — values that a file can carry

Every value that JSON keeps can be put behind a key, in either form of its text. No line of
such a text closes the block that it stands in, as no line starts with `=`
(`Guarded.closesBlock_eq_false`, `Writes.guarded`). The text without blanks is one line, and
a value of the grammar of lines if it has no `#` (`Writes.printable`, `Ended.isValue`). So
what is stored is the value itself (`parse_carries`).
-/

namespace ExerciseDoc

/-! ## Lines that close no block -/

namespace Text

variable {cs ds : List Char}

/-- Each `=` stands behind a character that does not control lines. -/
def Guarded (cs : List Char) : Prop :=
  ∀ front rest, cs = front ++ '=' :: rest → ∃ c, front.getLast? = some c ∧ 0x20 ≤ c.toNat

theorem guarded_of_not_mem (h : '=' ∉ cs) : Guarded cs := by
  rintro front rest rfl
  exact absurd (List.mem_append_right front List.mem_cons_self) h

theorem guarded_of_printable (h : ∀ c ∈ cs, 0x20 ≤ c.toNat) (hhead : cs.head? ≠ some '=') :
    Guarded cs := by
  rintro front rest rfl
  cases front with
  | nil => exact absurd rfl hhead
  | cons c front =>
      have hlast := List.getLast?_eq_some_getLast (List.cons_ne_nil c front)
      exact ⟨_, hlast, h _ (List.mem_append_left _ (List.getLast_mem _))⟩

theorem Guarded.append (hcs : Guarded cs) (hds : Guarded ds) : Guarded (cs ++ ds) := by
  intro front rest h
  rcases List.append_eq_append_iff.mp h with ⟨between, rfl, hrest⟩ | ⟨between, rfl, hrest⟩
  · -- The character stands in the second text, and the one in front of it too.
    obtain ⟨c, hlast, hc⟩ := hds between rest hrest
    exact ⟨c, by rw [List.getLast?_append, hlast]; rfl, hc⟩
  · cases between with
    | nil =>
        obtain ⟨c, hlast, -⟩ := hds [] rest hrest.symm
        cases hlast
    | cons d between =>
        obtain ⟨rfl, -⟩ := List.cons.inj hrest
        exact hcs front between rfl

theorem dropFinal_prefix_self (c : Char) (cs : List Char) : dropFinal c cs <+: cs := by
  unfold dropFinal
  split
  · exact List.dropLast_prefix cs
  · exact List.prefix_rfl

theorem lineBody_prefix_self (raw : List Char) : lineBody raw <+: raw :=
  (dropFinal_prefix_self '\r' _).trans (dropFinal_prefix_self '\n' raw)

/-- No line of a text closes a block if each `=` in the text stands behind another character
of its line. -/
theorem Guarded.closesBlock_eq_false (h : Guarded cs) :
    ∀ l ∈ physicalLines cs, Line.closesBlock (lineBody l) = false := by
  intro l hl
  rw [Bool.eq_false_iff]
  intro hcloses
  obtain ⟨tail, hstart⟩ : ∃ tail, l = '=' :: tail := by
    obtain ⟨rest, hrest⟩ := lineBody_prefix_self l
    unfold Line.closesBlock at hcloses
    split at hcloses
    · rename_i behind hbody
      exact ⟨_, by rw [← hrest, hbody]; rfl⟩
    · cases hcloses
  obtain ⟨before, after, hlines⟩ := List.append_of_mem hl
  have htext : cs = before.flatten ++ '=' :: (tail ++ after.flatten) := by
    rw [← flatten_physicalLines cs, hlines, hstart]
    simp
  obtain ⟨c, hlast, hc⟩ := h _ _ htext
  by_cases hbefore : before = []
  · rw [hbefore] at hlast
    cases hlast
  · rw [getLast?_of_physicalLines hlines (List.cons_ne_nil _ _) hbefore] at hlast
    cases hlast
    exact absurd hc (by decide)

end Text

/-! ## Texts of a value among lines -/

namespace Json

open Text (Stops stops_cons isBlank isDigit Guarded)

variable {gap : List Char → Prop} {room : Nat} {v : Value} {cs : List Char} {c : Char}

theorem Writes.guarded (hgap : ∀ {w}, gap w → JsonBlanks w) (h : Writes gap room v cs) :
    Guarded cs := by
  refine h.of_parts Guarded.append (fun hw => Text.guarded_of_not_mem fun hmem => ?_)
    Text.guarded_of_printable
  cases hgap hw '=' hmem

theorem Writes.printable (h : Writes NoGap room v cs) : ∀ c ∈ cs, 0x20 ≤ c.toNat := by
  refine h.of_parts (P := fun cs => ∀ c ∈ cs, 0x20 ≤ c.toNat)
    (fun hcs hds => List.forall_mem_append.mpr ⟨hcs, hds⟩) ?_ (fun hcs _ => hcs)
  rintro _ rfl
  exact List.forall_mem_nil _

theorem not_isBlank_of_isDigit (h : isDigit c) : isBlank c = false := by
  rw [Bool.eq_false_iff]
  intro hblank
  have hkey := Line.isKeyChar_of_isBlank hblank
  simp [Line.isKeyChar, h] at hkey

theorem not_isBlank_of_mem {marks : List Char} (h : marks.all fun d => !isBlank d)
    (hc : marks.contains c) : isBlank c = false := by
  simpa using List.all_eq_true.mp h c (List.contains_iff_mem.mp hc)

theorem not_isBlank_of_startsValue (h : startsValue c) : isBlank c = false := by
  rw [startsValue, Bool.or_eq_true] at h
  exact h.elim not_isBlank_of_isDigit (not_isBlank_of_mem rfl)

theorem not_isBlank_of_endsValue (h : endsValue c) : isBlank c = false := by
  rw [endsValue, Bool.or_eq_true] at h
  exact h.elim not_isBlank_of_isDigit (not_isBlank_of_mem rfl)

theorem Ended.stops_reverse (h : Ended cs) : Stops isBlank cs.reverse := by
  intro c hc
  obtain ⟨d, hlast, hends⟩ := h.back
  rw [List.head?_reverse, hlast] at hc
  cases hc
  exact not_isBlank_of_endsValue hends

/-- Without a `#` in it, the text of a value is a value of a line. -/
theorem Ended.isValue (h : Ended cs) (hcomment : '#' ∉ cs) : Line.IsValue cs := by
  obtain ⟨c, tail, rfl, hstarts⟩ := h.front
  refine ⟨hcomment, stops_cons.mpr (not_isBlank_of_startsValue hstarts), h.stops_reverse, ?_⟩
  rw [stops_cons]
  simp [startsValue_ne hstarts (rfl : startsValue '=' = false),
    startsValue_ne hstarts (rfl : startsValue '@' = false),
    startsValue_ne hstarts (rfl : startsValue '%' = false)]

/-- A text that is read as the value, and that a block takes in as a whole. -/
structure Blockable (v : Value) (text : String) : Prop where
  read : ofText? text = some v
  guarded : Guarded text.toList
  back : text.toList.getLast? ≠ some '\r'

theorem blockable_of_writes (hgap : ∀ {w}, gap w → JsonBlanks w) (h : Writes gap room v cs)
    (hread : read? cs = some v) : Blockable v (String.ofList cs) := by
  constructor
  · rw [ofText?, String.toList_ofList, hread]
  · rw [String.toList_ofList]
    exact h.guarded hgap
  · rw [String.toList_ofList]
    exact Text.getLast?_ne_of_stops rfl h.ended.stops_reverse

theorem blockable_compactText (h : Exact v) (hnesting : v.nesting ≤ maxNesting) :
    Blockable v (compactText v) :=
  blockable_of_writes jsonBlanks_of_noGap (writes_compact h hnesting)
    (read?_printed h hnesting).1

theorem blockable_prettyText (h : Exact v) (hnesting : v.nesting ≤ maxNesting) :
    Blockable v (prettyText v) :=
  blockable_of_writes id (writes_prettyAt h hnesting 0) (read?_printed h hnesting).2

end Json

/-! ## Storing -/

namespace Parse

/-- The document with the value at the key and otherwise the same, but for a warning if
something stood at the key before. -/
structure Stored (doc doc' : Document) (key : String) (v : Value) : Prop where
  data : Key.Assigned doc.data doc'.data (Key.segments key) v
  others : doc' = { doc with
    data := doc'.data
    warnings := doc.warnings ++
      if (Value.get? (.mapping doc.data) (Key.segments key)).isSome then
        [Key.overwriteWarning key]
      else [] }

theorem store_assign {doc : Document} {key : String} (h : Key.Assignable doc.data key)
    (incoming : Incoming) :
    ∃ doc', Stored doc doc' key incoming.toValue ∧
      ∀ place, store doc place key incoming .assign = Run.ok doc' := by
  obtain ⟨data, hassigned, happly⟩ := Key.apply_assign h incoming
  unfold store
  by_cases hstood : (Value.get? (.mapping doc.data) (Key.segments key)).isSome
  · rw [happly, if_pos hstood]
    refine ⟨{ doc with data := data }.addWarning (Key.overwriteWarning key),
      ⟨hassigned, ?_⟩, fun _ => rfl⟩
    rw [if_pos hstood]
    rfl
  · rw [happly, if_neg hstood]
    refine ⟨{ doc with data := data }, ⟨hassigned, ?_⟩, fun _ => rfl⟩
    rw [if_neg hstood, List.append_nil]

section Behind

variable (f : Location → Run Document) (ctx : Context) {doc doc' : Document} (number : Nat)
variable {key text lines : String} {v : Value} (hk : Line.IsKey key.toList)
variable (hstore : ∀ place, store doc place key (.value v) .assign = Run.ok doc')

include hk hstore

theorem steps_jsonBlock (htext : Json.Blockable v text)
    (hlines : Written (blockLines key .json text) lines) :
    steps f ctx ⟨doc, none⟩ number (Text.physicalLines lines.toList) = Run.ok ⟨doc', none⟩ := by
  have hfeed : Text.Guarded ['\n'] := Text.guarded_of_not_mem (by decide)
  obtain ⟨place, -, hsteps⟩ := steps_ownBlockLines f ctx doc number hk
    (fun h => by cases h) (htext.guarded.append hfeed).closesBlock_eq_false htext.back hlines
  simp only [hsteps, storeText, storeJson, htext.read, hstore, Run.ok_bind]

theorem steps_jsonLine (hread : Json.ofText? text = some v) (hfeed : '\n' ∉ text.toList)
    (hvalue : Line.IsValue text.toList) (hlines : Written (valueLine key .json text) lines) :
    steps f ctx ⟨doc, none⟩ number (Text.physicalLines lines.toList) = Run.ok ⟨doc', none⟩ := by
  obtain ⟨place, -, hsteps⟩ := steps_ownValueLine f ctx doc number hk
    (fun h => by cases h) hfeed hvalue hlines
  simp only [hsteps, storeText, storeJson, hread, hstore, Run.ok_bind]

end Behind

/-- **Carried values.** Let the lines of a text leave no block open, and let a key be
assignable behind them. Every value that JSON keeps, and that nests no deeper than JSON may,
is stored at the key as it is, from a block with either form of its text and, if there is no
`#` in the text without blanks, from a line with that text. -/
theorem parse_carries (settings : Settings) (path : FullPath) (circleId : Int)
    (before key : String) (doc : Document) (v : Value)
    (hwhole : Text.Whole before.toList)
    (hidle : let ctx := contextOf settings ⟨before.toUTF8, path, circleId⟩
      (steps (ancestor ctx) ctx (State.start ctx) 1 (Text.physicalLines before.toList)).result =
        .ok ⟨doc, none⟩)
    (hk : Line.IsKey key.toList) (hassignable : Key.Assignable doc.data key)
    (hexact : Json.Exact v) (hnesting : v.nesting ≤ Json.maxNesting) :
    ∃ doc', Stored doc doc' key v ∧
      let parseBehind (lines : String) : Except ParseError Document :=
        (parse settings ⟨(before ++ lines).toUTF8, path, circleId⟩).result
      let complete := if settings.checkMandatoryKeys then checked doc' else Run.ok doc'
      (∀ text lines, text = Json.compactText v ∨ text = Json.prettyText v →
        Written (blockLines key .json text) lines → parseBehind lines = complete.result) ∧
      ('#' ∉ (Json.compactText v).toList → ∀ lines,
        Written (valueLine key .json (Json.compactText v)) lines →
        parseBehind lines = complete.result) := by
  obtain ⟨ctx, hctx⟩ : ∃ ctx, contextOf settings ⟨before.toUTF8, path, circleId⟩ = ctx :=
    ⟨_, rfl⟩
  have hidle : (steps (ancestor ctx) ctx (State.start ctx) 1
      (Text.physicalLines before.toList)).result = .ok ⟨doc, none⟩ := hctx ▸ hidle
  obtain ⟨doc', hstored, hstore⟩ := store_assign hassignable (.value v)
  refine ⟨doc', hstored, ?_⟩
  intro parseBehind complete
  have hbehind : ∀ lines, steps (ancestor ctx) ctx ⟨doc, none⟩
      ((Text.physicalLines before.toList).length + 1) (Text.physicalLines lines.toList) =
        Run.ok ⟨doc', none⟩ → parseBehind lines = complete.result := by
    intro lines hsteps
    refine (parse_behind hctx hwhole hidle lines).trans ?_
    rw [hsteps, Run.ok_bind, conclude, finish, Run.ok_bind]
    dsimp only [complete]
    split <;> rfl
  have hcompact := Json.blockable_compactText hexact hnesting
  constructor
  · intro text lines htext hlines
    have hblockable : Json.Blockable v text := by
      rcases htext with rfl | rfl
      · exact hcompact
      · exact Json.blockable_prettyText hexact hnesting
    exact hbehind lines (steps_jsonBlock _ ctx _ hk hstore hblockable hlines)
  · intro hcomment lines hlines
    have hwrites := Json.writes_compact hexact hnesting
    rw [← String.toList_ofList (l := Json.compact v)] at hwrites
    have hfeed : '\n' ∉ (Json.compactText v).toList :=
      fun hmem => absurd (hwrites.printable _ hmem) (by decide)
    exact hbehind lines (steps_jsonLine _ ctx _ hk hstore hcompact.read hfeed
      (hwrites.ended.isValue hcomment) hlines)

/-! A mapping behind a comment, in blocks, and a list on a line. -/

/-- Its strings have the signs of comments and blocks in them, a quote and a line feed. -/
def signs : Value :=
  .mapping [("#", .text "==\n\""), ("n", .list [.int (-1), .null])]

theorem exact_signs : Json.Exact signs := by
  have hnumbers : Json.Exact (.list [.int (-1), .null]) := by
    refine .list ?_
    rw [List.forall_mem_cons, List.forall_mem_singleton]
    exact ⟨.int (by decide) (by decide), .null⟩
  refine .mapping (List.pairwise_pair.mpr (by decide)) ?_
  rw [List.forall_mem_cons, List.forall_mem_singleton]
  exact ⟨.text _, hnumbers⟩

/-- The mapping is stored from both forms of its text, the list from its line. -/
theorem parse_carries_signs :
    let settings : Settings := ⟨fun _ => none, [], 64, false⟩
    let parseBehind (lines : String) : Except ParseError Document :=
      (parse settings ⟨("# c\n" ++ lines).toUTF8, ⟨0, "a"⟩, 0⟩).result
    (∃ doc', Stored commentDocument doc' "k.s" signs ∧
      parseBehind "k.s %=\n\x7b\"#\":\"==\\n\\\"\",\"n\":[-1,null]\x7d\n==" = .ok doc' ∧
      parseBehind ("k.s %=\n\x7b\n  \"#\": \"==\\n\\\"\",\n" ++
        "  \"n\": [\n    -1,\n    null\n  ]\n\x7d\n==\n") = .ok doc') ∧
    ∃ doc', Stored commentDocument doc' "k" (.list [.bool true]) ∧
      parseBehind "k % [true]" = .ok doc' := by
  intro settings parseBehind
  have hkey : ∀ cs, (∀ c ∈ cs, Line.isKeyChar c) → Line.IsKey ('k' :: cs) :=
    fun cs hcs => ⟨'k', cs, rfl, rfl, hcs⟩
  have hassignable : ∀ key, (Key.segments key).length ≤ maxSegments →
      (∀ seg ∈ Key.segments key, seg ≠ "") → Key.Assignable commentDocument.data key :=
    fun key hshort hnamed => ⟨hshort, hnamed, Key.passable_nil _⟩
  constructor
  · obtain ⟨doc', hstored, hblocks, -⟩ := parse_carries settings ⟨0, "a"⟩ 0 "# c\n" "k.s"
      commentDocument signs (.inr rfl) rfl (hkey _ (List.all_eq_true.mp rfl))
      (hassignable _ (by decide) (by decide)) exact_signs (by decide)
    exact ⟨doc', hstored, hblocks _ _ (.inl rfl) (.inl (by decide)),
      hblocks _ _ (.inr rfl) (.inr (by decide))⟩
  · have hexact : Json.Exact (.list [.bool true]) :=
      .list (List.forall_mem_singleton.mpr (.bool true))
    obtain ⟨doc', hstored, -, hline⟩ := parse_carries settings ⟨0, "a"⟩ 0 "# c\n" "k"
      commentDocument (.list [.bool true]) (.inr rfl) rfl (hkey _ (List.all_eq_true.mp rfl))
      (hassignable _ (by decide) (by decide)) hexact (by decide)
    exact ⟨doc', hstored, hline (by decide) _ (.inl (by decide))⟩

end Parse

end ExerciseDoc
