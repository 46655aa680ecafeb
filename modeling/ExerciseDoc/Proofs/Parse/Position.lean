import ExerciseDoc.Proofs.Parse.Agreement
import ExerciseDoc.Proofs.Text.Lines
import Mathlib.Data.List.Induction

/-!
# Parse — where an error is

An error that belongs to a line names a line that is there. The line stands in the file
whose parse fails, the root or an ancestor that is still being parsed, and all lines in
front of it have been processed (`error_position`). Either its own directive fails, or
it opens the block that cannot be stored when it is closed or is never closed: an open
block remembers the line that opened it (`steps_collecting`).
-/

namespace ExerciseDoc.Parse

/-! ## Open blocks -/

/-- The line in a state without an open block opens one. -/
theorem step_opens {f : Location → Run Document} {ctx : Context} {doc : Document}
    {number : Nat} {raw : List Char} {s : State} {block : Block}
    (h : (step f ctx ⟨doc, none⟩ number raw).result = .ok s) (hblock : s.block = some block) :
    ∃ key op, Line.classify (Text.lineBody raw) = some (.openBlock key op) ∧
      s = ⟨doc, some ⟨key, op, "", Place.of ctx.path (Text.lineBody raw) number⟩⟩ := by
  simp only [step] at h
  split at h
  · cases h
  · rename_i key op hshape
    cases h
    exact ⟨key, op, hshape, rfl⟩
  · obtain ⟨doc', -, hend⟩ := Run.bind_eq_ok.mp h
    cases hend
    cases hblock

/-- **An open block** was opened by the line at its place, in a state without one, and
has collected every line since then, none of which closes a block. -/
theorem steps_collecting {f : Location → Run Document} {ctx : Context} {doc : Document}
    {number : Nat} {lines : List (List Char)} {s : State} {block : Block}
    (h : (steps f ctx ⟨doc, none⟩ number lines).result = .ok s)
    (hblock : s.block = some block) :
    ∃ before raw body key op, lines = before ++ raw :: body ∧
      (steps f ctx ⟨doc, none⟩ number before).result = .ok ⟨s.document, none⟩ ∧
      Line.classify (Text.lineBody raw) = some (.openBlock key op) ∧
      (∀ l ∈ body, Line.closesBlock (Text.lineBody l) = false) ∧
      block = ⟨key, op, String.ofList body.flatten,
        Place.of ctx.path (Text.lineBody raw) (number + before.length)⟩ := by
  induction lines using List.reverseRecOn generalizing s block with
  | nil =>
      cases h
      cases hblock
  | append_singleton lines last ih =>
      rw [steps_append] at h
      obtain ⟨⟨doc', block'⟩, hlines, hlast⟩ := Run.bind_eq_ok.mp h
      obtain ⟨s', hstep, hend⟩ := Run.bind_eq_ok.mp hlast
      cases hend
      cases block' with
      | none =>
          obtain ⟨key, op, hshape, rfl⟩ := step_opens hstep hblock
          cases hblock
          exact ⟨lines, last, [], key, op, rfl, hlines, hshape, List.forall_mem_nil _, rfl⟩
      | some open' =>
          simp only [step] at hstep
          split at hstep
          · -- A line that closes the block leaves none open.
            obtain ⟨_, -, hend⟩ := Run.bind_eq_ok.mp hstep
            cases hend
            cases hblock
          · rename_i hcloses
            cases hstep
            cases hblock
            obtain ⟨before, raw, body, key, op, rfl, hbefore, hshape, hbody, rfl⟩ :=
              ih hlines rfl
            refine ⟨before, raw, body ++ [last], key, op, by simp, hbefore, hshape, ?_, ?_⟩
            · intro l hl
              rcases List.mem_append.mp hl with hl | hl
              · exact hbody l hl
              · rw [List.mem_singleton.mp hl]
                simpa using hcloses
            · simp [String.ofList_append]

/-! ## Lines at fault -/

/-- What makes a line the one at fault, with the document of the lines in front of it
and the lines behind it. -/
inductive AtFault (ctx : Context) (doc : Document) (place : Place) (raw : List Char)
    (after : List (List Char)) : LineFault → Prop where
  /-- The directive of the line fails, whatever its ancestors are. -/
  | directive {fault : LineFault} :
      (∀ f, (step f ctx ⟨doc, none⟩ place.number raw).result = .error (.line place fault)) →
      AtFault ctx doc place raw after fault
  /-- The line opens a block that cannot be stored where it is closed. -/
  | block {key : String} {op : Operator} {body : List (List Char)} {closing : List Char}
      {rest : List (List Char)} {fault : LineFault} :
      Line.classify (Text.lineBody raw) = some (.openBlock key op) →
      after = body ++ closing :: rest →
      (∀ l ∈ body, Line.closesBlock (Text.lineBody l) = false) →
      Line.closesBlock (Text.lineBody closing) →
      (storeBlock doc ⟨key, op, String.ofList body.flatten, place⟩).result =
        .error (.line place fault) →
      AtFault ctx doc place raw after fault
  /-- The line opens a block that nothing closes. -/
  | unclosed {key : String} {op : Operator} :
      Line.classify (Text.lineBody raw) = some (.openBlock key op) →
      (∀ l ∈ after, Line.closesBlock (Text.lineBody l) = false) →
      AtFault ctx doc place raw after .unclosed

/-- The line with a fault of a file: where it stands, what is in front of it, and why it
is at fault. -/
theorem OwnFault.position {ctx : Context} {contents : ByteArray} {place : Place}
    {fault : LineFault}
    (h : OwnFault (ancestor ctx) ctx contents (.line place fault)) :
    ∃ text before raw after doc, String.fromUTF8? contents = some text ∧
      Text.physicalLines text.toList = before ++ raw :: after ∧
      (steps (ancestor ctx) ctx (State.start ctx) 1 before).result = .ok ⟨doc, none⟩ ∧
      place = Place.of ctx.path (Text.lineBody raw) (before.length + 1) ∧
      AtFault ctx doc place raw after fault := by
  generalize he : ParseError.line place fault = e at h
  cases h with
  | undecodable => cases he
  | @line number raw s fault' hreach hfail =>
      obtain ⟨text, before, after, htext, hlines, rfl, hbefore⟩ := hreach
      obtain ⟨doc, block⟩ := s
      cases block with
      | none =>
          cases he
          exact ⟨text, before, raw, after, doc, htext, hlines, hbefore, rfl, .directive hfail⟩
      | some block =>
          -- A line inside a block fails only where it closes the block.
          cases he
          obtain ⟨front, opening, body, key, op, rfl, hfront, hshape, hbody, rfl⟩ :=
            steps_collecting hbefore rfl
          have hstep := hfail (ancestor ctx)
          simp only [step] at hstep
          split at hstep
          · rename_i hcloses
            rcases Run.bind_eq_error.mp hstep with hstore | ⟨_, _, hend⟩
            · refine ⟨text, front, opening, body ++ raw :: after, doc, htext, ?_, hfront, ?_,
                .block hshape rfl hbody hcloses hstore⟩
              · rw [hlines, List.append_assoc, List.cons_append]
              · rw [Nat.add_comm]
                rfl
            · cases hend
          · cases hstep
  | @unclosed text s block htext hsteps hblock =>
      cases he
      obtain ⟨front, opening, body, key, op, hlines, hfront, hshape, hbody, rfl⟩ :=
        steps_collecting hsteps hblock
      refine ⟨text, front, opening, body, s.document, htext, hlines, hfront, ?_,
        .unclosed hshape hbody⟩
      rw [Nat.add_comm]

/-! ## Files -/

/-- The file that a line of descent ends with is the last one on it. -/
theorem Opens.last {ctx ctx' : Context} {contents contents' : ByteArray}
    {edges : List Location} (h : Opens ctx contents edges ctx' contents') :
    ctx'.path = (edges.getLast?.map (·.path)).getD ctx.path ∧
      contents' = (edges.getLast?.map (·.contents)).getD contents := by
  induction h with
  | root => exact ⟨rfl, rfl⟩
  | @further _ _ location edges _ _ _ _ _ ih =>
      rw [ih.1, ih.2, List.getLast?_cons]
      cases edges.getLast? with
      | none => exact ⟨rfl, rfl⟩
      | some last => exact ⟨rfl, rfl⟩

/-- **Errors stand where they say.** If a parse fails with an error of a line, some file
that the parse opened, the root or an ancestor, fails with it, and the error names its
path. The line has the number that it has among the physical lines of that file, its text
is reported without blanks around it, and all lines in front of it have been processed.
It is the line whose directive fails, or the line that opened the block that fails at
its end. -/
theorem error_position (settings : Settings) (source : Location) (place : Place)
    (fault : LineFault) (h : (parse settings source).result = .error (.line place fault)) :
    ∃ edges ctx contents text before raw after doc,
      Opens (contextOf settings source) source.contents edges ctx contents ∧
      (fileIn ctx contents).result = .error (.line place fault) ∧
      place.path = ctx.path ∧
      place.path = (edges.getLast?.map (·.path)).getD source.path ∧
      contents = (edges.getLast?.map (·.contents)).getD source.contents ∧
      String.fromUTF8? contents = some text ∧
      Text.physicalLines text.toList = before ++ raw :: after ∧
      place.number = before.length + 1 ∧
      place.line = String.ofList (Text.trimmed raw) ∧
      (steps (ancestor ctx) ctx (State.start ctx) 1 before).result = .ok ⟨doc, none⟩ ∧
      AtFault ctx doc place raw after fault := by
  rcases parse_eq_error h with hfile | ⟨_, _, hmissing⟩
  · obtain ⟨edges, ctx, contents, hopen, hown | ⟨location, -, hrefusal⟩⟩ :=
      fileIn_eq_error hfile
    · obtain ⟨text, before, raw, after, doc, htext, hlines, hbefore, rfl, hfault⟩ :=
        hown.position
      have hfails : (fileIn ctx contents).result =
          .error (.line (Place.of ctx.path (Text.lineBody raw) (before.length + 1)) fault) := by
        rw [fileIn_eq]
        exact hown.fails
      refine ⟨edges, ctx, contents, text, before, raw, after, doc, hopen, hfails, rfl,
        hopen.last.1, hopen.last.2, htext, hlines, rfl, ?_, hbefore, hfault⟩
      rw [Place.of, Text.trimmed_lineBody]
    · -- A file that is refused is an error of inheritance, not of a line.
      rcases refusal_eq_some hrefusal with ⟨-, hloop⟩ | ⟨-, -, hdeep⟩
      · cases hloop
      · cases hdeep
  · cases hmissing

/-! An heir whose ancestor opens a block in its second line and does not close it. -/

def unclosedResolver : Resolver := fun q =>
  if q.uri = "b" then some ⟨"# c\nk == \nx".toUTF8, ⟨0, "b"⟩, 0⟩ else none

/-- The error names the second line of the ancestor. -/
theorem error_position_unclosed :
    (parse ⟨unclosedResolver, [], 64, true⟩ ⟨"extends = b".toUTF8, ⟨0, "a"⟩, 0⟩).result =
      .error (.line ⟨⟨0, "b"⟩, "k ==", 2⟩ .unclosed) ∧
    ∃ edges ctx contents, Opens (contextOf ⟨unclosedResolver, [], 64, true⟩
        ⟨"extends = b".toUTF8, ⟨0, "a"⟩, 0⟩) "extends = b".toUTF8 edges ctx contents ∧
      ctx.path = ⟨0, "b"⟩ ∧
      ∃ text before raw after, String.fromUTF8? contents = some text ∧
        Text.physicalLines text.toList = before ++ raw :: after ∧ before.length = 1 ∧
        String.ofList (Text.trimmed raw) = "k ==" := by
  have h : (parse ⟨unclosedResolver, [], 64, true⟩
      ⟨"extends = b".toUTF8, ⟨0, "a"⟩, 0⟩).result =
      .error (.line ⟨⟨0, "b"⟩, "k ==", 2⟩ .unclosed) := rfl
  obtain ⟨edges, ctx, contents, text, before, raw, after, doc, hopen, -, hpath, -, -, htext,
    hlines, hnumber, hline, -, -⟩ := error_position _ _ _ _ h
  exact ⟨h, edges, ctx, contents, hopen, hpath.symm, text, before, raw, after, htext, hlines,
    (Nat.succ.inj hnumber).symm, hline.symm⟩

end ExerciseDoc.Parse
