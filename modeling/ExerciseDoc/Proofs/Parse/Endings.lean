import ExerciseDoc.Proofs.Json.Endings
import ExerciseDoc.Proofs.Parse.Block

/-!
# Parse — line endings

A text is parsed to the same result with a carriage return in front of every line feed, as
long as no line ending inside a block counts (`parse_crlf`). It counts in a block of two
lines or more whose text is stored as it is; a JSON block may have any number of lines.
-/

namespace ExerciseDoc.Parse

open Text (crlf PlainLine)

/-! ## Blocks in which line endings do not count -/

/-- Every block that the lines close has at most one line, unless it is a JSON block. Of a
block that is open in front of them, the operator and the number of lines are given. -/
def shortBlocks : Option (Operator × Nat) → List (List Char) → Bool
  | _, [] => true
  | none, raw :: rest =>
    match Line.classify (Text.lineBody raw) with
    | some (.openBlock _ op) => shortBlocks (some (op, 0)) rest
    | _ => shortBlocks none rest
  | some (op, length), raw :: rest =>
    if Line.closesBlock (Text.lineBody raw) then
      (op == .json || length ≤ 1) && shortBlocks none rest
    else shortBlocks (some (op, length + 1)) rest

/-- What a short block or a JSON block stores does not depend on its line endings. -/
theorem storeBlock_crlf (doc : Document) (key : String) (op : Operator) (place : Place)
    {body : List (List Char)} (hbody : ∀ raw ∈ body, PlainLine raw)
    (hshort : op = .json ∨ body.length ≤ 1) :
    storeBlock doc ⟨key, op, String.ofList (crlf body.flatten), place⟩ =
      storeBlock doc ⟨key, op, String.ofList body.flatten, place⟩ := by
  simp only [storeBlock, String.toList_ofList]
  rcases hshort with rfl | hlength
  · -- The value of a JSON text is the same.
    have hreturn : '\r' ∉ body.flatten := by
      intro hmem
      obtain ⟨raw, hraw, hmem⟩ := List.mem_flatten.mp hmem
      exact (hbody raw hraw).not_mem_return hmem
    simp only [storeText, storeJson, Json.ofText?, String.toList_ofList,
      Text.blockBody_crlf hreturn, Json.read?_crlf]
  · have hcontent : Text.blockBody (crlf body.flatten) = Text.blockBody body.flatten := by
      cases body with
      | nil => rfl
      | cons raw rest =>
          obtain rfl : rest = [] := List.eq_nil_of_length_eq_zero (Nat.le_zero.mp
            (Nat.le_of_succ_le_succ hlength))
          rw [List.flatten_singleton]
          exact (hbody raw List.mem_cons_self).blockBody_crlf
    rw [hcontent]

/-! ## States side by side -/

/-- The states of two parses that differ in line endings alone: they have one document, and
in an open block the same lines with their own endings. The operator of the block and the
number of its lines are given. -/
inductive Twins : Option (Operator × Nat) → State → State → Prop where
  | idle {doc : Document} : Twins none ⟨doc, none⟩ ⟨doc, none⟩
  | inside {doc : Document} {key : String} {op : Operator} {place : Place}
      {body : List (List Char)} : (∀ raw ∈ body, PlainLine raw) →
      Twins (some (op, body.length)) ⟨doc, some ⟨key, op, String.ofList body.flatten, place⟩⟩
        ⟨doc, some ⟨key, op, String.ofList (crlf body.flatten), place⟩⟩

theorem conclude_twins {settings : Settings} {pending : Option (Operator × Nat)}
    {s s' : State} (h : Twins pending s s') : conclude settings s' = conclude settings s := by
  cases h with
  | idle => rfl
  | inside _ => rfl

/-- **Lines with other endings.** From states that differ in line endings alone, lines that
differ in line endings alone come to one result. -/
theorem steps_crlf (f : Location → Run Document) (ctx : Context) (settings : Settings)
    {pending : Option (Operator × Nat)} {lines : List (List Char)} {s s' : State}
    (number : Nat) (h : Twins pending s s') (hshort : shortBlocks pending lines)
    (hlines : ∀ raw ∈ lines, PlainLine raw) :
    Run.bind (steps f ctx s' number (lines.map crlf)) (conclude settings) =
      Run.bind (steps f ctx s number lines) (conclude settings) := by
  induction lines generalizing pending s s' number with
  | nil =>
      simp only [List.map_nil, steps, Run.ok_bind]
      exact conclude_twins h
  | cons raw rest ih =>
      have hraw : PlainLine raw := hlines raw List.mem_cons_self
      have hrest : ∀ raw ∈ rest, PlainLine raw :=
        fun raw hraw => hlines raw (List.mem_cons_of_mem _ hraw)
      rw [List.map_cons, steps, steps, Run.bind_assoc, Run.bind_assoc]
      cases h with
      | @idle doc =>
          rw [shortBlocks] at hshort
          simp only [step, hraw.lineBody_crlf]
          split
          · simp only [Run.error_bind]
          · rename_i key op hshape
            simp only [hshape] at hshort
            simp only [Run.ok_bind]
            exact ih (number + 1)
              (@Twins.inside doc key op _ [] (List.forall_mem_nil _)) hshort hrest
          · rename_i directive hnoblock hshape
            have hshort : shortBlocks none rest := by
              rw [hshape] at hshort
              split at hshort
              · rename_i key op hopens
                cases hopens
                exact absurd rfl (hnoblock key op)
              · exact hshort
            simp only [Run.bind_assoc, Run.ok_bind]
            congr 1
            funext doc
            exact ih (number + 1) .idle hshort hrest
      | @inside doc key op place body hbody =>
          rw [shortBlocks] at hshort
          simp only [step, hraw.lineBody_crlf]
          split
          · rename_i hcloses
            rw [if_pos hcloses, Bool.and_eq_true, Bool.or_eq_true, beq_iff_eq,
              decide_eq_true_eq] at hshort
            simp only [storeBlock_crlf doc key op place hbody hshort.1, Run.bind_assoc,
              Run.ok_bind]
            congr 1
            funext doc
            exact ih (number + 1) .idle hshort.2 hrest
          · rename_i hopen
            rw [if_neg hopen] at hshort
            simp only [Run.ok_bind, ← String.ofList_append]
            have hbody' : ∀ line ∈ body ++ [raw], PlainLine line := by
              intro line hline
              rcases List.mem_append.mp hline with hline | hline
              · exact hbody line hline
              · rw [List.mem_singleton.mp hline]
                exact hraw
            have htwins := @Twins.inside doc key op place (body ++ [raw]) hbody'
            simp only [List.length_append, List.length_singleton, List.flatten_append,
              List.flatten_singleton, Text.crlf_append] at htwins
            exact ih (number + 1) htwins hshort hrest

/-! ## Whole parses -/

/-- **Line endings.** Let a text have no carriage return, and let every block that it closes
have at most one line, unless it is a JSON block. With a carriage return in front of every
line feed it is parsed to the same result, with the same requests to the resolver. -/
theorem parse_crlf (settings : Settings) (path : FullPath) (circleId : Int) (text : String)
    (hreturn : '\r' ∉ text.toList) (hshort : shortBlocks none (Text.physicalLines text.toList)) :
    parse settings ⟨(String.ofList (crlf text.toList)).toUTF8, path, circleId⟩ =
      parse settings ⟨text.toUTF8, path, circleId⟩ := by
  rw [parse_text (fromUTF8?_toUTF8 _), parse_text (fromUTF8?_toUTF8 _), String.toList_ofList,
    Text.physicalLines_crlf]
  exact steps_crlf _ _ settings 1 .idle hshort fun raw hraw => Text.plainLine_of_mem hraw hreturn

/-! A block of one line that looks like a directive, a JSON block of three, and an ancestor. -/

def feedsText : String :=
  "extends = b\ns ==\nt = 1\n==\nk %=\n[1,\n\n\"2\"]\n==\n# c\n"

/-- The same data come from the text with both endings. -/
theorem parse_crlf_feeds :
    let settings : Settings :=
      ⟨fun _ => some ⟨"t = 2".toUTF8, ⟨0, "b"⟩, 0⟩, [], 64, false⟩
    parse settings ⟨(String.ofList (crlf feedsText.toList)).toUTF8, ⟨0, "a"⟩, 0⟩ =
        parse settings ⟨feedsText.toUTF8, ⟨0, "a"⟩, 0⟩ ∧
      (parse settings ⟨feedsText.toUTF8, ⟨0, "a"⟩, 0⟩).result.toOption.map
        (fun doc => doc.data.map (·.1)) = some ["k", "s", "t"] := by
  intro settings
  refine ⟨parse_crlf settings ⟨0, "a"⟩ 0 feedsText (by decide) (by decide +kernel), ?_⟩
  decide +kernel

end ExerciseDoc.Parse
