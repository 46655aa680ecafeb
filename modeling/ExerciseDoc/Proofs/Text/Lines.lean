import ExerciseDoc.Text.Blank
import ExerciseDoc.Text.Lines

/-!
# Text — texts of whole lines

A text is `Whole` if each of its lines has a terminator. Behind a whole text the lines
of another one follow unchanged (`physicalLines_append`). Any other text is a whole one
with a last line that has no terminator (`exists_whole_append`); `terminated` gives it
one, and the line says the same with it (`lineBody_append_feed`). The lines in front of
another line are a whole text (`getLast?_of_physicalLines`), and a block is such a text
without its last terminator (`Unterminated`). Without the blanks around it a line has no
terminator (`trimmed_lineBody`).
-/

namespace ExerciseDoc.Text

/-- The text is empty or ends with a line feed. -/
def Whole (cs : List Char) : Prop :=
  cs = [] ∨ cs.getLast? = some '\n'

/-- The text with a line feed at its end, added if there is none. -/
def terminated (text : String) : String :=
  if text.toList.getLast? = some '\n' then text else text ++ "\n"

/-! ## Lines of two texts -/

theorem whole_cons_feed {cs : List Char} (h : Whole cs) : Whole ('\n' :: cs) := by
  rcases h with rfl | h
  · exact .inr rfl
  · refine .inr ?_
    rw [List.getLast?_cons, h]
    rfl

theorem whole_concat_feed (cs : List Char) : Whole (cs ++ ['\n']) :=
  .inr List.getLast?_concat

/-- Without its first character a whole text is whole, and it goes on behind any but
a line feed. -/
theorem Whole.tail {c : Char} {cs : List Char} (h : Whole (c :: cs)) :
    Whole cs ∧ (c ≠ '\n' → cs ≠ []) := by
  rcases h with h | h
  · cases h
  · cases cs with
    | nil =>
        cases h
        exact ⟨.inl rfl, fun hc => absurd rfl hc⟩
    | cons d rest =>
        rw [List.getLast?_cons_cons] at h
        exact ⟨.inr h, fun _ => List.cons_ne_nil _ _⟩

theorem Whole.of_append {front cs : List Char} (h : Whole (front ++ cs)) : Whole cs := by
  induction front with
  | nil => exact h
  | cons c rest ih => exact ih h.tail.1

theorem physicalLines_ne_nil {cs : List Char} (h : cs ≠ []) : physicalLines cs ≠ [] := by
  intro hlines
  have hflat := flatten_physicalLines cs
  rw [hlines] at hflat
  exact h hflat.symm

/-- **Lines behind whole lines.** The lines of a text stay what they are behind a whole
text. -/
theorem physicalLines_append {cs : List Char} (h : Whole cs) (ds : List Char) :
    physicalLines (cs ++ ds) = physicalLines cs ++ physicalLines ds := by
  induction cs with
  | nil => rfl
  | cons c rest ih =>
      obtain ⟨hrest, hmore⟩ := h.tail
      have ih := ih hrest
      by_cases hc : c = '\n'
      · rw [List.cons_append, physicalLines, physicalLines, if_pos hc, if_pos hc, ih]
        rfl
      · -- The line goes on, so there are more lines to put its first character to.
        rw [List.cons_append, physicalLines, physicalLines, if_neg hc, if_neg hc, ih]
        cases hlines : physicalLines rest with
        | nil => exact absurd hlines (physicalLines_ne_nil (hmore hc))
        | cons line others => rfl

/-- A line that another one follows has its line feed. -/
theorem getLast?_of_physicalLines {cs : List Char} {before after : List (List Char)}
    (h : physicalLines cs = before ++ after) (hafter : after ≠ []) (hbefore : before ≠ []) :
    before.flatten.getLast? = some '\n' := by
  induction cs generalizing before with
  | nil => exact absurd (List.append_eq_nil_iff.mp h.symm).1 hbefore
  | cons c rest ih =>
      cases before with
      | nil => exact absurd rfl hbefore
      | cons first others =>
          rw [physicalLines] at h
          split at h
          · rename_i hc
            obtain ⟨rfl, hrest⟩ := List.cons.inj h
            by_cases hothers : others = []
            · simp [hothers, hc]
            · simp [List.getLast?_cons, ih hrest hothers]
          · split at h
            · obtain ⟨-, hrest⟩ := List.cons.inj h
              exact absurd (List.append_eq_nil_iff.mp hrest.symm).2 hafter
            · -- The first character belongs to the line that the rest starts with.
              rename_i line lines hlines
              obtain ⟨rfl, hrest⟩ := List.cons.inj h
              have hparted : physicalLines rest = (line :: others) ++ after := by
                rw [hlines, hrest]
                rfl
              have hlast := ih hparted (List.cons_ne_nil _ _)
              rw [List.flatten_cons] at hlast
              rw [List.flatten_cons, List.cons_append, List.getLast?_cons, hlast]
              rfl

/-! ## The last line -/

theorem exists_whole_append (cs : List Char) :
    ∃ front raw, cs = front ++ raw ∧ Whole front ∧ '\n' ∉ raw := by
  induction cs with
  | nil => exact ⟨[], [], rfl, .inl rfl, List.not_mem_nil⟩
  | cons c rest ih =>
      obtain ⟨front, raw, rfl, hfront, hraw⟩ := ih
      by_cases hc : c = '\n'
      · subst hc
        exact ⟨'\n' :: front, raw, rfl, whole_cons_feed hfront, hraw⟩
      · -- Without a whole line behind it, the character starts the last line.
        rcases hfront with rfl | hlast
        · refine ⟨[], c :: raw, rfl, .inl rfl, ?_⟩
          rw [List.mem_cons, not_or]
          exact ⟨fun h => hc h.symm, hraw⟩
        · refine ⟨c :: front, raw, rfl, .inr ?_, hraw⟩
          rw [List.getLast?_cons, hlast]
          rfl

theorem physicalLines_line {raw : List Char} (h : '\n' ∉ raw) :
    physicalLines (raw ++ ['\n']) = [raw ++ ['\n']] := by
  induction raw with
  | nil => rfl
  | cons c rest ih =>
      rw [List.mem_cons, not_or] at h
      rw [List.cons_append, physicalLines, if_neg (fun hc => h.1 hc.symm), ih h.2]

theorem physicalLines_of_not_mem {raw : List Char} (h : '\n' ∉ raw) (hne : raw ≠ []) :
    physicalLines raw = [raw] := by
  induction raw with
  | nil => exact absurd rfl hne
  | cons c rest ih =>
      rw [List.mem_cons, not_or] at h
      rw [physicalLines, if_neg (fun hc => h.1 hc.symm)]
      cases rest with
      | nil => rfl
      | cons d others => rw [ih h.2 (List.cons_ne_nil _ _)]

/-- A line feed at the end adds a line to the empty text, and the terminator of the last
line to a text that is not whole. -/
theorem physicalLines_terminated (text : String) :
    terminated text = text ∨
    (physicalLines text.toList = [] ∧
      physicalLines (terminated text).toList = [['\n']]) ∨
    ∃ before raw, '\n' ∉ raw ∧ physicalLines text.toList = before ++ [raw] ∧
      physicalLines (terminated text).toList = before ++ [raw ++ ['\n']] := by
  unfold terminated
  split
  · exact .inl rfl
  · rename_i hlast
    obtain ⟨front, raw, htext, hfront, hraw⟩ := exists_whole_append text.toList
    rw [String.toList_append, htext]
    rw [htext] at hlast
    by_cases hempty : raw = []
    · subst hempty
      rw [List.append_nil] at hlast ⊢
      rcases hfront with rfl | hfront
      · exact .inr (.inl ⟨rfl, rfl⟩)
      · exact absurd hfront hlast
    · refine .inr (.inr ⟨physicalLines front, raw, hraw, ?_, ?_⟩)
      · rw [physicalLines_append hfront, physicalLines_of_not_mem hraw hempty]
      · rw [List.append_assoc, physicalLines_append hfront]
        congr 1
        exact physicalLines_line hraw

theorem lineBody_append_feed {raw : List Char} (h : '\n' ∉ raw) :
    lineBody (raw ++ ['\n']) = lineBody raw := by
  have hlast : raw.getLast? ≠ some '\n' := fun hlast => h (List.mem_of_getLast? hlast)
  unfold lineBody
  congr 1
  rw [dropFinal, dropFinal, if_neg hlast, if_pos (by simp), List.dropLast_concat]

/-- A line is one line with its terminator, too, and says the same. -/
theorem terminated_line {line : String} (h : physicalLines line.toList = [line.toList]) :
    physicalLines (terminated line).toList = [(terminated line).toList] ∧
      lineBody (terminated line).toList = lineBody line.toList := by
  rcases physicalLines_terminated line with hsame | ⟨hempty, -⟩ |
    ⟨before, raw, hraw, hlines, hlines'⟩
  · rw [hsame]
    exact ⟨h, rfl⟩
  · rw [hempty] at h
    cases h
  · obtain ⟨rfl, rfl⟩ : before = [] ∧ raw = line.toList := by
      rw [h] at hlines
      cases before with
      | nil => simpa using hlines.symm
      | cons first others => simp at hlines
    have htext := flatten_physicalLines (terminated line).toList
    rw [hlines', List.nil_append, List.flatten_singleton] at htext
    rw [hlines', ← htext]
    exact ⟨rfl, lineBody_append_feed hraw⟩

theorem lineBody_of_not_mem {cs : List Char} (hfeed : '\n' ∉ cs)
    (hreturn : cs.getLast? ≠ some '\r') : lineBody cs = cs := by
  have hlast : cs.getLast? ≠ some '\n' := fun hlast => hfeed (List.mem_of_getLast? hlast)
  rw [lineBody, dropFinal, dropFinal, if_neg hlast, if_neg hreturn]

/-- A line with its line feed or without it. -/
theorem exists_physicalLines_line {cs text : List Char}
    (htext : text = cs ∨ text = cs ++ ['\n']) (hne : cs ≠ []) (hfeed : '\n' ∉ cs)
    (hreturn : cs.getLast? ≠ some '\r') :
    ∃ raw, physicalLines text = [raw] ∧ lineBody raw = cs := by
  rcases htext with rfl | rfl
  · exact ⟨text, physicalLines_of_not_mem hfeed hne, lineBody_of_not_mem hfeed hreturn⟩
  · exact ⟨cs ++ ['\n'], physicalLines_line hfeed,
      (lineBody_append_feed hfeed).trans (lineBody_of_not_mem hfeed hreturn)⟩

/-- A text of whole lines, and the same without the terminator of its last line: a line
feed, with the carriage return in front of it if there is one. -/
inductive Unterminated : List Char → List Char → Prop where
  | none : Unterminated [] []
  | feed {content : List Char} : content.getLast? ≠ some '\r' →
      Unterminated (content ++ ['\n']) content
  | returnFeed {content : List Char} : Unterminated (content ++ ['\r', '\n']) content

theorem unterminated_blockBody {raw : List Char} (h : Whole raw) :
    Unterminated raw (blockBody raw) := by
  rcases h with rfl | hlast
  · exact .none
  · obtain ⟨front, rfl⟩ := List.getLast?_eq_some_iff.mp hlast
    rw [blockBody, if_pos hlast, List.dropLast_concat, dropFinal]
    split
    · rename_i hreturn
      obtain ⟨content, rfl⟩ := List.getLast?_eq_some_iff.mp hreturn
      rw [List.dropLast_concat, List.append_assoc]
      exact .returnFeed
    · rename_i hreturn
      exact .feed hreturn

theorem blockBody_line {cs : List Char} (hreturn : cs.getLast? ≠ some '\r') :
    blockBody (cs ++ ['\n']) = cs := by
  rw [blockBody, if_pos (by simp), List.dropLast_concat, dropFinal, if_neg hreturn]

/-! ## Blanks at the end of a line -/

theorem trimmed_append_blank {c : Char} (h : isBlank c) (cs : List Char) :
    trimmed (cs ++ [c]) = trimmed cs := by
  unfold trimmed dropBlanks dropBlanksEnd
  rw [List.dropWhile_append]
  split
  · rename_i hblank
    rw [List.isEmpty_iff.mp hblank]
    simp [h]
  · simp [h]

theorem trimmed_dropFinal {c : Char} (h : isBlank c) (cs : List Char) :
    trimmed (dropFinal c cs) = trimmed cs := by
  unfold dropFinal
  split
  · rename_i hlast
    obtain ⟨front, rfl⟩ := List.getLast?_eq_some_iff.mp hlast
    rw [List.dropLast_concat, trimmed_append_blank h]
  · rfl

/-- A terminator is blank, so trimming takes it away too. -/
theorem trimmed_lineBody (raw : List Char) : trimmed (lineBody raw) = trimmed raw := by
  rw [lineBody, trimmed_dropFinal (by decide), trimmed_dropFinal (by decide)]

theorem whole_terminated (text : String) : Whole (terminated text).toList := by
  unfold terminated
  split
  · rename_i hlast
    exact .inr hlast
  · right
    simp

end ExerciseDoc.Text
