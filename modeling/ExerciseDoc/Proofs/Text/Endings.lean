import ExerciseDoc.Proofs.Text.Lines

/-!
# Text — line endings

`crlf` puts a carriage return in front of every line feed. The lines of the text stay where
they are (`physicalLines_crlf`), and without their terminators they are the same, unless one
had a carriage return at its end already (`PlainLine.lineBody_crlf`). A block of lines keeps
the carriage returns of all lines but the last (`blockBody_crlf`).
-/

namespace ExerciseDoc.Text

/-- The text with a carriage return in front of every line feed. -/
def crlf (cs : List Char) : List Char :=
  cs.flatMap fun c => if c = '\n' then ['\r', '\n'] else [c]

variable {c : Char} {cs : List Char}

@[simp] theorem crlf_nil : crlf [] = [] :=
  rfl

@[simp] theorem crlf_cons_feed (cs : List Char) : crlf ('\n' :: cs) = '\r' :: '\n' :: crlf cs :=
  rfl

theorem crlf_cons (h : c ≠ '\n') (cs : List Char) : crlf (c :: cs) = c :: crlf cs := by
  rw [crlf, List.flatMap_cons, if_neg h]
  rfl

theorem crlf_append (cs ds : List Char) : crlf (cs ++ ds) = crlf cs ++ crlf ds :=
  List.flatMap_append

theorem crlf_of_not_mem (h : '\n' ∉ cs) : crlf cs = cs := by
  induction cs with
  | nil => rfl
  | cons c rest ih =>
      rw [List.mem_cons, not_or] at h
      rw [crlf_cons (fun hc => h.1 hc.symm), ih h.2]

theorem length_le_crlf (cs : List Char) : cs.length ≤ (crlf cs).length := by
  induction cs with
  | nil => exact Nat.le_refl _
  | cons c rest ih =>
      by_cases hc : c = '\n'
      · subst hc
        simp only [crlf_cons_feed, List.length_cons]
        omega
      · rw [crlf_cons hc, List.length_cons, List.length_cons]
        exact Nat.succ_le_succ ih

/-! ## Runs -/

variable {p : Char → Bool}

theorem dropWhile_crlf (h : p '\r' = p '\n') (cs : List Char) :
    (crlf cs).dropWhile p = crlf (cs.dropWhile p) := by
  induction cs with
  | nil => rfl
  | cons c rest ih =>
      by_cases hc : c = '\n'
      · subst hc
        rw [crlf_cons_feed, List.dropWhile_cons, List.dropWhile_cons, List.dropWhile_cons, h]
        split
        · exact ih
        · rfl
      · rw [crlf_cons hc, List.dropWhile_cons, List.dropWhile_cons]
        split
        · exact ih
        · rw [crlf_cons hc]

theorem takeWhile_crlf (hreturn : p '\r' = false) (hfeed : p '\n' = false) (cs : List Char) :
    (crlf cs).takeWhile p = cs.takeWhile p := by
  induction cs with
  | nil => rfl
  | cons c rest ih =>
      by_cases hc : c = '\n'
      · subst hc
        simp [hreturn, hfeed]
      · rw [crlf_cons hc, List.takeWhile_cons, List.takeWhile_cons, ih]

/-- A class that makes no difference between the two characters of a line ending has all
characters of a text exactly if it has all with any line endings. -/
theorem all_crlf (h : p '\r' = p '\n') (cs : List Char) : (crlf cs).all p = cs.all p := by
  induction cs with
  | nil => rfl
  | cons c rest ih =>
      by_cases hc : c = '\n'
      · subst hc
        rw [crlf_cons_feed, List.all_cons, List.all_cons, List.all_cons, ih, h]
        cases p '\n' <;> rfl
      · rw [crlf_cons hc, List.all_cons, List.all_cons, ih]

/-- What is in front of a text without control characters is also in front of it with other
line endings. -/
theorem exists_of_crlf_eq_append {front rest : List Char} (hreturn : '\r' ∉ front)
    (h : crlf cs = front ++ rest) : ∃ behind, cs = front ++ behind ∧ rest = crlf behind := by
  induction front generalizing cs with
  | nil => exact ⟨cs, rfl, h.symm⟩
  | cons c others ih =>
      rw [List.mem_cons, not_or] at hreturn
      cases cs with
      | nil => cases h
      | cons d tail =>
          by_cases hd : d = '\n'
          · subst hd
            rw [crlf_cons_feed] at h
            exact absurd (List.cons.inj h).1 hreturn.1
          · rw [crlf_cons hd] at h
            obtain ⟨rfl, htail⟩ := List.cons.inj h
            obtain ⟨behind, rfl, hrest⟩ := ih hreturn.2 htail
            exact ⟨behind, rfl, hrest⟩

/-! ## Lines -/

theorem physicalLines_crlf (cs : List Char) :
    physicalLines (crlf cs) = (physicalLines cs).map crlf := by
  induction cs with
  | nil => rfl
  | cons c rest ih =>
      by_cases hc : c = '\n'
      · subst hc
        rw [crlf_cons_feed, physicalLines, if_neg (by decide), physicalLines, if_pos rfl,
          physicalLines, if_pos rfl, ih]
        rfl
      · rw [crlf_cons hc, physicalLines, if_neg hc, physicalLines, if_neg hc, ih]
        cases physicalLines rest with
        | nil => rw [List.map_nil, List.map_singleton, crlf_cons hc, crlf_nil]
        | cons line others => rw [List.map_cons, List.map_cons, crlf_cons hc]

/-- A line without a carriage return, and without a line feed but for one at its end. -/
def PlainLine (raw : List Char) : Prop :=
  ∃ front, '\r' ∉ front ∧ '\n' ∉ front ∧ (raw = front ∨ raw = front ++ ['\n'])

theorem plainLine_of_mem {raw : List Char} (h : raw ∈ physicalLines cs) (hreturn : '\r' ∉ cs) :
    PlainLine raw := by
  induction cs generalizing raw with
  | nil => cases h
  | cons c rest ih =>
      rw [List.mem_cons, not_or] at hreturn
      rw [physicalLines] at h
      split at h
      · rename_i hc
        rcases List.mem_cons.mp h with rfl | hrest
        · exact ⟨[], List.not_mem_nil, List.not_mem_nil, .inr (by rw [hc, List.nil_append])⟩
        · exact ih hrest hreturn.2
      · rename_i hc
        split at h
        · rw [List.mem_singleton] at h
          exact ⟨[c], by simpa using hreturn.1, by simpa using Ne.symm hc, .inl h⟩
        · rename_i line others hlines
          rcases List.mem_cons.mp h with rfl | hothers
          · -- The first character belongs to the line that the rest starts with.
            obtain ⟨front, hfront, hfront', hline⟩ :=
              ih (hlines ▸ List.mem_cons_self) hreturn.2
            refine ⟨c :: front, ?_, ?_, ?_⟩
            · rw [List.mem_cons, not_or]
              exact ⟨hreturn.1, hfront⟩
            · rw [List.mem_cons, not_or]
              exact ⟨Ne.symm hc, hfront'⟩
            · rcases hline with rfl | rfl
              · exact .inl rfl
              · exact .inr rfl
          · exact ih (hlines ▸ List.mem_cons_of_mem _ hothers) hreturn.2

theorem PlainLine.not_mem_return {raw : List Char} (h : PlainLine raw) : '\r' ∉ raw := by
  obtain ⟨front, hfront, -, rfl | rfl⟩ := h
  · exact hfront
  · simpa using hfront

theorem PlainLine.lineBody_crlf {raw : List Char} (h : PlainLine raw) :
    lineBody (crlf raw) = lineBody raw := by
  obtain ⟨front, hreturn, hfeed, rfl | rfl⟩ := h
  · rw [crlf_of_not_mem hfeed]
  · have hlast : front.getLast? ≠ some '\r' := fun hlast => hreturn (List.mem_of_getLast? hlast)
    rw [crlf_append, crlf_of_not_mem hfeed, lineBody_append_feed hfeed,
      lineBody_of_not_mem hfeed hlast]
    simp [crlf, lineBody, dropFinal]

/-- A block of one line is the same without its terminator. -/
theorem PlainLine.blockBody_crlf {raw : List Char} (h : PlainLine raw) :
    blockBody (crlf raw) = blockBody raw := by
  obtain ⟨front, hreturn, hfeed, rfl | rfl⟩ := h
  · rw [crlf_of_not_mem hfeed]
  · have hlast : front.getLast? ≠ some '\r' := fun hlast => hreturn (List.mem_of_getLast? hlast)
    rw [crlf_append, crlf_of_not_mem hfeed, blockBody_line hlast]
    simp [crlf, blockBody, dropFinal]

theorem blockBody_crlf (hreturn : '\r' ∉ cs) : blockBody (crlf cs) = crlf (blockBody cs) := by
  rcases List.eq_nil_or_concat cs with rfl | ⟨front, c, rfl⟩
  · rfl
  · rw [List.concat_eq_append] at hreturn ⊢
    have hlast : front.getLast? ≠ some '\r' := fun hlast =>
      hreturn (List.mem_append_left _ (List.mem_of_getLast? hlast))
    by_cases hc : c = '\n'
    · subst hc
      rw [blockBody_line hlast, crlf_append]
      simp [crlf, blockBody, dropFinal]
    · have hend : (crlf (front ++ [c])).getLast? ≠ some '\n' := by
        rw [crlf_append, crlf_cons hc]
        simpa using hc
      rw [blockBody, if_neg hend, blockBody, if_neg (by simpa using hc)]

end ExerciseDoc.Text
