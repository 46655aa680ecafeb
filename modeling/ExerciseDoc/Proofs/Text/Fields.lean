import ExerciseDoc.Text.Lines

/-!
# Text — fields and their separator

A text has its fields back (`joinWith_splitOn`), and fields that do not contain the
separator are the fields of the text that they are joined to (`splitOn_joinWith`).
Around a separator the fields of two texts stand side by side (`splitOn_append_sep`), so
the last field is what stands behind the last separator (`getLast?_splitOn_iff`).
-/

namespace ExerciseDoc.Text

variable {sep c : Char} {cs field : List Char} {fields : List (List Char)}

theorem splitOn_cons_of_ne (hc : c ≠ sep) (h : splitOn sep cs = field :: fields) :
    splitOn sep (c :: cs) = (c :: field) :: fields := by
  rw [splitOn, if_neg hc, h]

theorem splitOn_append_sep (sep : Char) (cs ds : List Char) :
    splitOn sep (cs ++ sep :: ds) = splitOn sep cs ++ splitOn sep ds := by
  induction cs with
  | nil => simp [splitOn]
  | cons c rest ih =>
      by_cases hc : c = sep
      · rw [List.cons_append, splitOn, splitOn, if_pos hc, if_pos hc, ih, List.cons_append]
      · cases hs : splitOn sep rest with
        | nil => exact absurd hs (splitOn_ne_nil sep rest)
        | cons field fields =>
            rw [hs] at ih
            rw [splitOn_cons_of_ne hc hs, List.cons_append]
            exact splitOn_cons_of_ne hc ih

theorem splitOn_of_not_mem (h : sep ∉ cs) : splitOn sep cs = [cs] := by
  induction cs with
  | nil => rfl
  | cons c rest ih =>
      obtain ⟨hc, hrest⟩ := List.ne_and_not_mem_of_not_mem_cons h
      exact splitOn_cons_of_ne (Ne.symm hc) (ih hrest)

theorem not_mem_of_mem_splitOn (h : field ∈ splitOn sep cs) : sep ∉ field := by
  induction cs generalizing field with
  | nil =>
      cases List.mem_singleton.mp h
      exact List.not_mem_nil
  | cons c rest ih =>
      by_cases hc : c = sep
      · rw [splitOn, if_pos hc] at h
        rcases List.mem_cons.mp h with rfl | h
        · exact List.not_mem_nil
        · exact ih h
      · cases hs : splitOn sep rest with
        | nil => exact absurd hs (splitOn_ne_nil sep rest)
        | cons first fields =>
            rw [hs] at ih
            rw [splitOn_cons_of_ne hc hs] at h
            rcases List.mem_cons.mp h with rfl | h
            · exact List.not_mem_cons_of_ne_of_not_mem (Ne.symm hc) (ih List.mem_cons_self)
            · exact ih (List.mem_cons_of_mem _ h)

theorem joinWith_cons (sep : Char) (field : List Char) (h : fields ≠ []) :
    joinWith sep (field :: fields) = field ++ sep :: joinWith sep fields := by
  cases fields with
  | nil => exact absurd rfl h
  | cons next rest => rfl

/-- **Fields without the separator are the fields of their text.** -/
theorem splitOn_joinWith (hne : fields ≠ []) (h : ∀ field ∈ fields, sep ∉ field) :
    splitOn sep (joinWith sep fields) = fields := by
  induction fields with
  | nil => exact absurd rfl hne
  | cons field rest ih =>
      obtain ⟨hfield, hrest⟩ := List.forall_mem_cons.mp h
      by_cases hlast : rest = []
      · subst hlast
        exact splitOn_of_not_mem hfield
      · rw [joinWith_cons sep field hlast, splitOn_append_sep, splitOn_of_not_mem hfield,
          ih hlast hrest]
        rfl

/-! ## The last field -/

/-- What stands behind the last separator of a text, or the whole text if it has none. -/
def IsLastField (sep : Char) (cs field : List Char) : Prop :=
  sep ∉ field ∧ (cs = field ∨ ∃ front, cs = front ++ sep :: field)

theorem joinWith_concat (sep : Char) (h : fields ≠ []) (field : List Char) :
    joinWith sep (fields ++ [field]) = joinWith sep fields ++ sep :: field := by
  induction fields with
  | nil => exact absurd rfl h
  | cons first rest ih =>
      by_cases hrest : rest = []
      · subst hrest
        rfl
      · rw [List.cons_append, joinWith_cons sep first (by simp), ih hrest,
          joinWith_cons sep first hrest, List.append_assoc, List.cons_append]

theorem getLast?_splitOn_iff : (splitOn sep cs).getLast? = some field ↔
    IsLastField sep cs field := by
  constructor
  · intro h
    obtain ⟨front, hfields⟩ := List.getLast?_eq_some_iff.mp h
    have hcs := joinWith_splitOn sep cs
    refine ⟨not_mem_of_mem_splitOn (hfields ▸ List.mem_concat_self), ?_⟩
    rw [hfields] at hcs
    by_cases hfront : front = []
    · subst hfront
      exact .inl hcs.symm
    · rw [joinWith_concat sep hfront] at hcs
      exact .inr ⟨_, hcs.symm⟩
  · rintro ⟨hsep, rfl | ⟨front, rfl⟩⟩
    · rw [splitOn_of_not_mem hsep]
      rfl
    · rw [splitOn_append_sep, splitOn_of_not_mem hsep, List.getLast?_concat]

theorem exists_isLastField (sep : Char) (cs : List Char) : ∃ field, IsLastField sep cs field := by
  have hfields := List.getLast?_eq_some_getLast (splitOn_ne_nil sep cs)
  exact ⟨_, getLast?_splitOn_iff.mp hfields⟩

end ExerciseDoc.Text
