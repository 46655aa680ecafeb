/-!
# Text — physical lines and separated fields

`physicalLines` cuts a text after every line feed, so the pieces put together
are the text again (`flatten_physicalLines`). `lineBody` is a line without its
terminator, a line feed or a carriage return and a line feed. `splitOn` cuts at
a separator and drops it; `joinWith` puts it back (`joinWith_splitOn`).
-/

namespace ExerciseDoc.Text

/-! ## Lines -/

/-- The lines of a text, each with its terminator. -/
def physicalLines : List Char → List (List Char)
  | [] => []
  | c :: cs =>
    if c = '\n' then [c] :: physicalLines cs
    else
      match physicalLines cs with
      | [] => [[c]]
      | line :: rest => (c :: line) :: rest

theorem flatten_physicalLines (cs : List Char) : (physicalLines cs).flatten = cs := by
  induction cs with
  | nil => rfl
  | cons c cs ih =>
    by_cases hc : c = '\n'
    · simp [physicalLines, hc, ih]
    · cases hl : physicalLines cs with
      | nil => simp [physicalLines, hc, hl] at ih ⊢; exact ih
      | cons line rest => simp [physicalLines, hc, hl] at ih ⊢; exact ih

/-- The text without one final `c`, if it has one. -/
def dropFinal (c : Char) (cs : List Char) : List Char :=
  if cs.getLast? = some c then cs.dropLast else cs

/-- A line without one final line feed and then one final carriage return. -/
def lineBody (raw : List Char) : List Char :=
  dropFinal '\r' (dropFinal '\n' raw)

/-- A block of lines without the terminator of its last line. A carriage return
is part of a terminator only in front of a line feed. -/
def blockBody (raw : List Char) : List Char :=
  if raw.getLast? = some '\n' then dropFinal '\r' raw.dropLast else raw

/-! ## Fields -/

/-- The fields of a text between the occurrences of `sep`; a text without `sep`
is one field. -/
def splitOn (sep : Char) : List Char → List (List Char)
  | [] => [[]]
  | c :: cs =>
    if c = sep then [] :: splitOn sep cs
    else
      match splitOn sep cs with
      | [] => [[c]]
      | field :: rest => (c :: field) :: rest

/-- The fields in one text, `sep` between neighbours. -/
def joinWith (sep : Char) : List (List Char) → List Char
  | [] => []
  | [field] => field
  | field :: rest => field ++ sep :: joinWith sep rest

theorem splitOn_ne_nil (sep : Char) (cs : List Char) : splitOn sep cs ≠ [] := by
  cases cs with
  | nil => simp [splitOn]
  | cons c cs =>
    by_cases hc : c = sep
    · simp [splitOn, hc]
    · simp only [splitOn, hc, if_false]
      split <;> simp

private theorem joinWith_cons_cons (sep c : Char) (field : List Char)
    (rest : List (List Char)) :
    joinWith sep ((c :: field) :: rest) = c :: joinWith sep (field :: rest) := by
  cases rest <;> simp [joinWith]

theorem joinWith_splitOn (sep : Char) (cs : List Char) :
    joinWith sep (splitOn sep cs) = cs := by
  induction cs with
  | nil => rfl
  | cons c cs ih =>
    cases hs : splitOn sep cs with
    | nil => exact absurd hs (splitOn_ne_nil sep cs)
    | cons field rest =>
      by_cases hc : c = sep
      · simp only [splitOn, hc, if_true, hs, joinWith, List.nil_append]
        rw [← hs, ih]
      · simp only [splitOn, hc, if_false, hs, joinWith_cons_cons]
        rw [← hs, ih]

end ExerciseDoc.Text
