/-!
# Text — reading from the front

A reader takes what it reads off the front of a text and hands back the rest, or
refuses. The notations of this library are all read in this way: the literals
behind a key, JSON, and the parts of a line.
-/

namespace ExerciseDoc.Text

/-- What stands in front of a text, and the text behind it. -/
abbrev Reader (α : Type) := List Char → Option (α × List Char)

/-! ## Latin letters and digits -/

def isLetter (c : Char) : Bool :=
  ('a' ≤ c && c ≤ 'z') || ('A' ≤ c && c ≤ 'Z')

def isDigit (c : Char) : Bool :=
  '0' ≤ c && c ≤ '9'

/-! ## Runs -/

/-- The run of digits in front, perhaps empty, and what follows it. -/
def digits (cs : List Char) : List Char × List Char :=
  (cs.takeWhile isDigit, cs.dropWhile isDigit)

/-- A character that fits `first` and the run of characters behind it that fit
`more`, and what follows them. -/
def run (first more : Char → Bool) : Reader (List Char)
  | c :: cs => if first c then some (c :: cs.takeWhile more, cs.dropWhile more) else none
  | [] => none

theorem digits_append (cs : List Char) : (digits cs).1 ++ (digits cs).2 = cs :=
  List.takeWhile_append_dropWhile

theorem append_of_run {first more : Char → Bool} {cs word rest : List Char}
    (h : run first more cs = some (word, rest)) : word ++ rest = cs := by
  cases cs with
  | nil => simp [run] at h
  | cons c cs =>
    by_cases hc : first c
    · simp only [run, hc, if_true, Option.some.injEq, Prod.mk.injEq] at h
      obtain ⟨rfl, rfl⟩ := h
      simp [List.takeWhile_append_dropWhile]
    · simp [run, hc] at h

end ExerciseDoc.Text
