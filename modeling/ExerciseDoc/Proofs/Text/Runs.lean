import ExerciseDoc.Text.Blank
import ExerciseDoc.Text.Reader
import Mathlib.Data.List.TakeWhile

/-!
# Text — runs and where they stop

What is taken off the front of a text when a run of characters is read or blanks are
skipped. A run goes on as long as its characters do, so it is found in front of a text
that `Stops` it, and nowhere else (`run_eq_some`, `dropBlanks_eq`).
-/

namespace ExerciseDoc.Text

variable {p first more : Char → Bool} {c : Char} {cs rest word w : List Char}

/-- The text does not go on with a character that fits `p`. -/
def Stops (p : Char → Bool) (cs : List Char) : Prop :=
  ∀ c, cs.head? = some c → p c = false

@[simp] theorem stops_nil : Stops p [] := by
  intro c h
  cases h

@[simp] theorem stops_cons : Stops p (c :: cs) ↔ p c = false := by
  simp [Stops]

theorem Stops.append (hw : ∀ c ∈ w, p c = false) (hrest : Stops p rest) :
    Stops p (w ++ rest) := by
  cases w with
  | nil => exact hrest
  | cons c cs => exact stops_cons.mpr (hw c List.mem_cons_self)

theorem Stops.of_append (h : Stops p (word ++ rest)) : Stops p word := by
  cases word with
  | nil => exact stops_nil
  | cons c cs => exact stops_cons.mpr (stops_cons.mp h)

/-- A text does not start with a character that fits `p` if its characters rule that
out. -/
theorem stops_append_of_disjoint {q : Char → Bool} (hne : word ≠ [])
    (hword : ∀ c ∈ word, q c) (hpq : ∀ c ∈ word, p c → q c = false) :
    Stops p (word ++ rest) := by
  cases word with
  | nil => exact absurd rfl hne
  | cons c cs =>
      refine stops_cons.mpr (Bool.eq_false_iff.mpr fun hp => ?_)
      have hq := hpq c List.mem_cons_self hp
      rw [hword c List.mem_cons_self] at hq
      cases hq

/-! ## Runs of one class -/

theorem stops_dropWhile (p : Char → Bool) (cs : List Char) : Stops p (cs.dropWhile p) := by
  intro c hc
  have h := List.head?_dropWhile_not p cs
  rw [hc] at h
  exact h

theorem takeWhile_of_stops (h : Stops p cs) : cs.takeWhile p = [] := by
  cases cs with
  | nil => rfl
  | cons c rest => rw [List.takeWhile_cons, if_neg (Bool.eq_false_iff.mp (stops_cons.mp h))]

theorem dropWhile_of_stops (h : Stops p cs) : cs.dropWhile p = cs := by
  cases cs with
  | nil => rfl
  | cons c rest => rw [List.dropWhile_cons, if_neg (Bool.eq_false_iff.mp (stops_cons.mp h))]

theorem takeWhile_append (hword : ∀ c ∈ word, p c) (hrest : Stops p rest) :
    (word ++ rest).takeWhile p = word := by
  rw [List.takeWhile_append_of_pos hword, takeWhile_of_stops hrest, List.append_nil]

theorem dropWhile_append (hword : ∀ c ∈ word, p c) (hrest : Stops p rest) :
    (word ++ rest).dropWhile p = rest := by
  rw [List.dropWhile_append_of_pos hword, dropWhile_of_stops hrest]

/-! ## Words -/

/-- A character that fits `first` and characters that fit `more`. -/
def IsRun (first more : Char → Bool) (word : List Char) : Prop :=
  ∃ c cs, word = c :: cs ∧ first c ∧ ∀ d ∈ cs, more d

theorem IsRun.ne_nil (h : IsRun first more word) : word ≠ [] := by
  obtain ⟨c, cs, rfl, -⟩ := h
  exact List.cons_ne_nil c cs

theorem IsRun.forall (h : IsRun first more word) (hfirst : ∀ c, first c → more c) :
    ∀ c ∈ word, more c := by
  obtain ⟨c, cs, rfl, hc, hcs⟩ := h
  exact List.forall_mem_cons.mpr ⟨hfirst c hc, hcs⟩

/-- A run is read off the front of a text that stops it. -/
theorem run_eq_some : run first more cs = some (word, rest) ↔
    cs = word ++ rest ∧ IsRun first more word ∧ Stops more rest := by
  constructor
  · intro h
    refine ⟨(append_of_run h).symm, ?_⟩
    cases cs with
    | nil => cases h
    | cons c tail =>
        rw [run] at h
        split at h
        · rename_i hc
          cases h
          exact ⟨⟨c, _, rfl, hc, fun _ => List.mem_takeWhile_imp⟩, stops_dropWhile more tail⟩
        · cases h
  · rintro ⟨rfl, ⟨c, tail, rfl, hc, htail⟩, hrest⟩
    rw [List.cons_append, run, if_pos hc, takeWhile_append htail hrest,
      dropWhile_append htail hrest]

/-! ## Blanks -/

/-- A run of blanks, perhaps empty. -/
def Blanks (w : List Char) : Prop :=
  ∀ c ∈ w, isBlank c

theorem blanks_nil : Blanks [] :=
  List.forall_mem_nil _

theorem blanks_space : Blanks [' '] :=
  List.forall_mem_singleton.mpr rfl

/-- Blanks are skipped up to a text that starts with none. -/
theorem dropBlanks_eq : dropBlanks cs = rest ↔
    ∃ w, cs = w ++ rest ∧ Blanks w ∧ Stops isBlank rest := by
  constructor
  · rintro rfl
    exact ⟨cs.takeWhile isBlank, List.takeWhile_append_dropWhile.symm,
      fun _ => List.mem_takeWhile_imp, stops_dropWhile isBlank cs⟩
  · rintro ⟨w, rfl, hw, hrest⟩
    exact dropWhile_append hw hrest

theorem exists_dropBlanks (cs : List Char) :
    ∃ w, cs = w ++ dropBlanks cs ∧ Blanks w ∧ Stops isBlank (dropBlanks cs) :=
  dropBlanks_eq.mp rfl

theorem not_mem_dropBlanks (h : c ∉ cs) : c ∉ dropBlanks cs :=
  fun hmem => h ((List.dropWhile_sublist _).subset hmem)

theorem dropBlanks_append (hw : Blanks w) (hrest : Stops isBlank rest) :
    dropBlanks (w ++ rest) = rest :=
  dropBlanks_eq.mpr ⟨w, rfl, hw, hrest⟩

theorem allBlank_iff : allBlank cs ↔ Blanks cs :=
  List.all_eq_true

theorem dropBlanks_eq_nil : dropBlanks cs = [] ↔ Blanks cs :=
  List.dropWhile_eq_nil_iff

/-- Blanks are skipped back from a text that ends with none. -/
theorem dropBlanksEnd_eq : dropBlanksEnd cs = word ↔
    ∃ w, cs = word ++ w ∧ Blanks w ∧ Stops isBlank word.reverse := by
  have hreverse : dropBlanksEnd cs = word ↔ dropBlanks cs.reverse = word.reverse :=
    List.reverse_eq_iff
  rw [hreverse, dropBlanks_eq]
  constructor
  · rintro ⟨w, hw, hblanks, hstops⟩
    refine ⟨w.reverse, ?_, fun c hc => hblanks c (List.mem_reverse.mp hc), hstops⟩
    rw [← List.reverse_reverse cs, hw, List.reverse_append, List.reverse_reverse]
  · rintro ⟨w, rfl, hblanks, hstops⟩
    exact ⟨w.reverse, List.reverse_append, fun c hc => hblanks c (List.mem_reverse.mp hc),
      hstops⟩

theorem trimmed_of_stops (hfront : Stops isBlank cs) (hback : Stops isBlank cs.reverse) :
    trimmed cs = cs := by
  have hdrop : dropBlanks cs = cs := dropBlanks_append blanks_nil hfront
  rw [trimmed, hdrop]
  exact dropBlanksEnd_eq.mpr ⟨[], (List.append_nil cs).symm, blanks_nil, hback⟩

/-- A text that ends with no blank does not end with one of them. -/
theorem getLast?_ne_of_stops (hc : isBlank c) (hback : Stops isBlank cs.reverse) :
    cs.getLast? ≠ some c := by
  intro hlast
  rw [hback c (by rw [List.head?_reverse, hlast])] at hc
  cases hc

end ExerciseDoc.Text
