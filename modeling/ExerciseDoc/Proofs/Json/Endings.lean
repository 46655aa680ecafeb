import ExerciseDoc.Proofs.Json.Progress
import ExerciseDoc.Proofs.Text.Endings
import ExerciseDoc.Proofs.Text.Runs

/-!
# Json — line endings

A carriage return is a blank, and so is a line feed; neither can stand in a string, a number
or a word. A JSON text therefore is the same value, or none, with any line endings
(`read?_crlf`).
-/

namespace ExerciseDoc

open Text (Reader digits crlf crlf_cons crlf_append crlf_cons_feed crlf_nil)

/-- The reader finds the same with a carriage return in front of every line feed, and leaves
the rest with them. -/
def Text.IgnoresEndings {α : Type} (reader : Reader α) : Prop :=
  ∀ cs, reader (crlf cs) = (reader cs).map (Prod.map id crlf)

/-- What a reader finds has no line ending in it, and does not depend on what follows. -/
theorem Text.ignoresEndings_of_front {α : Type} {reader : Reader α}
    {P : List Char → α → Prop}
    (hreader : ∀ {cs a rest}, reader cs = some (a, rest) ↔
      ∃ front, cs = front ++ rest ∧ P front a)
    (hP : ∀ {front a}, P front a → '\r' ∉ front ∧ '\n' ∉ front) : IgnoresEndings reader := by
  intro cs
  cases hread : reader cs with
  | some read =>
      obtain ⟨a, rest⟩ := read
      obtain ⟨front, rfl, hfront⟩ := hreader.mp hread
      rw [crlf_append, crlf_of_not_mem (hP hfront).2]
      exact hreader.mpr ⟨front, rfl, hfront⟩
  | none =>
      cases hread' : reader (crlf cs) with
      | none => rfl
      | some read =>
          -- The same would be found without the carriage returns.
          obtain ⟨a, rest⟩ := read
          obtain ⟨front, hcs, hfront⟩ := hreader.mp hread'
          obtain ⟨behind, hcs, -⟩ := exists_of_crlf_eq_append (hP hfront).1 hcs
          rw [hreader.mpr ⟨front, hcs, hfront⟩] at hread
          cases hread

namespace Json

open Text (IgnoresEndings Advances)

theorem dropJsonBlanks_crlf (cs : List Char) :
    dropJsonBlanks (crlf cs) = crlf (dropJsonBlanks cs) :=
  Text.dropWhile_crlf (by decide) cs

/-- Behind blanks a text is at its end, or goes on with something else than a line feed. -/
theorem dropJsonBlanks_cases (cs : List Char) :
    dropJsonBlanks cs = [] ∨ ∃ c tail, dropJsonBlanks cs = c :: tail ∧ c ≠ '\n' := by
  cases hcs : dropJsonBlanks cs with
  | nil => exact .inl rfl
  | cons c tail =>
      refine .inr ⟨c, tail, rfl, ?_⟩
      rintro rfl
      have hstops := Text.stops_dropWhile isJsonBlank cs '\n'
      rw [show cs.dropWhile isJsonBlank = '\n' :: tail from hcs] at hstops
      exact absurd (hstops rfl) (by decide)

/-! ## Leaves -/

theorem stringBody_ignoresEndings : IgnoresEndings stringBody := by
  refine Text.ignoresEndings_of_front
    (P := fun front s => ∃ inner, front = inner ++ ['"'] ∧ Spells inner s) ?_ ?_
  · intro cs s rest
    rw [stringBody_eq_some]
    constructor
    · rintro ⟨inner, rfl, hinner⟩
      exact ⟨inner ++ ['"'], by simp, inner, rfl, hinner⟩
    · rintro ⟨_, rfl, inner, rfl, hinner⟩
      exact ⟨inner, by simp, hinner⟩
  · rintro _ s ⟨inner, rfl, hinner⟩
    constructor
    · intro hmem
      rcases List.mem_append.mp hmem with hmem | hmem
      · exact absurd (hinner.printable _ hmem) (by decide)
      · exact absurd hmem (by decide)
    · intro hmem
      rcases List.mem_append.mp hmem with hmem | hmem
      · exact absurd (hinner.printable _ hmem) (by decide)
      · exact absurd hmem (by decide)

theorem word_ignoresEndings {w : List Char} (hreturn : '\r' ∉ w) (hfeed : '\n' ∉ w)
    (v : Value) : IgnoresEndings (word w v) := by
  refine Text.ignoresEndings_of_front (P := fun front v' => front = w ∧ v' = v) ?_ ?_
  · intro cs v' rest
    simp only [word, Option.map_eq_some_iff, List.isPrefixOf?_eq_some_iff_append_eq]
    constructor
    · rintro ⟨_, rfl, hpair⟩
      cases hpair
      exact ⟨w, rfl, rfl, rfl⟩
    · rintro ⟨_, rfl, rfl, rfl⟩
      exact ⟨rest, rfl, rfl⟩
  · rintro _ _ ⟨rfl, -⟩
    exact ⟨hreturn, hfeed⟩

theorem digits_crlf (cs : List Char) :
    digits (crlf cs) = ((digits cs).1, crlf (digits cs).2) := by
  rw [digits, Text.takeWhile_crlf (by decide) (by decide), Text.dropWhile_crlf (by decide)]
  rfl

theorem wholeDigits_ignoresEndings : IgnoresEndings wholeDigits := by
  intro cs
  simp only [wholeDigits, digits_crlf]
  split <;> rfl

theorem fraction_of_ne {c : Char} (h : c ≠ '.') (cs : List Char) :
    fraction (c :: cs) = some (none, c :: cs) := by
  unfold fraction
  split
  · rename_i hcs
    exact absurd (List.cons.inj hcs).1 h
  · rfl

theorem fraction_ignoresEndings : IgnoresEndings fraction := by
  intro cs
  cases cs with
  | nil => rfl
  | cons c tail =>
      by_cases hfeed : c = '\n'
      · subst hfeed
        rw [crlf_cons_feed, fraction_of_ne (by decide), fraction_of_ne (by decide)]
        rfl
      · rw [crlf_cons hfeed]
        by_cases hpoint : c = '.'
        · subst hpoint
          simp only [fraction, digits_crlf]
          split <;> rfl
        · rw [fraction_of_ne hpoint, fraction_of_ne hpoint, Option.map_some, Prod.map_apply,
            crlf_cons hfeed]
          rfl

theorem exponent_of_ne {c : Char} (h : ¬ (c = 'e' ∨ c = 'E')) (cs : List Char) :
    exponent (c :: cs) = some (none, c :: cs) := by
  unfold exponent
  exact if_neg h

theorem exponent_unsigned {c d : Char} (h : c = 'e' ∨ c = 'E') (hminus : d ≠ '-')
    (hplus : d ≠ '+') (cs : List Char) :
    exponent (c :: d :: cs) =
      if (digits (d :: cs)).1 = [] then none
      else some (some (Decimal.digitsValue (digits (d :: cs)).1 : Int), (digits (d :: cs)).2) := by
  unfold exponent
  simp [h, hminus, hplus]

theorem exponent_ignoresEndings : IgnoresEndings exponent := by
  intro cs
  cases cs with
  | nil => rfl
  | cons c tail =>
      by_cases hfeed : c = '\n'
      · subst hfeed
        rw [crlf_cons_feed, exponent_of_ne (by decide), exponent_of_ne (by decide)]
        rfl
      · rw [crlf_cons hfeed]
        by_cases hletter : c = 'e' ∨ c = 'E'
        · -- A sign may stand in front of the digits, and is no line ending.
          cases tail with
          | nil =>
              unfold exponent
              simp only [if_pos hletter]
              rfl
          | cons d others =>
              by_cases hd : d = '\n'
              · subst hd
                rw [crlf_cons_feed, exponent_unsigned hletter (by decide) (by decide),
                  exponent_unsigned hletter (by decide) (by decide)]
                rfl
              · rw [crlf_cons hd]
                by_cases hminus : d = '-'
                · subst hminus
                  unfold exponent
                  simp only [if_pos hletter, digits_crlf]
                  split <;> rfl
                · by_cases hplus : d = '+'
                  · subst hplus
                    unfold exponent
                    simp only [if_pos hletter, digits_crlf]
                    split <;> rfl
                  · rw [exponent_unsigned hletter hminus hplus,
                      exponent_unsigned hletter hminus hplus, ← crlf_cons hd, digits_crlf]
                    split <;> rfl
        · rw [exponent_of_ne hletter, exponent_of_ne hletter, Option.map_some, Prod.map_apply,
            crlf_cons hfeed]
          rfl

theorem number_ignoresEndings (negative : Bool) : IgnoresEndings (number negative) := by
  intro cs
  rw [number, number, wholeDigits_ignoresEndings]
  cases wholeDigits cs with
  | none => rfl
  | some read =>
      obtain ⟨whole, behind⟩ := read
      simp only [Option.map_some, Prod.map_apply, id_eq, fraction_ignoresEndings behind]
      cases fraction behind with
      | none => rfl
      | some read =>
          obtain ⟨frac, behind⟩ := read
          simp only [Option.map_some, Prod.map_apply, id_eq, exponent_ignoresEndings behind]
          cases exponent behind with
          | none => rfl
          | some read =>
              obtain ⟨e, rest⟩ := read
              simp only [Option.map_some, Prod.map_apply, id_eq]
              split
              · simp only [Option.map_map]
                rfl
              · simp only [Option.map_map]
                rfl

/-! ## Containers -/

section Containers

variable {α : Type} {close : Char} {reader : Reader α} (hreader : IgnoresEndings reader)

include hreader

theorem row_crlf (rounds : Nat) (cs : List Char) :
    row close reader rounds (crlf cs) =
      (row close reader rounds cs).map (Prod.map id crlf) := by
  induction rounds generalizing cs with
  | zero => rfl
  | succ rounds ih =>
      rw [row, row, hreader]
      cases reader cs with
      | none => rfl
      | some read =>
          obtain ⟨a, behind⟩ := read
          simp only [Option.map_some, Prod.map_apply, id_eq, dropJsonBlanks_crlf]
          rcases dropJsonBlanks_cases behind with hend | ⟨c, tail, hbehind, hfeed⟩
          · rw [hend]
            rfl
          · rw [hbehind, crlf_cons hfeed]
            dsimp only
            split
            · rw [ih, Option.map_map, Option.map_map]
              rfl
            · split <;> rfl

theorem container_ignoresEndings (hadvances : Advances reader) (make : List α → Value) :
    IgnoresEndings (container close reader make) := by
  intro cs
  -- As many rounds as the text has characters are enough, with any line endings.
  have hrow : ∀ inner, row close reader ((crlf inner).length + 1) (crlf inner) =
      (row close reader (inner.length + 1) inner).map (Prod.map id crlf) := by
    intro inner
    have hlength := Text.length_le_crlf inner
    rw [row_crlf hreader, row_rounds hadvances (n := inner.length + 1) (by omega) (by omega)]
  unfold container
  simp only [dropJsonBlanks_crlf, hrow, Option.map_map]
  rcases dropJsonBlanks_cases cs with hend | ⟨c, tail, hcs, hfeed⟩
  · rw [hend, crlf_nil, if_neg (by simp), if_neg (by simp), Option.map_map]
    rfl
  · rw [hcs, crlf_cons hfeed, List.head?_cons, List.head?_cons]
    by_cases hclose : c = close
    · rw [if_pos (congrArg some hclose), if_pos (congrArg some hclose)]
      rfl
    · rw [if_neg (mt Option.some.inj hclose), if_neg (mt Option.some.inj hclose),
        Option.map_map]
      rfl

end Containers

theorem entry_ignoresEndings {element : Reader Value} (helement : IgnoresEndings element) :
    IgnoresEndings (entry element) := by
  intro cs
  rw [entry, entry, dropJsonBlanks_crlf]
  rcases dropJsonBlanks_cases cs with hend | ⟨c, tail, hcs, hfeed⟩
  · rw [hend]
    rfl
  · rw [hcs, crlf_cons hfeed]
    by_cases hquote : c = '"'
    · subst hquote
      simp only [stringBody_ignoresEndings tail]
      cases stringBody tail with
      | none => rfl
      | some read =>
          obtain ⟨key, behind⟩ := read
          simp only [Option.map_some, Prod.map_apply, id_eq, dropJsonBlanks_crlf]
          rcases dropJsonBlanks_cases behind with hend | ⟨d, others, hbehind, hfeed'⟩
          · rw [hend]
            rfl
          · rw [hbehind, crlf_cons hfeed']
            by_cases hcolon : d = ':'
            · subst hcolon
              simp only [helement others, Option.map_map]
              rfl
            · simp [hcolon]
    · simp [hquote]

theorem array_ignoresEndings {element : Reader Value} (helement : IgnoresEndings element)
    (hadvances : Advances element) : IgnoresEndings (array element) := by
  rw [array_eq_container]
  exact container_ignoresEndings helement hadvances _

theorem object_ignoresEndings {element : Reader Value} (helement : IgnoresEndings element)
    (hadvances : Advances element) : IgnoresEndings (object element) := by
  rw [object_eq_container]
  exact container_ignoresEndings (entry_ignoresEndings helement) (entry_advances hadvances) _

/-! ## Values -/

theorem front_ignoresEndings {element : Option (Reader Value)}
    (helement : ∀ inner, element = some inner →
      IgnoresEndings (array inner) ∧ IgnoresEndings (object inner)) :
    IgnoresEndings (front element) := by
  intro cs
  rw [front, front, dropJsonBlanks_crlf]
  rcases dropJsonBlanks_cases cs with hend | ⟨c, tail, hcs, hfeed⟩
  · rw [hend]
    rfl
  · rw [hcs, crlf_cons hfeed]
    dsimp only
    split
    · exact word_ignoresEndings (by decide) (by decide) _ tail
    · split
      · exact word_ignoresEndings (by decide) (by decide) _ tail
      · split
        · exact word_ignoresEndings (by decide) (by decide) _ tail
        · split
          · rw [stringBody_ignoresEndings, Option.map_map, Option.map_map]
            rfl
          · split
            · exact number_ignoresEndings true tail
            · split
              · rw [← crlf_cons hfeed]
                exact number_ignoresEndings false (c :: tail)
              · cases element with
                | none => rfl
                | some inner =>
                    have hinner := helement inner rfl
                    dsimp only
                    split
                    · exact hinner.1 tail
                    · split
                      · exact hinner.2 tail
                      · rfl

theorem value_ignoresEndings (room : Nat) : IgnoresEndings (value room) := by
  induction room with
  | zero => exact front_ignoresEndings fun _ h => by cases h
  | succ room ih =>
      refine front_ignoresEndings fun inner h => ?_
      cases h
      exact ⟨array_ignoresEndings ih (value_advances room),
        object_ignoresEndings ih (value_advances room)⟩

/-- **Line endings in JSON.** A text is the same JSON value, or none, with a carriage return
in front of every line feed. -/
theorem read?_crlf (cs : List Char) : read? (crlf cs) = read? cs := by
  rw [read?, read?, value_ignoresEndings]
  cases value maxNesting cs with
  | none => rfl
  | some read =>
      obtain ⟨v, rest⟩ := read
      simp only [Option.map_some, Prod.map_apply, id_eq,
        Text.all_crlf (p := isJsonBlank) (by decide) rest]

end Json

end ExerciseDoc
