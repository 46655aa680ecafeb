import ExerciseDoc.Proofs.Json.Containers
import ExerciseDoc.Proofs.Json.Strings
import Mathlib.Data.List.Infix

/-!
# Json — progress

Every reader of a value takes at least one character (`value_advances`). So the rounds that
bound the elements of a container are never what ends them: any two numbers above the length
of the text come to the same (`row_rounds`). What a value can be read as, by its first
character, is `Fronts`.
-/

namespace ExerciseDoc

open Text (Reader digits digits_append isDigit)

/-- What the reader leaves of a text is shorter than the text. -/
def Text.Advances {α : Type} (reader : Reader α) : Prop :=
  ∀ cs a rest, reader cs = some (a, rest) → rest.length < cs.length

namespace Json

open Text (Advances)

theorem length_dropJsonBlanks_le (cs : List Char) : (dropJsonBlanks cs).length ≤ cs.length :=
  (List.dropWhile_suffix isJsonBlank).length_le

/-! ## Leaves -/

theorem stringBody_advances : Advances stringBody := by
  intro cs s rest h
  obtain ⟨front, rfl, -⟩ := stringBody_eq_some.mp h
  simp only [List.length_append, List.length_cons]
  omega

theorem length_le_of_word {w cs rest : List Char} {v v' : Value}
    (h : word w v cs = some (v', rest)) : rest.length ≤ cs.length := by
  obtain ⟨behind, hbehind, hpair⟩ := Option.map_eq_some_iff.mp h
  cases hpair
  rw [List.isPrefixOf?_eq_some_iff_append_eq] at hbehind
  rw [← hbehind, List.length_append]
  omega

theorem length_digits_le (cs : List Char) : (digits cs).2.length ≤ cs.length :=
  (List.dropWhile_suffix isDigit).length_le

theorem wholeDigits_advances : Advances wholeDigits := by
  intro cs ds rest h
  unfold wholeDigits at h
  dsimp only at h
  split at h
  · cases h
  · rename_i hdigits
    cases h
    have hne : 0 < (digits cs).1.length := by
      rw [List.length_pos_iff]
      exact (not_or.mp hdigits).1
    have hcs := congrArg List.length (digits_append cs)
    rw [List.length_append] at hcs
    omega

theorem length_le_of_fraction {cs rest : List Char} {ds : Option (List Char)}
    (h : fraction cs = some (ds, rest)) : rest.length ≤ cs.length := by
  unfold fraction at h
  split at h
  · rename_i tail
    dsimp only at h
    split at h <;> cases h
    exact Nat.le_succ_of_le (length_digits_le tail)
  · cases h
    exact Nat.le_refl _

theorem length_le_of_exponent {cs rest : List Char} {e : Option Int}
    (h : exponent cs = some (e, rest)) : rest.length ≤ cs.length := by
  unfold exponent at h
  split at h
  · rename_i c tail
    split at h
    · dsimp only at h
      -- The sign is taken off before the digits.
      split at h
      all_goals
        split at h <;> cases h
        exact Nat.le_succ_of_le (by
          first
          | exact Nat.le_succ_of_le (length_digits_le _)
          | exact length_digits_le _)
    · cases h
      exact Nat.le_refl _
  · cases h
    exact Nat.le_refl _

theorem number_advances (negative : Bool) : Advances (number negative) := by
  intro cs v rest h
  unfold number at h
  split at h
  · cases h
  · rename_i whole behind hwhole
    have hbehind := wholeDigits_advances _ _ _ hwhole
    split at h
    · cases h
    · rename_i frac behind' hfraction
      have hbehind' := length_le_of_fraction hfraction
      split at h
      · cases h
      · rename_i e rest' hexponent
        have hrest' := length_le_of_exponent hexponent
        split at h
        all_goals
          obtain ⟨_, -, hpair⟩ := Option.map_eq_some_iff.mp h
          cases hpair
          omega

/-! ## Containers -/

section Containers

variable {α : Type} {close : Char} {reader : Reader α} (hreader : Advances reader)

include hreader

theorem length_lt_of_row {rounds : Nat} {cs rest : List Char} {as : List α}
    (h : row close reader rounds cs = some (as, rest)) : rest.length < cs.length := by
  induction rounds generalizing cs as with
  | zero => cases h
  | succ rounds ih =>
      obtain ⟨a, behind, c, tail, ha, hbehind, hmore⟩ := row_cases h
      have hadvance := hreader _ _ _ ha
      have hblanks := length_dropJsonBlanks_le behind
      rw [hbehind, List.length_cons] at hblanks
      rcases hmore with ⟨-, others, -, hothers⟩ | ⟨-, -, rfl⟩
      · have hrest := ih hothers
        omega
      · omega

theorem container_advances (make : List α → Value) :
    Advances (container close reader make) := by
  intro cs v rest h
  have hblanks := length_dropJsonBlanks_le cs
  rcases container_cases h with ⟨hclose, -⟩ | ⟨rounds, as, hrow, -⟩
  · rw [hclose, List.length_cons] at hblanks
    omega
  · have hrest := length_lt_of_row hreader hrow
    omega

/-- Rounds above the length of the text are never used up. -/
theorem row_rounds {m n : Nat} {cs : List Char} (hm : cs.length < m) (hn : cs.length < n) :
    row close reader m cs = row close reader n cs := by
  induction m generalizing n cs with
  | zero => omega
  | succ m ih =>
      obtain ⟨n, rfl⟩ : ∃ k, n = k + 1 := ⟨n - 1, by omega⟩
      rw [row, row]
      cases ha : reader cs with
      | none => rfl
      | some read =>
          obtain ⟨a, behind⟩ := read
          have hadvance := hreader _ _ _ ha
          have hblanks := length_dropJsonBlanks_le behind
          dsimp only
          split
          · rfl
          · rename_i c tail hbehind
            rw [hbehind, List.length_cons] at hblanks
            rw [ih (n := n) (by omega) (by omega)]

end Containers

theorem entry_advances {element : Reader Value} (helement : Advances element) :
    Advances (entry element) := by
  intro cs e rest h
  unfold entry at h
  have hblanks := length_dropJsonBlanks_le cs
  split at h
  · rename_i hquote
    rw [hquote, List.length_cons] at hblanks
    split at h
    · cases h
    · rename_i key behind hkey
      have hbehind := stringBody_advances _ _ _ hkey
      have hblanks' := length_dropJsonBlanks_le behind
      split at h
      · rename_i hcolon
        rw [hcolon, List.length_cons] at hblanks'
        obtain ⟨⟨v, _⟩, hv, hpair⟩ := Option.map_eq_some_iff.mp h
        cases hpair
        have hrest := helement _ _ _ hv
        omega
      · cases h
  · cases h

theorem array_advances {element : Reader Value} (helement : Advances element) :
    Advances (array element) := by
  rw [array_eq_container]
  exact container_advances helement _

theorem object_advances {element : Reader Value} (helement : Advances element) :
    Advances (object element) := by
  rw [object_eq_container]
  exact container_advances (entry_advances helement) _

/-! ## Values -/

/-- What is read behind blanks from the first character and those that follow it, by the
kind of the value. -/
inductive Fronts (element : Option (Reader Value)) (c : Char) (cs : List Char) :
    Value → List Char → Prop where
  | null {w rest : List Char} {v : Value} :
      word w .null cs = some (v, rest) → Fronts element c cs v rest
  | bool {b : Bool} {w rest : List Char} {v : Value} :
      word w (.bool b) cs = some (v, rest) → Fronts element c cs v rest
  | text {s rest : List Char} :
      stringBody cs = some (s, rest) → Fronts element c cs (.text (String.ofList s)) rest
  | negative {v : Value} {rest : List Char} :
      number true cs = some (v, rest) → Fronts element c cs v rest
  | number {v : Value} {rest : List Char} :
      number false (c :: cs) = some (v, rest) → Fronts element c cs v rest
  | array {inner : Reader Value} {v : Value} {rest : List Char} : element = some inner →
      array inner cs = some (v, rest) → Fronts element c cs v rest
  | object {inner : Reader Value} {v : Value} {rest : List Char} : element = some inner →
      object inner cs = some (v, rest) → Fronts element c cs v rest

theorem fronts_of_front {element : Option (Reader Value)} {cs rest : List Char} {v : Value}
    (h : front element cs = some (v, rest)) :
    ∃ c tail, dropJsonBlanks cs = c :: tail ∧ Fronts element c tail v rest := by
  unfold front at h
  split at h
  · cases h
  · rename_i c tail hcs
    refine ⟨c, tail, hcs, ?_⟩
    split at h
    · exact .null h
    · split at h
      · exact .bool h
      · split at h
        · exact .bool h
        · split at h
          · obtain ⟨⟨s, _⟩, hs, hpair⟩ := Option.map_eq_some_iff.mp h
            cases hpair
            exact .text hs
          · split at h
            · exact .negative h
            · split at h
              · exact .number h
              · split at h
                · cases h
                · split at h
                  · exact .array rfl h
                  · split at h
                    · exact .object rfl h
                    · cases h

theorem front_advances {element : Option (Reader Value)}
    (helement : ∀ inner, element = some inner → Advances inner) : Advances (front element) := by
  intro cs v rest hread
  obtain ⟨c, tail, hcs, hfront⟩ := fronts_of_front hread
  have hblanks := length_dropJsonBlanks_le cs
  rw [hcs, List.length_cons] at hblanks
  have hrest : rest.length ≤ tail.length := by
    cases hfront with
    | null h => exact length_le_of_word h
    | bool h => exact length_le_of_word h
    | text h => exact Nat.le_of_lt (stringBody_advances _ _ _ h)
    | negative h => exact Nat.le_of_lt (number_advances _ _ _ _ h)
    | number h => exact Nat.le_of_lt_succ (number_advances _ _ _ _ h)
    | array hinner h => exact Nat.le_of_lt (array_advances (helement _ hinner) _ _ _ h)
    | object hinner h => exact Nat.le_of_lt (object_advances (helement _ hinner) _ _ _ h)
  omega

theorem value_advances (room : Nat) : Advances (value room) := by
  induction room with
  | zero => exact front_advances fun _ h => by cases h
  | succ room ih =>
      refine front_advances fun inner h => ?_
      cases h
      exact ih

end Json

end ExerciseDoc
