import ExerciseDoc.Json.Reader
import ExerciseDoc.Proofs.Text.Runs
import Mathlib.Algebra.Group.Nat.Defs

/-!
# Json — whole numbers

The digits that a whole number is written with are read back as the same number, as long as
it fits the sixty-four bits that digits are gathered in (`gatherWhole_of_lt`). Behind them
the reader stops at any character that a number does not go on with (`number_digits`).
-/

namespace ExerciseDoc

open Text (isDigit digits Stops stops_cons)

/-! ## Decimal digits -/

namespace Decimal

theorem digitsValue_natText (n : Nat) : digitsValue (natText n) = n :=
  Nat.ofDigitChars_toDigits (by decide) (by decide)

theorem isDigit_of_mem_natText {n : Nat} {c : Char} (h : c ∈ natText n) : isDigit c :=
  Nat.isDigit_of_mem_toDigits (by decide) (by decide) h

theorem natText_ne_nil (n : Nat) : natText n ≠ [] :=
  Nat.toDigits_ne_nil

/-- Only zero is written with a zero in front. -/
theorem head?_natText {n : Nat} (h : 0 < n) : (natText n).head? ≠ some '0' := by
  induction n using Nat.strongRecOn with
  | ind n ih =>
      rw [natText]
      by_cases hsmall : n < 10
      · rw [Nat.toDigits_of_lt_base hsmall, List.head?_cons]
        simp only [ne_eq, Option.some.injEq, Nat.digitChar_eq_zero]
        omega
      · -- The digits in front of the last one are those of a smaller number.
        have hfront := ih (n / 10) (by omega) (by omega)
        rw [Nat.toDigits_of_base_le (by decide) (by omega)]
        rw [List.head?_append, Option.or_of_isSome]
        · exact hfront
        · rw [List.isSome_head?]
          exact Nat.toDigits_ne_nil

/-- A number with more than one digit does not start with a zero. -/
theorem head?_natText_of_length {n : Nat} (h : 1 < (natText n).length) :
    (natText n).head? ≠ some '0' := by
  apply head?_natText
  rcases Nat.eq_zero_or_pos n with rfl | hpos
  · exact absurd h (by decide)
  · exact hpos

end Decimal

namespace Json

open Decimal (digitValue digitsValue natText)

/-! ## Gathering -/

theorem le_foldl_digits (ds : List Char) (n : Nat) :
    n ≤ ds.foldl (fun n c => 10 * n + digitValue c) n := by
  induction ds generalizing n with
  | nil => exact Nat.le_refl n
  | cons c rest ih =>
      rw [List.foldl_cons]
      have hrest := ih (10 * n + digitValue c)
      omega

/-- Digits that fit are gathered as the number that they denote. -/
theorem gatherWhole_of_lt {ds : List Char} (h : digitsValue ds < 2 ^ 64) :
    gatherWhole ds = ⟨digitsValue ds, 0⟩ := by
  have hfold : ∀ n, ds.foldl (fun n c => 10 * n + digitValue c) n < 2 ^ 64 →
      ds.foldl (fun g c =>
        let n := 10 * g.significand + digitValue c
        if g.exponent = 0 ∧ n < Nat.pow 2 64 then ⟨n, 0⟩ else ⟨g.significand, g.exponent + 1⟩)
        (⟨n, 0⟩ : Gathered) = ⟨ds.foldl (fun n c => 10 * n + digitValue c) n, 0⟩ := by
    clear h
    induction ds with
    | nil => exact fun _ _ => rfl
    | cons c rest ih =>
        intro n hn
        rw [List.foldl_cons] at hn
        have hfits : 10 * n + digitValue c < Nat.pow 2 64 :=
          Nat.lt_of_le_of_lt (le_foldl_digits rest _) hn
        rw [List.foldl_cons, List.foldl_cons, if_pos ⟨rfl, hfits⟩]
        exact ih _ hn
  exact hfold 0 h

/-! ## Reading -/

/-- The characters that a number goes on with. -/
def isNumberChar (c : Char) : Bool :=
  isDigit c || c == '.' || c == 'e' || c == 'E'

theorem stops_isDigit {rest : List Char} (h : Stops isNumberChar rest) : Stops isDigit rest := by
  intro c hc
  have hother := h c hc
  simp only [isNumberChar, Bool.or_eq_false_iff] at hother
  exact hother.1.1.1

theorem fraction_of_stops {rest : List Char} (h : Stops isNumberChar rest) :
    fraction rest = some (none, rest) := by
  unfold fraction
  split
  · exact absurd (stops_cons.mp h) (by decide)
  · rfl

theorem exponent_of_stops {rest : List Char} (h : Stops isNumberChar rest) :
    exponent rest = some (none, rest) := by
  cases rest with
  | nil => rfl
  | cons c tail =>
      have hother := stops_cons.mp h
      simp only [isNumberChar, Bool.or_eq_false_iff, beq_eq_false_iff_ne] at hother
      unfold exponent
      exact if_neg (not_or.mpr ⟨hother.1.2, hother.2⟩)

/-- Digits without a zero in front are read as a whole number. -/
theorem number_digits {ds rest : List Char} (negative : Bool) (hne : ds ≠ [])
    (hdigits : ∀ c ∈ ds, isDigit c) (hzero : 1 < ds.length → ds.head? ≠ some '0')
    (hrest : Stops isNumberChar rest) :
    number negative (ds ++ rest) = (wholeNumber? negative ds).map fun v => (v, rest) := by
  have hread : digits (ds ++ rest) = (ds, rest) := by
    rw [digits, Text.takeWhile_append hdigits (stops_isDigit hrest),
      Text.dropWhile_append hdigits (stops_isDigit hrest)]
  have hwhole : wholeDigits (ds ++ rest) = some (ds, rest) := by
    simp only [wholeDigits, hread]
    rw [if_neg]
    rintro (hnil | ⟨hhead, hlength⟩)
    · exact hne hnil
    · exact hzero hlength hhead
  simp only [number, hwhole, fraction_of_stops hrest, exponent_of_stops hrest]

theorem number_natText {n : Nat} {rest : List Char} (negative : Bool)
    (hrest : Stops isNumberChar rest) :
    number negative (natText n ++ rest) =
      (wholeNumber? negative (natText n)).map fun v => (v, rest) :=
  number_digits negative (Decimal.natText_ne_nil n)
    (fun _ => Decimal.isDigit_of_mem_natText) Decimal.head?_natText_of_length hrest

theorem wholeNumber?_natText {n : Nat} (h : n < 2 ^ 64) :
    wholeNumber? false (natText n) = some (.int n) := by
  have hfits : digitsValue (natText n) < 2 ^ 64 := by rwa [Decimal.digitsValue_natText]
  simp [wholeNumber?, gatherWhole_of_lt hfits, Decimal.digitsValue_natText]

theorem wholeNumber?_neg_natText {n : Nat} (hpos : 0 < n) (h : n ≤ 2 ^ 63) :
    wholeNumber? true (natText n) = some (.int (-n)) := by
  have hfits : digitsValue (natText n) < 2 ^ 64 := by
    rw [Decimal.digitsValue_natText]
    omega
  simpa [wholeNumber?, gatherWhole_of_lt hfits, Decimal.digitsValue_natText, hpos] using h

end Json

end ExerciseDoc
