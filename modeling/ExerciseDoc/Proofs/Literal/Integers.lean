import ExerciseDoc.Proofs.Literal.Grammar
import Mathlib.Data.List.Induction
import Mathlib.Data.Nat.Digits.Defs

/-!
# Literal — integers

What a sign and digits denote is said by the places of the digits, counted from the end
(`denoted`), and not by the way in which the reader gathers them. A text of this kind is
either the literal of exactly this integer or no literal at all: it is refused if a zero
stands in front of other digits, and if the integer fits neither into sixty-four bits with
a sign nor into as many without (`read?_sign_digits`). A refused text stands for itself.
-/

namespace ExerciseDoc

open Decimal (digitValue digitsValue)

/-! ## The worth of digits -/

namespace Decimal

/-- Digits gathered from the front are worth what their places say. -/
theorem digitsValue_eq_ofDigits (ds : List Char) :
    digitsValue ds = Nat.ofDigits 10 (ds.reverse.map digitValue) := by
  induction ds using List.reverseRecOn with
  | nil => rfl
  | append_singleton ds d ih =>
      have hstep : digitsValue (ds ++ [d]) = 10 * digitsValue ds + digitValue d :=
        List.foldl_concat ..
      rw [hstep, ih, List.reverse_concat, List.map_cons, Nat.ofDigits_cons, Nat.add_comm]

theorem digitsValue_zeros {ds : List Char} (h : ∀ d ∈ ds, d = '0') : digitsValue ds = 0 := by
  rw [List.eq_replicate_of_mem h, digitsValue_eq_ofDigits, List.reverse_replicate,
    List.map_replicate]
  exact Nat.ofDigits_replicate_zero

end Decimal

namespace Literal

variable {s ds w : List Char} {sign : Option Char}

/-- The integer that digits behind a sign denote in decimal: the last digit counts ones, and
each other digit ten times as much as the one behind it. -/
def denoted (sign : Option Char) (ds : List Char) : Int :=
  let n : Nat := Nat.ofDigits 10 (ds.reverse.map digitValue)
  if sign = some '-' then -n else n

theorem denoted_eq (sign : Option Char) (ds : List Char) :
    denoted sign ds = if sign = some '-' then -(digitsValue ds : Int) else digitsValue ds := by
  rw [denoted, Decimal.digitsValue_eq_ofDigits]

/-- Zeros are worth nothing, whatever their sign and number. -/
theorem denoted_zeros (sign : Option Char) (h : ∀ d ∈ ds, d = '0') : denoted sign ds = 0 := by
  rw [denoted_eq, Decimal.digitsValue_zeros h]
  exact ite_self 0

/-! ## Which integers are literals -/

/-- No zero stands in front of other digits than zeros. -/
def Unpadded (ds : List Char) : Prop :=
  (∀ d ∈ ds, d = '0') ∨ ds.head? ≠ some '0'

instance (ds : List Char) : Decidable (Unpadded ds) :=
  decidable_of_iff (ds.all (· == '0') ∨ ds.head? ≠ some '0') (by simp [Unpadded])

/-- The integers of sixty-four bits, with or without a sign. -/
def Fits (n : Int) : Prop :=
  -(Nat.pow 2 63 : Nat) ≤ n ∧ n ≤ (Nat.pow 2 64 : Nat) - 1

instance (n : Int) : Decidable (Fits n) :=
  inferInstanceAs (Decidable (_ ∧ _))

theorem not_unpadded_iff : ¬ Unpadded ds ↔
    ds.length > 1 ∧ ds.head? = some '0' ∧ ds.any (· != '0') := by
  rw [Unpadded, not_or, not_not, List.any_eq_true]
  constructor
  · rintro ⟨hother, hhead⟩
    obtain ⟨tail, rfl⟩ := List.head?_eq_some_iff.mp hhead
    obtain ⟨d, hd, hne⟩ : ∃ d ∈ '0' :: tail, d ≠ '0' := by
      simpa only [not_forall, exists_prop] using hother
    -- The other digit stands behind the zero.
    have htail : 0 < tail.length :=
      List.length_pos_of_mem ((List.mem_cons.mp hd).resolve_left hne)
    exact ⟨Nat.succ_lt_succ htail, rfl, d, hd, bne_iff_ne.mpr hne⟩
  · rintro ⟨-, hhead, d, hd, hne⟩
    exact ⟨fun hzeros => bne_iff_ne.mp hne (hzeros d hd), hhead⟩

theorem fits_denoted_iff : Fits (denoted sign ds) ↔
    if sign = some '-' then digitsValue ds ≤ Nat.pow 2 63 else digitsValue ds < Nat.pow 2 64 := by
  have hsigned : Nat.pow 2 63 = 2 ^ 63 := rfl
  have hunsigned : Nat.pow 2 64 = 2 ^ 64 := rfl
  rw [denoted_eq, Fits, hsigned, hunsigned]
  split <;> omega

/-- **Digits alone are worth what they denote**, if they are worth anything. -/
theorem wholeValue?_eq : wholeValue? (sign == some '-') ds =
    if Unpadded ds ∧ Fits (denoted sign ds) then some (.int (denoted sign ds)) else none := by
  rw [wholeValue?]
  by_cases hpad : Unpadded ds
  · rw [if_neg (fun h => not_unpadded_iff.mpr h hpad)]
    simp only [hpad, true_and, fits_denoted_iff]
    rw [denoted_eq]
    by_cases hminus : sign = some '-'
    · simp only [hminus, beq_self_eq_true, if_true]
    · simp only [hminus, beq_iff_eq, if_false]
  · rw [if_pos (not_unpadded_iff.mp hpad), if_neg (fun h => hpad h.1)]

/-! ## Reading -/

/-- A number on its own is a literal iff it is worth a value, and of that value. -/
theorem read?_of_isNumeral {n : Numeral} (h : IsNumeral w n) : read? w = n.value? := by
  have hnumber : number w = n.value?.map fun v => (v, []) := by
    have hread := numeral_append h Text.stops_nil
    rw [List.append_nil] at hread
    rw [number, hread]
  have hvalue : value maxNesting w = number w := by
    obtain ⟨c, tail, rfl, hstart⟩ := h.exists_cons
    obtain ⟨hblank, hopening, hquote⟩ := starts_of_isNumberStart hstart
    have hfront : value maxNesting (c :: tail) = _ :=
      front_cons (container (value 127)) Text.blanks_nil (isBlank_of_isStart hblank)
    rw [hfront, if_neg hopening, if_neg hquote, if_pos hstart]
  rw [read?, hvalue, hnumber]
  cases n.value? <;> rfl

/-- **Integers are exact or not literals.** -/
theorem read?_sign_digits (hs : IsSign s sign) (hds : IsDigits ds) : read? (s ++ ds) =
    if Unpadded ds ∧ Fits (denoted sign ds) then some (.int (denoted sign ds)) else none := by
  have hnumeral : IsNumeral (s ++ ds) ⟨sign, ds, none, none⟩ := by
    have h := IsNumeral.mk hs (.whole hds) .absent
    rwa [List.append_nil] at h
  rw [read?_of_isNumeral hnumeral]
  exact wholeValue?_eq

theorem isBlank_of_mem_sign_digits (hs : IsSign s sign) (hds : IsDigits ds) {c : Char}
    (hc : c ∈ s ++ ds) : Text.isBlank c = false := by
  apply isBlank_of_isStart
  rcases List.mem_append.mp hc with hsign | hdigit
  · cases hs with
    | absent => cases hsign
    | plus | minus => rw [List.mem_singleton.mp hsign]; rfl
  · rw [isStart, hds.2 c hdigit, Bool.true_or]

/-- On the line of its key, an integer that is no literal is stored as it is written. -/
theorem ofLine_sign_digits (hs : IsSign s sign) (hds : IsDigits ds) :
    ofLine (String.ofList (s ++ ds)) =
      (read? (s ++ ds)).getD (.text (String.ofList (s ++ ds))) := by
  have hblank : ∀ c ∈ s ++ ds, Text.isBlank c = false :=
    fun _ => isBlank_of_mem_sign_digits hs hds
  have htrimmed : Text.trimmed (s ++ ds) = s ++ ds :=
    Text.trimmed_of_stops (fun c hc => hblank c (List.mem_of_mem_head? hc))
      fun c hc => hblank c (List.mem_reverse.mp (List.mem_of_mem_head? hc))
  rw [ofLine, String.toList_ofList, htrimmed]

/-! ## Exact or text -/

/-- **Integer literals.** A sign or none and digits, as many as there may be, are the literal
of the integer that they denote, if it fits and no zero pads the digits. Otherwise they are no
literal, and the text itself is stored. Zeros alone are the literal of zero. -/
theorem integer_exact_or_text (hs : IsSign s sign) (hds : IsDigits ds) :
    (Unpadded ds → Fits (denoted sign ds) →
      read? (s ++ ds) = some (.int (denoted sign ds)) ∧
        ofLine (String.ofList (s ++ ds)) = .int (denoted sign ds)) ∧
    (¬ (Unpadded ds ∧ Fits (denoted sign ds)) →
      read? (s ++ ds) = none ∧
        ofLine (String.ofList (s ++ ds)) = .text (String.ofList (s ++ ds))) ∧
    ((∀ d ∈ ds, d = '0') →
      read? (s ++ ds) = some (.int 0) ∧ ofLine (String.ofList (s ++ ds)) = .int 0) := by
  have hexact : Unpadded ds → Fits (denoted sign ds) →
      read? (s ++ ds) = some (.int (denoted sign ds)) ∧
        ofLine (String.ofList (s ++ ds)) = .int (denoted sign ds) := by
    intro hpad hfits
    have hread := read?_sign_digits hs hds
    rw [if_pos ⟨hpad, hfits⟩] at hread
    exact ⟨hread, by rw [ofLine_sign_digits hs hds, hread]; rfl⟩
  refine ⟨hexact, fun hrefused => ?_, fun hzeros => ?_⟩
  · have hread := read?_sign_digits hs hds
    rw [if_neg hrefused] at hread
    exact ⟨hread, by rw [ofLine_sign_digits hs hds, hread]; rfl⟩
  · have hzero := denoted_zeros sign hzeros
    have hfits : Fits (denoted sign ds) := by
      rw [hzero]
      decide
    rw [← hzero]
    exact hexact (.inl hzeros) hfits

/-- The least integer and the greatest one are literals, and the ones beyond them stand for
themselves, as a padded seven does. -/
theorem integer_exact_or_text_bounds :
    IsSign ['-'] (some '-') ∧ IsDigits "9223372036854775808".toList ∧
      Fits (denoted (some '-') "9223372036854775808".toList) ∧
      read? "-9223372036854775808".toList = some (.int (-9223372036854775808)) ∧
      read? "+18446744073709551615".toList = some (.int 18446744073709551615) ∧
      ofLine "-9223372036854775809" = .text "-9223372036854775809" ∧
      ofLine "18446744073709551616" = .text "18446744073709551616" ∧
      ofLine "+007" = .text "+007" ∧ ofLine "-00" = .int 0 := by
  have hdigits : ∀ ds : List Char, ds ≠ [] ∧ ds.all Text.isDigit → IsDigits ds :=
    fun _ h => ⟨h.1, List.all_eq_true.mp h.2⟩
  have hleast := hdigits "9223372036854775808".toList (by decide)
  have hbelow := hdigits "9223372036854775809".toList (by decide)
  have hgreatest := hdigits "18446744073709551615".toList (by decide)
  have habove := hdigits "18446744073709551616".toList (by decide)
  have hpadded := hdigits "007".toList (by decide)
  have hzeros := hdigits ['0', '0'] (by decide)
  have hfits : Fits (denoted (some '-') "9223372036854775808".toList) := by decide
  refine ⟨.minus, hleast, hfits, ?_, ?_, ?_, ?_, ?_, ?_⟩
  · exact ((integer_exact_or_text .minus hleast).1 (by decide) hfits).1
  · exact ((integer_exact_or_text .plus hgreatest).1 (by decide) (by decide)).1
  · exact ((integer_exact_or_text .minus hbelow).2.1 (by decide)).2
  · exact ((integer_exact_or_text .absent habove).2.1 (by decide)).2
  · exact ((integer_exact_or_text .plus hpadded).2.1 (by decide)).2
  · exact ((integer_exact_or_text .minus hzeros).2.2 (by simp)).2

end Literal

end ExerciseDoc
