import ExerciseDoc.Proofs.Json.Strings
import ExerciseDoc.Proofs.Json.Whole
import ExerciseDoc.Proofs.Literal.Numbers
import ExerciseDoc.Proofs.Literal.Strings

/-!
# Json — numbers and escapes of a text

`tokens` are the numbers of a text and the escapes of its strings, found by one scan that
knows nothing else of the notation. A token is `Plain` if literals have it as well, with the
same meaning: a whole number that is neither minus zero nor out of range, or one of five
escapes. Strings with plain escapes (`quoted_of_spells`) and plain numbers
(`natural_of_number`, `negative_of_number`) are literals, and the scan goes on behind them.
-/

namespace ExerciseDoc.Json

open Text (isDigit Stops)
open Decimal (digitsValue)

/-! ## Scanning -/

/-- A number, or the character behind a backslash in a string. -/
inductive Token where
  | number (cs : List Char)
  | escape (c : Char)
  deriving DecidableEq, Repr

/-- Where a scan stands: outside of numbers and strings, in a number of which some characters
have been read, or in a string. -/
inductive Scan where
  | outside
  | inNumber (read : List Char)
  | inString

/-- The characters of which numbers are made. -/
def isNumberPart (c : Char) : Bool :=
  isNumberChar c || c == '+' || c == '-'

/-- The tokens that a scan finds from where it stands. -/
def tokensFrom : Scan → List Char → List Token
  | .outside, [] => []
  | .outside, c :: cs =>
    if c = '"' then tokensFrom .inString cs
    else if c = '-' ∨ isDigit c then tokensFrom (.inNumber [c]) cs
    else tokensFrom .outside cs
  | .inNumber read, [] => [.number read]
  | .inNumber read, c :: cs =>
    if isNumberPart c then tokensFrom (.inNumber (read ++ [c])) cs
    else .number read :: tokensFrom (if c = '"' then .inString else .outside) cs
  | .inString, [] => []
  | .inString, '\\' :: c :: cs => .escape c :: tokensFrom .inString cs
  | .inString, c :: cs =>
    if c = '"' then tokensFrom .outside cs else tokensFrom .inString cs

/-- The numbers of a text and the escapes of its strings, in order. -/
def tokens (cs : List Char) : List Token :=
  tokensFrom .outside cs

/-- A whole number between `-2 ^ 63` and `2 ^ 64 - 1` that is not minus zero. -/
inductive PlainInteger : List Char → Prop where
  | natural {ds : List Char} : Literal.IsDigits ds → digitsValue ds < 2 ^ 64 → PlainInteger ds
  | negative {ds : List Char} : Literal.IsDigits ds → 0 < digitsValue ds →
      digitsValue ds ≤ 2 ^ 63 → PlainInteger ('-' :: ds)

/-- The token means the same in a literal. -/
def Token.Plain : Token → Prop
  | .number cs => PlainInteger cs
  | .escape c => c ∈ ['"', '\\', 'n', 'r', 't']

theorem plainInteger_iff {cs : List Char} : PlainInteger cs ↔
    (Literal.IsDigits cs ∧ digitsValue cs < 2 ^ 64) ∨
      (cs.head? = some '-' ∧ Literal.IsDigits cs.tail ∧ 0 < digitsValue cs.tail ∧
        digitsValue cs.tail ≤ 2 ^ 63) := by
  constructor
  · intro h
    cases h with
    | natural hds hfits => exact .inl ⟨hds, hfits⟩
    | negative hds hpos hle => exact .inr ⟨rfl, hds, hpos, hle⟩
  · rintro (⟨hds, hfits⟩ | ⟨hminus, hds, hpos, hle⟩)
    · exact .natural hds hfits
    · obtain ⟨ds, rfl⟩ := List.head?_eq_some_iff.mp hminus
      exact .negative hds hpos hle

instance (ds : List Char) : Decidable (Literal.IsDigits ds) :=
  decidable_of_iff (ds ≠ [] ∧ ds.all isDigit) (by rw [List.all_eq_true, Literal.IsDigits])

instance : DecidablePred PlainInteger := fun _ => decidable_of_iff _ plainInteger_iff.symm

instance : DecidablePred Token.Plain
  | .number cs => inferInstanceAs (Decidable (PlainInteger cs))
  | .escape c => inferInstanceAs (Decidable (c ∈ ['"', '\\', 'n', 'r', 't']))

/-- All tokens that the scan still finds are plain. -/
def PlainFrom (scan : Scan) (cs : List Char) : Prop :=
  ∀ t ∈ tokensFrom scan cs, t.Plain

variable {cs rest w ds : List Char} {c : Char} {v : Value}

theorem plainFrom_cons {scan scan' : Scan} {t : Token} {cs' : List Char}
    (htokens : tokensFrom scan cs = t :: tokensFrom scan' cs') (h : PlainFrom scan cs) :
    t.Plain ∧ PlainFrom scan' cs' := by
  unfold PlainFrom at h
  rw [htokens] at h
  exact List.forall_mem_cons.mp h

theorem isNumberPart_of_isDigit (h : isDigit c) : isNumberPart c := by
  simp [isNumberPart, isNumberChar, h]

/-- A number is scanned as long as it goes on. -/
theorem tokensFrom_inNumber (read cs : List Char) :
    tokensFrom (.inNumber read) cs =
      .number (read ++ cs.takeWhile isNumberPart) ::
        tokensFrom .outside (cs.dropWhile isNumberPart) := by
  induction cs generalizing read with
  | nil => simp [tokensFrom]
  | cons c tail ih =>
      by_cases hc : isNumberPart c
      · rw [tokensFrom, if_pos hc, ih, List.takeWhile_cons_of_pos hc,
          List.dropWhile_cons_of_pos hc, List.append_assoc]
        rfl
      · have hother : ¬ (c = '-' ∨ isDigit c) := by
          rintro (rfl | hdigit)
          · exact hc rfl
          · exact hc (isNumberPart_of_isDigit hdigit)
        rw [tokensFrom, if_neg hc, List.takeWhile_cons_of_neg hc, List.dropWhile_cons_of_neg hc,
          List.append_nil, tokensFrom, if_neg hother]
        split <;> rfl

/-- Characters that start neither a number nor a string. -/
def isIdle (c : Char) : Bool :=
  !(c == '"' || c == '-' || isDigit c)

/-- What starts neither a number nor a string is passed over. -/
theorem tokensFrom_append (hw : ∀ c ∈ w, isIdle c) :
    tokensFrom .outside (w ++ cs) = tokensFrom .outside cs := by
  induction w with
  | nil => rfl
  | cons c tail ih =>
      obtain ⟨hc, htail⟩ := List.forall_mem_cons.mp hw
      simp only [isIdle, Bool.not_eq_true', Bool.or_eq_false_iff, beq_eq_false_iff_ne] at hc
      rw [List.cons_append, tokensFrom, if_neg hc.1.1, if_neg, ih htail]
      rintro (hminus | hdigit)
      · exact hc.1.2 hminus
      · rw [hc.2] at hdigit
        cases hdigit

theorem isIdle_of_isJsonBlank (h : isJsonBlank c) : isIdle c := by
  simp only [isJsonBlank, Bool.or_eq_true, beq_iff_eq] at h
  rcases h with ((rfl | rfl) | rfl) | rfl <;> rfl

theorem isBlank_of_isJsonBlank (h : isJsonBlank c) : Text.isBlank c := by
  simp only [isJsonBlank, Bool.or_eq_true, beq_iff_eq] at h
  rcases h with ((rfl | rfl) | rfl) | rfl <;> rfl

/-! ## Strings -/

theorem escape_of_shortEscape? {c d : Char} (hplain : (Token.escape c).Plain)
    (h : shortEscape? c = some d) : Literal.Escape c [d] := by
  simp only [Token.Plain, List.mem_cons, List.not_mem_nil, or_false] at hplain
  rcases hplain with rfl | rfl | rfl | rfl | rfl <;> cases h
  · exact .doubleQuote
  · exact .backslash
  · exact .lineFeed
  · exact .carriageReturn
  · exact .tab

/-- A string with plain escapes is a string of literals. -/
theorem quoted_of_spells {front s : List Char} (h : Spells front s)
    (hplain : PlainFrom .inString (front ++ '"' :: rest)) :
    Literal.Quoted '"' front s ∧ PlainFrom .outside rest := by
  have hunit : ¬ (Token.escape 'u').Plain := by
    simp [Token.Plain]
  induction h with
  | nil => exact ⟨.nil, hplain⟩
  | @plain c cs s hquote hback hprintable _ ih =>
      have htokens : tokensFrom .inString (c :: (cs ++ '"' :: rest)) =
          tokensFrom .inString (cs ++ '"' :: rest) := by
        rw [tokensFrom, if_neg hquote]
        exact fun _ _ h => absurd h hback
      have hbehind : PlainFrom .inString (cs ++ '"' :: rest) := by
        unfold PlainFrom at hplain ⊢
        rwa [← htokens]
      have hfeed : c ≠ '\n' := by
        rintro rfl
        exact absurd hprintable (by decide)
      obtain ⟨hquoted, hrest⟩ := ih hbehind
      exact ⟨.plain hquote hback hfeed hquoted, hrest⟩
  | @short c d cs s hescape _ ih =>
      obtain ⟨hc, hbehind⟩ := plainFrom_cons rfl hplain
      obtain ⟨hquoted, hrest⟩ := ih hbehind
      exact ⟨.escaped (escape_of_shortEscape? hc hescape) hquoted, hrest⟩
  | unit => exact absurd (plainFrom_cons rfl hplain).1 hunit
  | pair => exact absurd (plainFrom_cons rfl hplain).1 hunit

/-! ## Numbers -/

/-- Digits in front of what a number does not go on with are read as a whole number, or not
at all. -/
theorem number_digits_eq_some {negative : Bool} {tail : List Char} (hds : Literal.IsDigits ds)
    (htail : Stops isNumberChar tail) (h : number negative (ds ++ tail) = some (v, rest)) :
    rest = tail ∧ (1 < ds.length → ds.head? ≠ some '0') ∧ wholeNumber? negative ds = some v := by
  by_cases hzero : 1 < ds.length → ds.head? ≠ some '0'
  · rw [number_digits negative hds.1 hds.2 hzero htail] at h
    obtain ⟨_, hvalue, hpair⟩ := Option.map_eq_some_iff.mp h
    cases hpair
    exact ⟨rfl, hzero, hvalue⟩
  · -- A zero in front of other digits is refused.
    have hdigits := Literal.digits_append hds.2 (stops_isDigit htail)
    have hrefused : wholeDigits (ds ++ tail) = none := by
      simp only [wholeDigits, hdigits]
      rw [if_pos]
      rw [Classical.not_imp, not_not] at hzero
      exact .inr ⟨hzero.2, hzero.1⟩
    simp only [number, hrefused] at h
    cases h

theorem wholeValue?_eq_wholeNumber? {negative : Bool}
    (hzero : 1 < ds.length → ds.head? ≠ some '0') (hfits : digitsValue ds < 2 ^ 64)
    (hnegative : negative → 0 < digitsValue ds ∧ digitsValue ds ≤ 2 ^ 63) :
    Literal.wholeValue? negative ds = wholeNumber? negative ds := by
  have hleading : ¬ (ds.length > 1 ∧ ds.head? = some '0' ∧ ds.any (· != '0')) :=
    fun h => hzero h.1 h.2.1
  rw [Literal.wholeValue?, if_neg hleading]
  simp only [wholeNumber?, gatherWhole_of_lt hfits]
  cases negative with
  | true =>
      obtain ⟨hpos, hle⟩ := hnegative rfl
      have hle : digitsValue ds ≤ Nat.pow 2 63 := hle
      rw [if_pos rfl, if_pos hle, if_neg (by decide), if_pos ⟨trivial, hpos, hle⟩]
  | false =>
      have hfits : digitsValue ds < Nat.pow 2 64 := hfits
      rw [if_neg Bool.false_ne_true, if_pos hfits, if_pos ⟨trivial, rfl⟩]

/-- A number of plain digits is worth the same in a literal, and is read as far as it is
scanned. -/
theorem wholeValue?_of_number {negative : Bool}
    (hds : Literal.IsDigits (cs.takeWhile isNumberPart))
    (hfits : digitsValue (cs.takeWhile isNumberPart) < 2 ^ 64)
    (hnegative : negative → 0 < digitsValue (cs.takeWhile isNumberPart) ∧
      digitsValue (cs.takeWhile isNumberPart) ≤ 2 ^ 63)
    (h : number negative cs = some (v, rest)) :
    rest = cs.dropWhile isNumberPart ∧
      Literal.wholeValue? negative (cs.takeWhile isNumberPart) = some v := by
  have htail : Stops isNumberChar (cs.dropWhile isNumberPart) := by
    intro c hc
    have hpart := Text.stops_dropWhile isNumberPart cs c hc
    simp only [isNumberPart, Bool.or_eq_false_iff] at hpart
    exact hpart.1.1
  have hcs : cs = cs.takeWhile isNumberPart ++ cs.dropWhile isNumberPart :=
    List.takeWhile_append_dropWhile.symm
  rw [hcs] at h
  obtain ⟨hrest, hzero, hvalue⟩ := number_digits_eq_some hds htail h
  exact ⟨hrest, by rw [wholeValue?_eq_wholeNumber? hzero hfits hnegative, hvalue]⟩

/-- Behind its sign, a negative number whose token is plain is a number of literals. -/
theorem negative_of_number (hplain : PlainFrom .outside ('-' :: cs))
    (h : number true cs = some (v, rest)) :
    ∃ w n, '-' :: cs = w ++ rest ∧ Literal.IsNumeral w n ∧ n.value? = some v ∧
      PlainFrom .outside rest := by
  obtain ⟨htoken, hbehind⟩ := plainFrom_cons (tokensFrom_inNumber ['-'] cs) hplain
  obtain ⟨hds, hpos, hle⟩ : Literal.IsDigits (cs.takeWhile isNumberPart) ∧
      0 < digitsValue (cs.takeWhile isNumberPart) ∧
      digitsValue (cs.takeWhile isNumberPart) ≤ 2 ^ 63 := by
    cases htoken with
    | natural hds => cases hds.2 '-' List.mem_cons_self
    | negative hds hpos hle => exact ⟨hds, hpos, hle⟩
  obtain ⟨rfl, hvalue⟩ := wholeValue?_of_number hds (by omega) (fun _ => ⟨hpos, hle⟩) h
  refine ⟨_, _, ?_, .mk .minus (.whole hds) .absent, hvalue, hbehind⟩
  rw [List.append_nil, List.append_assoc, List.takeWhile_append_dropWhile]
  rfl

/-- A number whose token is plain is a number of literals. -/
theorem natural_of_number (hc : isDigit c) (hplain : PlainFrom .outside (c :: cs))
    (h : number false (c :: cs) = some (v, rest)) :
    ∃ w n, c :: cs = w ++ rest ∧ Literal.IsNumeral w n ∧ n.value? = some v ∧
      PlainFrom .outside rest := by
  have htokens : tokensFrom .outside (c :: cs) = .number ((c :: cs).takeWhile isNumberPart) ::
      tokensFrom .outside ((c :: cs).dropWhile isNumberPart) := by
    have hpart := isNumberPart_of_isDigit hc
    have hquote : c ≠ '"' := by
      rintro rfl
      cases hc
    rw [List.takeWhile_cons_of_pos hpart, List.dropWhile_cons_of_pos hpart, tokensFrom,
      if_neg hquote, if_pos (.inr hc), tokensFrom_inNumber]
    rfl
  obtain ⟨htoken, hbehind⟩ := plainFrom_cons htokens hplain
  obtain ⟨hds, hfits⟩ : Literal.IsDigits ((c :: cs).takeWhile isNumberPart) ∧
      digitsValue ((c :: cs).takeWhile isNumberPart) < 2 ^ 64 := by
    rw [List.takeWhile_cons_of_pos (isNumberPart_of_isDigit hc)] at htoken ⊢
    cases htoken with
    | natural hds hfits => exact ⟨hds, hfits⟩
    | negative => cases hc
  obtain ⟨rfl, hvalue⟩ := wholeValue?_of_number hds hfits (by simp) h
  refine ⟨_, _, ?_, .mk .absent (.whole hds) .absent, hvalue, hbehind⟩
  rw [List.append_nil, List.nil_append, List.takeWhile_append_dropWhile]

end ExerciseDoc.Json
