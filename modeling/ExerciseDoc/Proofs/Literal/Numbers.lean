import ExerciseDoc.Proofs.Text.Runs
import ExerciseDoc.Value.Literal

/-!
# Literal — numbers

`IsNumeral` is the notation of a number: a sign, digits on one side of a point at least, and
an exponent. The reader takes the longest text that goes on like a number, which is the
whole notation if none of its characters follow (`numeral_append`), and takes nothing but
this notation (`numeral_eq_some`). What a number in this notation is worth is left to
`Numeral.value?`.
-/

namespace ExerciseDoc.Literal

open Text (isDigit digits Stops stops_cons)

/-! ## The notation -/

/-- Digits, one at least. -/
def IsDigits (ds : List Char) : Prop :=
  ds ≠ [] ∧ ∀ c ∈ ds, isDigit c

inductive IsSign : List Char → Option Char → Prop where
  | absent : IsSign [] none
  | plus : IsSign ['+'] (some '+')
  | minus : IsSign ['-'] (some '-')

/-- Digits, digits with a point behind or between them, or a point in front of digits. -/
inductive IsMantissa : List Char → List Char → Option (List Char) → Prop where
  | whole {ds : List Char} : IsDigits ds → IsMantissa ds ds none
  | point {ds fs : List Char} : IsDigits ds → (∀ c ∈ fs, isDigit c) →
      IsMantissa (ds ++ '.' :: fs) ds (some fs)
  | bare {fs : List Char} : IsDigits fs → IsMantissa ('.' :: fs) [] (some fs)

inductive IsExponent : List Char → Option (Option Char × List Char) → Prop where
  | absent : IsExponent [] none
  | written {letter : Char} {s ds : List Char} {sign : Option Char} :
      letter = 'e' ∨ letter = 'E' → IsSign s sign → IsDigits ds →
      IsExponent (letter :: (s ++ ds)) (some (sign, ds))

/-- A number as it is written, and its parts. -/
inductive IsNumeral : List Char → Numeral → Prop where
  | mk {s m e whole : List Char} {sign : Option Char} {fraction : Option (List Char)}
      {exponent : Option (Option Char × List Char)} :
      IsSign s sign → IsMantissa m whole fraction → IsExponent e exponent →
      IsNumeral (s ++ (m ++ e)) ⟨sign, whole, fraction, exponent⟩

/-! ## What follows a number -/

/-- The characters that a keyword or a number goes on with. -/
def isTokenChar (c : Char) : Bool :=
  isKeywordChar c || c == '.'

variable {cs w rest tail ds s m e whole : List Char} {c : Char}

theorem isTokenChar_of_isDigit (h : isDigit c) : isTokenChar c := by
  have hdigit : c.isDigit = true := h
  simp [isTokenChar, isKeywordChar, Char.isAlphanum, hdigit]

theorem stops_isDigit (h : Stops isTokenChar rest) : Stops isDigit rest := by
  intro c hc
  rw [Bool.eq_false_iff]
  intro hdigit
  have hother := h c hc
  rw [isTokenChar_of_isDigit hdigit] at hother
  cases hother

theorem IsDigits.exists_cons (h : IsDigits ds) :
    ∃ c tail, ds = c :: tail ∧ isDigit c := by
  obtain ⟨hne, hdigits⟩ := h
  cases ds with
  | nil => exact absurd rfl hne
  | cons c tail => exact ⟨c, tail, rfl, hdigits c List.mem_cons_self⟩

theorem not_sign_of_isDigit (h : isDigit c) : ¬ (c = '+' ∨ c = '-') := by
  rintro (rfl | rfl) <;> cases h

theorem IsMantissa.exists_cons {fraction : Option (List Char)} (h : IsMantissa m whole fraction) :
    ∃ c tail, m = c :: tail ∧ (isDigit c ∨ c = '.') := by
  cases h with
  | whole hds =>
      obtain ⟨c, tail, rfl, hc⟩ := hds.exists_cons
      exact ⟨c, tail, rfl, .inl hc⟩
  | point hds =>
      obtain ⟨c, tail, rfl, hc⟩ := hds.exists_cons
      exact ⟨c, _, rfl, .inl hc⟩
  | bare => exact ⟨_, _, rfl, .inr rfl⟩

theorem IsNumeral.exists_cons {n : Numeral} (h : IsNumeral w n) :
    ∃ c tail, w = c :: tail ∧ isNumberStart c := by
  obtain @⟨s, m, e, whole, sign, fraction, exponent, hsign, hmantissa, -⟩ := h
  cases hsign with
  | absent =>
      obtain ⟨c, tail, rfl, hc⟩ := hmantissa.exists_cons
      refine ⟨c, _, rfl, ?_⟩
      rcases hc with hc | rfl
      · simp [isNumberStart, hc]
      · rfl
  | plus | minus => exact ⟨_, _, rfl, rfl⟩

/-! ## Parts in front of what follows them -/

theorem digits_append (hds : ∀ c ∈ ds, isDigit c) (hrest : Stops isDigit rest) :
    digits (ds ++ rest) = (ds, rest) := by
  rw [digits, Text.takeWhile_append hds hrest, Text.dropWhile_append hds hrest]

theorem sign_append {sign : Option Char} (h : IsSign s sign)
    (hrest : ∀ c, rest.head? = some c → ¬ (c = '+' ∨ c = '-')) :
    Literal.sign (s ++ rest) = (sign, rest) := by
  cases h with
  | plus | minus => rfl
  | absent =>
      cases rest with
      | nil => rfl
      | cons c tail => exact if_neg (hrest c rfl)

theorem exponent_append {exponent : Option (Option Char × List Char)}
    (h : IsExponent e exponent) (hrest : Stops isTokenChar rest) :
    Literal.exponent (e ++ rest) = some (exponent, rest) := by
  cases h with
  | absent =>
      cases rest with
      | nil => rfl
      | cons c tail =>
          have hletter : ¬ (c = 'e' ∨ c = 'E') := by
            rintro (rfl | rfl) <;> cases stops_cons.mp hrest
          exact if_neg hletter
  | @written letter s ds sign hletter hsign hds =>
      obtain ⟨c, tail, rfl, hc⟩ := hds.exists_cons
      have hread : Literal.sign (s ++ (c :: tail ++ rest)) = (sign, c :: tail ++ rest) := by
        refine sign_append hsign fun d hd => ?_
        cases hd
        exact not_sign_of_isDigit hc
      simp only [List.cons_append, List.append_assoc, Literal.exponent, if_pos hletter] at hread ⊢
      rw [hread]
      dsimp only
      rw [← List.cons_append, digits_append hds.2 (stops_isDigit hrest)]
      rfl

/-- A mantissa is read in front of a text that goes on with neither a digit nor a point. -/
theorem mantissa_append {fraction : Option (List Char)} (h : IsMantissa m whole fraction)
    (hdigit : Stops isDigit tail) (hpoint : tail.head? ≠ some '.') :
    ∃ mid, digits (m ++ tail) = (whole, mid) ∧ Literal.fraction mid = (fraction, tail) ∧
      ¬ (whole = [] ∧ fraction.getD [] = []) := by
  have hpointStops : ∀ cs : List Char, Stops isDigit ('.' :: cs) := fun cs => stops_cons.mpr rfl
  cases h with
  | whole hds =>
      refine ⟨tail, digits_append hds.2 hdigit, ?_, fun h => hds.1 h.1⟩
      cases tail with
      | nil => rfl
      | cons c tail =>
          unfold Literal.fraction
          split
          · rename_i heq
            cases heq
            exact absurd rfl hpoint
          · rfl
  | @point _ fs hds hfs =>
      refine ⟨'.' :: (fs ++ tail), ?_, ?_, fun h => hds.1 h.1⟩
      · rw [List.append_assoc]
        exact digits_append hds.2 (hpointStops _)
      · simp only [Literal.fraction, digits_append hfs hdigit]
  | @bare fs hfs =>
      refine ⟨'.' :: (fs ++ tail), rfl, ?_, fun h => hfs.1 h.2⟩
      simp only [Literal.fraction, digits_append hfs.2 hdigit]

theorem IsExponent.stops {exponent : Option (Option Char × List Char)}
    (h : IsExponent e exponent) (hrest : Stops isTokenChar rest) :
    Stops isDigit (e ++ rest) ∧ (e ++ rest).head? ≠ some '.' := by
  cases h with
  | absent =>
      refine ⟨stops_isDigit hrest, fun hpoint => ?_⟩
      have hother := hrest _ hpoint
      cases hother
  | written hletter =>
      refine ⟨stops_cons.mpr ?_, fun hpoint => ?_⟩
      · rcases hletter with rfl | rfl <;> rfl
      · rcases hletter with rfl | rfl <;> cases hpoint

/-- **A number is read whole** in front of a text that a number does not go on with. -/
theorem numeral_append {n : Numeral} (h : IsNumeral w n) (hrest : Stops isTokenChar rest) :
    numeral (w ++ rest) = some (n, rest) := by
  obtain @⟨s, m, e, whole, sign, fraction, exponent, hsign, hmantissa, hexponent⟩ := h
  obtain ⟨hdigit, hpoint⟩ := hexponent.stops hrest
  obtain ⟨mid, hdigits, hfraction, hne⟩ := mantissa_append hmantissa hdigit hpoint
  have hread : Literal.sign (s ++ (m ++ (e ++ rest))) = (sign, m ++ (e ++ rest)) := by
    refine sign_append hsign fun d hd => ?_
    obtain ⟨c, tail, rfl, hc⟩ := hmantissa.exists_cons
    cases hd
    rcases hc with hc | rfl
    · exact not_sign_of_isDigit hc
    · decide
  rw [List.append_assoc, List.append_assoc]
  simp only [numeral, hread, hdigits, hfraction, if_neg hne, exponent_append hexponent hrest]
  rfl

/-! ## What the reader takes -/

theorem sign_eq {sign : Option Char} (h : Literal.sign cs = (sign, rest)) :
    ∃ s, cs = s ++ rest ∧ IsSign s sign := by
  cases cs with
  | nil =>
      cases h
      exact ⟨[], rfl, .absent⟩
  | cons c tail =>
      have hread : Literal.sign (c :: tail) =
        if c = '+' ∨ c = '-' then (some c, tail) else (none, c :: tail) := rfl
      rw [hread] at h
      split at h
      · rename_i hc
        cases h
        rcases hc with rfl | rfl
        · exact ⟨['+'], rfl, .plus⟩
        · exact ⟨['-'], rfl, .minus⟩
      · cases h
        exact ⟨[], rfl, .absent⟩

theorem digits_eq (h : digits cs = (ds, rest)) : cs = ds ++ rest ∧ ∀ c ∈ ds, isDigit c := by
  cases h
  exact ⟨List.takeWhile_append_dropWhile.symm, fun _ => List.mem_takeWhile_imp⟩

theorem mantissa_eq {mid : List Char} {fraction : Option (List Char)}
    (hdigits : digits cs = (whole, mid)) (hfraction : Literal.fraction mid = (fraction, rest))
    (hne : ¬ (whole = [] ∧ fraction.getD [] = [])) :
    ∃ m, cs = m ++ rest ∧ IsMantissa m whole fraction := by
  obtain ⟨rfl, hwhole⟩ := digits_eq hdigits
  unfold Literal.fraction at hfraction
  split at hfraction
  · rename_i tail
    cases hread : digits tail with
    | mk fs behind =>
        obtain ⟨rfl, hfs⟩ := digits_eq hread
        rw [hread] at hfraction
        cases hfraction
        by_cases hnil : whole = []
        · subst hnil
          exact ⟨_, rfl, .bare ⟨fun h => hne ⟨rfl, h⟩, hfs⟩⟩
        · exact ⟨whole ++ '.' :: fs, by simp, .point ⟨hnil, hwhole⟩ hfs⟩
  · cases hfraction
    exact ⟨whole, rfl, .whole ⟨fun h => hne ⟨h, rfl⟩, hwhole⟩⟩

theorem exponent_eq {exponent : Option (Option Char × List Char)}
    (h : Literal.exponent cs = some (exponent, rest)) :
    ∃ e, cs = e ++ rest ∧ IsExponent e exponent := by
  cases cs with
  | nil =>
      cases h
      exact ⟨[], rfl, .absent⟩
  | cons c tail =>
      simp only [Literal.exponent] at h
      split at h
      · rename_i hletter
        cases hsign : Literal.sign tail with
        | mk sign mid =>
            cases hdigits : digits mid with
            | mk ds behind =>
                simp only [hsign, hdigits] at h
                obtain ⟨s, rfl, hs⟩ := sign_eq hsign
                obtain ⟨rfl, hds⟩ := digits_eq hdigits
                split at h
                · cases h
                · rename_i hne
                  cases h
                  exact ⟨_, by rw [List.cons_append, List.append_assoc],
                    .written hletter hs ⟨hne, hds⟩⟩
      · cases h
        exact ⟨[], rfl, .absent⟩

/-- **The reader takes numbers alone.** -/
theorem numeral_eq_some {n : Numeral} (h : numeral cs = some (n, rest)) :
    ∃ w, cs = w ++ rest ∧ IsNumeral w n := by
  unfold numeral at h
  cases hsign : Literal.sign cs with
  | mk sign cs₁ =>
  cases hdigits : digits cs₁ with
  | mk whole cs₂ =>
  cases hfraction : Literal.fraction cs₂ with
  | mk fraction cs₃ =>
      simp only [hsign, hdigits, hfraction] at h
      split at h
      · cases h
      · rename_i hne
        obtain ⟨⟨exponent, _⟩, hexponent, hpair⟩ := Option.map_eq_some_iff.mp h
        cases hpair
        obtain ⟨s, rfl, hs⟩ := sign_eq hsign
        obtain ⟨m, rfl, hm⟩ := mantissa_eq hdigits hfraction hne
        obtain ⟨e, rfl, he⟩ := exponent_eq hexponent
        exact ⟨s ++ (m ++ e), by simp only [List.append_assoc], .mk hs hm he⟩

end ExerciseDoc.Literal
