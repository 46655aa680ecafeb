import ExerciseDoc.Json.Printer
import ExerciseDoc.Json.Reader
import Mathlib.Tactic.IntervalCases

/-!
# Json — strings

`Spells` is the notation of a string between its quotes, one constructor for each way in
which a character can be written. The reader finds exactly this notation in front of a
closing quote (`stringBody_eq_some`), and the printer writes it (`spells_escaped`). It has no
control characters (`Spells.printable`), so a string never goes over the end of a line.
-/

namespace ExerciseDoc.Json

/-- Characters between quotes, and the characters that they stand for. -/
inductive Spells : List Char → List Char → Prop where
  | nil : Spells [] []
  | plain {c : Char} {cs s : List Char} : c ≠ '"' → c ≠ '\\' → 0x20 ≤ c.toNat →
      Spells cs s → Spells (c :: cs) (c :: s)
  | short {c d : Char} {cs s : List Char} : shortEscape? c = some d →
      Spells cs s → Spells ('\\' :: c :: cs) (d :: s)
  | unit {a b c d : Char} {n : Nat} {cs s : List Char} : hexUnit? a b c d = some n →
      isHighSurrogate n = false → isLowSurrogate n = false →
      Spells cs s → Spells ('\\' :: 'u' :: a :: b :: c :: d :: cs) (Char.ofNat n :: s)
  | pair {a b c d a' b' c' d' : Char} {high low : Nat} {cs s : List Char} :
      hexUnit? a b c d = some high → isHighSurrogate high →
      hexUnit? a' b' c' d' = some low → isLowSurrogate low → Spells cs s →
      Spells ('\\' :: 'u' :: a :: b :: c :: d :: '\\' :: 'u' :: a' :: b' :: c' :: d' :: cs)
        (Char.ofNat (0x10000 + (high - 0xD800) * 0x400 + (low - 0xDC00)) :: s)

theorem Spells.append {cs ds s t : List Char} (h : Spells cs s) (h' : Spells ds t) :
    Spells (cs ++ ds) (s ++ t) := by
  induction h with
  | nil => exact h'
  | plain hquote hback hprintable _ ih => exact .plain hquote hback hprintable ih
  | short hescape _ ih => exact .short hescape ih
  | unit hunit hhigh hlow _ ih => exact .unit hunit hhigh hlow ih
  | pair hhigh hishigh hlow hislow _ ih => exact .pair hhigh hishigh hlow hislow ih

/-! ## Reading -/

theorem shortEscape?_unit : shortEscape? 'u' = none := by
  decide

/-- A string is read off the front of a text up to its closing quote. -/
theorem stringBody_eq_some {cs s rest : List Char} :
    stringBody cs = some (s, rest) ↔ ∃ front, cs = front ++ '"' :: rest ∧ Spells front s := by
  constructor
  · intro h
    fun_induction stringBody cs generalizing s with
    | case1 | case2 | case4 | case5 | case6 | case8 | case11 | case13 => cases h
    | case3 a b c d high hhigh hishigh a' b' c' d' cs low hlow hislow point =>
        rename_i ih
        obtain ⟨⟨t, _⟩, hread, hpair⟩ := Option.map_eq_some_iff.mp h
        cases hpair
        obtain ⟨front, rfl, hfront⟩ := ih hread
        exact ⟨_, rfl, .pair hhigh hishigh hlow hislow hfront⟩
    | case7 a b c d cs n hunit hhigh hlow ih =>
        obtain ⟨⟨t, _⟩, hread, hpair⟩ := Option.map_eq_some_iff.mp h
        cases hpair
        obtain ⟨front, rfl, hfront⟩ := ih hread
        exact ⟨_, rfl, .unit hunit (Bool.eq_false_iff.mpr hhigh)
          (Bool.eq_false_iff.mpr hlow) hfront⟩
    | case9 c cs hnounit d hescape ih =>
        obtain ⟨⟨t, _⟩, hread, hpair⟩ := Option.map_eq_some_iff.mp h
        cases hpair
        obtain ⟨front, rfl, hfront⟩ := ih hread
        exact ⟨_, rfl, .short hescape hfront⟩
    | case10 cs =>
        cases h
        exact ⟨[], rfl, .nil⟩
    | case12 c cs hnounit hnoescape hquote hprintable ih =>
        obtain ⟨⟨t, _⟩, hread, hpair⟩ := Option.map_eq_some_iff.mp h
        cases hpair
        obtain ⟨front, rfl, hfront⟩ := ih hread
        rw [not_or, Nat.not_lt] at hprintable
        exact ⟨_, rfl, .plain hquote hprintable.2 hprintable.1 hfront⟩
  · rintro ⟨front, rfl, h⟩
    induction h with
    | nil => simp [stringBody]
    | @plain c cs s hquote hback hprintable _ ih =>
        rw [List.cons_append, stringBody, if_neg hquote, if_neg, ih]
        · rfl
        · rw [not_or, Nat.not_lt]
          exact ⟨hprintable, hback⟩
        · exact fun _ _ _ _ _ hc => absurd hc hback
        · exact fun _ _ hc => absurd hc hback
    | @short c d cs s hescape _ ih =>
        have hunit : c ≠ 'u' := by
          rintro rfl
          rw [shortEscape?_unit] at hescape
          cases hescape
        rw [List.cons_append, List.cons_append, stringBody, hescape, ih]
        · rfl
        · exact fun _ _ _ _ _ hc => absurd hc hunit
    | unit hunit hhigh hlow _ ih =>
        simp only [List.cons_append, stringBody, hunit, hhigh, hlow, ih]
        rfl
    | pair hhigh hishigh hlow hislow _ ih =>
        simp only [List.cons_append, stringBody, hhigh, hishigh, hlow, hislow, ih, if_true]
        rfl

/-! ## Characters -/

theorem printable_of_hexDigit? {c : Char} {n : Nat} (h : hexDigit? c = some n) :
    0x20 ≤ c.toNat := by
  have hdigit : '0' ≤ c := by
    unfold hexDigit? at h
    split at h
    · rename_i hc
      exact hc.1
    · split at h
      · rename_i hc
        exact Char.le_trans (by decide) hc.1
      · split at h
        · rename_i hc
          exact Char.le_trans (by decide) hc.1
        · cases h
  exact Nat.le_trans (by decide) hdigit

theorem printable_of_hexUnit? {a b c d : Char} {n : Nat} (h : hexUnit? a b c d = some n) :
    ∀ e ∈ [a, b, c, d], 0x20 ≤ e.toNat := by
  unfold hexUnit? at h
  split at h
  · rename_i ha hb hc hd
    simp only [List.mem_cons, List.not_mem_nil, or_false]
    rintro e (rfl | rfl | rfl | rfl)
    · exact printable_of_hexDigit? ha
    · exact printable_of_hexDigit? hb
    · exact printable_of_hexDigit? hc
    · exact printable_of_hexDigit? hd
  · cases h

theorem printable_of_shortEscape? {c d : Char} (h : shortEscape? c = some d) :
    0x20 ≤ c.toNat := by
  unfold shortEscape? at h
  split at h
  · rename_i hc
    rcases hc with rfl | rfl | rfl <;> decide
  · iterate 5
      split at h
      · rename_i hc
        rw [hc]
        decide
    cases h

/-- Between the quotes of a string stand no control characters. -/
theorem Spells.printable {cs s : List Char} (h : Spells cs s) : ∀ c ∈ cs, 0x20 ≤ c.toNat := by
  have hback : 0x20 ≤ '\\'.toNat := by decide
  have hu : 0x20 ≤ 'u'.toNat := by decide
  induction h with
  | nil => exact List.forall_mem_nil _
  | plain _ _ hprintable _ ih => exact List.forall_mem_cons.mpr ⟨hprintable, ih⟩
  | short hescape _ ih =>
      exact List.forall_mem_cons.mpr ⟨hback,
        List.forall_mem_cons.mpr ⟨printable_of_shortEscape? hescape, ih⟩⟩
  | unit hunit _ _ _ ih =>
      have hunit := printable_of_hexUnit? hunit
      simp only [List.forall_mem_cons] at hunit ⊢
      exact ⟨hback, hu, hunit.1, hunit.2.1, hunit.2.2.1, hunit.2.2.2.1, ih⟩
  | pair hhigh _ hlow _ _ ih =>
      have hhigh := printable_of_hexUnit? hhigh
      have hlow := printable_of_hexUnit? hlow
      simp only [List.forall_mem_cons] at hhigh hlow ⊢
      exact ⟨hback, hu, hhigh.1, hhigh.2.1, hhigh.2.2.1, hhigh.2.2.2.1, hback, hu,
        hlow.1, hlow.2.1, hlow.2.2.1, hlow.2.2.2.1, ih⟩

/-! ## Writing -/

theorem hexDigit?_digitChar {n : Nat} (h : n < 16) : hexDigit? (Nat.digitChar n) = some n := by
  interval_cases n <;> decide

/-- The escapes of the printer stand for the character that they are made of. -/
theorem spells_escapedChar (c : Char) : Spells (escapedChar c) [c] := by
  unfold escapedChar
  iterate 7
    split
    · rename_i hc
      subst hc
      exact .short (by decide) .nil
  rename_i hquote hback _ _ _ _ _
  split
  · rename_i hcontrol
    have hunit : hexUnit? '0' '0' (Nat.digitChar (c.toNat / 16)) (Nat.digitChar (c.toNat % 16)) =
        some c.toNat := by
      have hzero : hexDigit? '0' = some 0 := by decide
      rw [hexUnit?, hzero, hexDigit?_digitChar (by omega), hexDigit?_digitChar (by omega)]
      simp only [Option.some.injEq]
      omega
    have hspelled := Spells.unit hunit (by simp [isHighSurrogate]; omega)
      (by simp [isLowSurrogate]; omega) .nil
    rwa [Char.ofNat_toNat] at hspelled
  · rename_i hprintable
    exact .plain hquote hback (Nat.not_lt.mp hprintable) .nil

/-- What the printer writes between quotes stands for the string. -/
theorem spells_escaped (s : List Char) : Spells (s.flatMap escapedChar) s := by
  induction s with
  | nil => exact .nil
  | cons c rest ih => exact (spells_escapedChar c).append ih

end ExerciseDoc.Json
