import ExerciseDoc.Proofs.Line.Reference

/-!
# Line — lines with a key

A line that starts with a key and the sign of an operator can only have the shapes that
start in this way (`classify_keyed`). What stands behind the sign then tells a value, a
block and a file apart, whatever blanks the line has further on.
-/

namespace ExerciseDoc.Line

open Text (isBlank dropBlanks Stops stops_nil stops_cons Blanks blanks_space)

variable {cs rest k w u v : List Char} {op : Operator}

/-! ## The shapes of keyed lines -/

theorem IsKey.head (hk : IsKey k) :
    ∃ c cs, k = c :: cs ∧ c ≠ '@' ∧ c ≠ '#' ∧ isBlank c = false := by
  have hstops : Stops isBlank (k ++ []) := hk.isName.stops_isBlank
  have hat := hk.not_mem (rfl : isKeyChar '@' = false)
  have hcomment := hk.not_mem (rfl : isKeyChar '#' = false)
  obtain ⟨c, cs, rfl, -⟩ := hk
  exact ⟨c, cs, rfl, (List.ne_of_not_mem_cons hat).symm,
    (List.ne_of_not_mem_cons hcomment).symm, stops_cons.mp hstops⟩

/-- A line with the key and the sign of the operator is not one that inherits. -/
def NotInheriting (op : Operator) (k : List Char) : Prop :=
  op = .assign → k ≠ "extends".toList ∧ k ≠ "template".toList

/-- Each of the two words that inherit is a key. -/
theorem isKey_of_extending {word : List Char}
    (h : word = "extends".toList ∨ word = "template".toList) : IsKey word := by
  rcases h with rfl | rfl
  · exact ⟨'e', _, rfl, rfl, List.all_eq_true.mp rfl⟩
  · exact ⟨'t', _, rfl, rfl, List.all_eq_true.mp rfl⟩

/-- Only the two words inherit, and only in front of `=`. -/
theorem extends?_keyed (hk : IsKey k) (hown : NotInheriting op k) (hw : Blanks w) :
    extends? (k ++ (w ++ op.sign :: rest)) = none := by
  rw [Option.eq_none_iff_forall_ne_some]
  intro d h
  obtain ⟨word, w', rest', hword, hline, hw', -⟩ := of_extends? h
  -- The word would be the key of the line, and the sign that of an assignment.
  have hkey : key (word ++ (w' ++ '=' :: rest')) = some (word, '=' :: rest') :=
    key_append_sign .assign (isKey_of_extending hword) hw'
  rw [← hline, key_append_sign op hk hw] at hkey
  obtain ⟨rfl, hsign⟩ := Prod.mk.inj (Option.some.inj hkey)
  have hassign : op = .assign := by
    have hsign := (List.cons.inj hsign).1
    cases op <;> first | rfl | exact absurd hsign (by decide)
  rcases hword with hword | hword
  · exact (hown hassign).1 hword
  · exact (hown hassign).2 hword

theorem classify_keyed (hk : IsKey k) (hown : NotInheriting op k) (hw : Blanks w)
    (hcs : cs = k ++ (w ++ op.sign :: rest)) :
    classify cs =
      (fromFile? cs <|> link? cs <|> component? cs <|> value? cs <|> openBlock? cs) := by
  have hinherits : extends? cs = none := by
    rw [hcs]
    exact extends?_keyed hk hown hw
  obtain ⟨c, tail, rfl, hat, hcomment, hblank⟩ := hk.head
  have hdependency : dependency? cs = none := by
    rw [hcs, List.cons_append, dependency?]
    rintro _ h
    exact hat (List.cons.inj h).1
  have hcomment : commentLine? cs = none := by
    rw [hcs, List.cons_append, commentLine?, Text.dropBlanks_cons_of_not _ hblank, comment?]
    · rfl
    · rintro _ h
      exact hcomment (List.cons.inj h).1
  have hblank : blank? cs = none := by
    simp [hcs, blank?, Text.allBlank, hblank]
  simp [classify, hinherits, hdependency, hcomment, hblank]

/-! ## What stands behind the sign -/

section Keyed

variable (hk : IsKey k) (hown : NotInheriting op k) (hw : Blanks w)

include hk hown hw

/-- A blank or a lone `=` behind the sign loads no file, links to none and declares no
widget. -/
theorem classify_signed {tail : List Char} (htail : tail.head? = some ' ' ∨ tail = ['=']) :
    classify (k ++ (w ++ op.sign :: tail)) =
      (value? (k ++ (w ++ op.sign :: tail)) <|> openBlock? (k ++ (w ++ op.sign :: tail))) := by
  have hkey : key (k ++ (w ++ op.sign :: tail)) = some (k, op.sign :: tail) :=
    key_append_sign op hk hw
  have hnone : fromFile? (k ++ (w ++ op.sign :: tail)) = none ∧
      link? (k ++ (w ++ op.sign :: tail)) = none ∧
      component? (k ++ (w ++ op.sign :: tail)) = none := by
    rw [fromFile?, link?, component?, hkey]
    rcases htail with htail | rfl
    · obtain ⟨v, rfl⟩ := List.head?_eq_some_iff.mp htail
      cases op <;> exact ⟨rfl, rfl, rfl⟩
    · cases op <;> exact ⟨rfl, rfl, rfl⟩
  obtain ⟨hfile, hlink, hcomponent⟩ := hnone
  rw [classify_keyed hk hown hw rfl, hfile, hlink, hcomponent]
  rfl

/-- A value behind a sign and a blank is read as a value. -/
theorem classify_value (hfeed : '\n' ∉ v) (hv : IsValue v) :
    classify (k ++ (w ++ op.sign :: ' ' :: v)) =
      some (.value (String.ofList k) op (String.ofList v)) := by
  have htext : valueText? (dropBlanks (' ' :: v)) = some v := by
    have h := valueText?_append blanks_space hv isEnd_nil (by simpa using hfeed)
    rwa [List.append_nil] at h
  have hvalue : value? (k ++ (w ++ op.sign :: ' ' :: v)) =
      some (.value (String.ofList k) op (String.ofList v)) := by
    simp only [value?, key_append_sign op hk hw, operator_value.mpr rfl, htext]
    rfl
  rw [classify_signed hk hown hw (.inl rfl), hvalue]
  rfl

/-- A sign with `=` behind it opens a block. -/
theorem classify_openBlock :
    classify (k ++ (w ++ [op.sign, '='])) = some (.openBlock (String.ofList k) op) := by
  have hkey : key (k ++ (w ++ [op.sign, '='])) = some (k, [op.sign, '=']) :=
    key_append_sign op hk hw
  -- A value does not start with `=`.
  have hvalue : value? (k ++ (w ++ [op.sign, '='])) = none := by
    rw [value?, hkey]
    cases op <;> rfl
  have hopen : openBlock? (k ++ (w ++ [op.sign, '='])) =
      some (.openBlock (String.ofList k) op) := by
    rw [openBlock?, hkey]
    cases op <;> rfl
  rw [classify_signed hk hown hw (.inr rfl), hvalue, hopen]
  rfl

/-- A sign that loads a file is read with the reference behind it, whatever blanks the
reference has further on. -/
theorem classify_fromFile (hu : IsReference u) (hfront : Stops isBlank u) :
    classify (k ++ (w ++ op.sign :: '@' :: ' ' :: u)) =
      some (.fromFile (String.ofList k) op (String.ofList u)) := by
  have hkey : key (k ++ (w ++ op.sign :: '@' :: ' ' :: u)) =
      some (k, op.sign :: '@' :: ' ' :: u) := key_append_sign op hk hw
  have hop : operator fileOperators (op.sign :: '@' :: ' ' :: u) = some (op, ' ' :: u) :=
    operator_file.mpr ⟨_, .inl rfl, rfl⟩
  have hreference : closingReference (' ' :: u) = some (String.ofList u) := by
    have h := closingReference_append blanks_space hu (by rwa [List.append_nil]) isEnd_nil
      stops_nil List.not_mem_nil
    rwa [List.append_nil] at h
  have hfile : fromFile? (k ++ (w ++ op.sign :: '@' :: ' ' :: u)) =
      some (.fromFile (String.ofList k) op (String.ofList u)) := by
    simp only [fromFile?, hkey, hop, hreference]
    rfl
  rw [classify_keyed hk hown hw rfl, hfile]
  rfl

end Keyed

end ExerciseDoc.Line
