import ExerciseDoc.Line.Classify
import ExerciseDoc.Proofs.Text.Runs
import Mathlib.Data.List.Infix
import Mathlib.Data.Option.Basic

/-!
# Line — the parts of a line

The words of the grammar of lines, each with the law of the reader that takes it off the
front of a text: signs of operators (`operator_eq_some`), the end of a line
(`closes_iff`), keys (`key_eq_some`), names in brackets (`dependencyEnd_eq_some`) and
values (`valueText?_eq_some`). A law says which texts a reader accepts and what it finds
there, and nothing about how it goes about it.
-/

namespace ExerciseDoc

/-- The sign of an operator. -/
def Operator.sign : Operator → Char
  | .assign => '='
  | .json => '%'
  | .append => '+'
  | .prepend => '-'

namespace Line

open Text (isLetter isDigit isBlank dropBlanks run Stops stops_nil stops_cons
  stops_append_of_disjoint IsRun run_eq_some Blanks blanks_nil dropBlanks_eq
  exists_dropBlanks not_mem_dropBlanks dropBlanks_append dropBlanksEnd_eq)

variable {c : Char} {cs rest k w u v text : List Char}

/-! ## Operators -/

/-- No token of a table starts with another one. -/
def PrefixFree {α : Type} (table : List (List Char × α)) : Prop :=
  ∀ x ∈ table, ∀ y ∈ table, x.1 <+: y.1 → x = y

instance {α : Type} [DecidableEq α] (table : List (List Char × α)) :
    Decidable (PrefixFree table) :=
  inferInstanceAs (Decidable (∀ x ∈ table, ∀ y ∈ table, x.1 <+: y.1 → x = y))

/-- At most one token of such a table stands in front of a text. -/
theorem PrefixFree.unique {α : Type} {table : List (List Char × α)} (h : PrefixFree table)
    {x y : List Char × α} (hx : x ∈ table) (hy : y ∈ table) (hxcs : x.1 <+: cs)
    (hycs : y.1 <+: cs) : x = y := by
  rcases List.prefix_or_prefix_of_prefix hxcs hycs with hxy | hyx
  · exact h x hx y hy hxy
  · exact (h y hy x hx hyx).symm

/-- The operator of a table is the one whose token stands in front. -/
theorem operator_eq_some {α : Type} {table : List (List Char × α)} {a : α}
    (hfree : PrefixFree table) : operator table cs = some (a, rest) ↔
      ∃ token, (token, a) ∈ table ∧ cs = token ++ rest := by
  have hsound : ∀ b behind, operator table cs = some (b, behind) →
      ∃ token, (token, b) ∈ table ∧ cs = token ++ behind := by
    intro b behind h
    obtain ⟨⟨token, a'⟩, hmem, hfront⟩ := List.exists_of_findSome?_eq_some h
    obtain ⟨_, hstart, hpair⟩ := Option.map_eq_some_iff.mp hfront
    cases hpair
    exact ⟨token, hmem, (List.isPrefixOf?_eq_some_iff_append_eq.mp hstart).symm⟩
  refine ⟨hsound a rest, ?_⟩
  rintro ⟨token, hmem, rfl⟩
  have hfront : (token.isPrefixOf? (token ++ rest)).map (fun behind => (a, behind)) =
      some (a, rest) := by
    rw [List.isPrefixOf?_eq_some_iff_append_eq.mpr rfl]
    rfl
  cases hfound : operator table (token ++ rest) with
  | none =>
      have h := (List.findSome?_eq_none_iff.mp hfound (token, a) hmem).symm.trans hfront
      cases h
  | some found =>
      obtain ⟨b, behind⟩ := found
      obtain ⟨token', hmem', happend⟩ := hsound b behind hfound
      cases hfree.unique hmem hmem' (List.prefix_append token rest)
        (happend ▸ List.prefix_append token' behind)
      rw [List.append_cancel_left happend]

/-- The signs that load a file: the sign of the operator and `@`, and for the operators
that join also with `=` in between. -/
def Loads (op : Operator) (token : List Char) : Prop :=
  token = [op.sign, '@'] ∨ ((op = .append ∨ op = .prepend) ∧ token = [op.sign, '=', '@'])

theorem Loads.eq_cons {op : Operator} {token : List Char} (h : Loads op token) :
    ∃ tail, token = op.sign :: tail := by
  rcases h with rfl | ⟨-, rfl⟩
  · exact ⟨_, rfl⟩
  · exact ⟨_, rfl⟩

theorem operator_file {op : Operator} : operator fileOperators cs = some (op, rest) ↔
    ∃ token, Loads op token ∧ cs = token ++ rest := by
  have hmem : ∀ token, (token, op) ∈ fileOperators ↔ Loads op token := by
    intro token
    cases op <;> simp [fileOperators, Loads, Operator.sign, or_comm]
  rw [operator_eq_some (by decide)]
  simp only [hmem]

theorem operator_value {op : Operator} : operator valueOperators cs = some (op, rest) ↔
    cs = op.sign :: rest := by
  have hmem : ∀ token, (token, op) ∈ valueOperators ↔ token = [op.sign] := by
    intro token
    cases op <;> simp [valueOperators, Operator.sign]
  rw [operator_eq_some (by decide)]
  simp [hmem]

theorem operator_block {op : Operator} : operator blockOperators cs = some (op, rest) ↔
    cs = op.sign :: '=' :: rest := by
  have hmem : ∀ token, (token, op) ∈ blockOperators ↔ token = [op.sign, '='] := by
    intro token
    cases op <;> simp [blockOperators, Operator.sign]
  rw [operator_eq_some (by decide)]
  simp [hmem]

/-! ## Ends -/

/-- Nothing, or a comment. -/
def IsTail (c : List Char) : Prop :=
  c = [] ∨ ∃ text, c = '#' :: text

/-- Blanks at the end of a line, and perhaps a comment. -/
def IsEnd (cs : List Char) : Prop :=
  ∃ w c, cs = w ++ c ∧ Blanks w ∧ IsTail c

theorem IsTail.stops {p : Char → Bool} (h : IsTail cs) (hp : p '#' = false) : Stops p cs := by
  rcases h with rfl | ⟨t, rfl⟩
  · exact stops_nil
  · exact stops_cons.mpr hp

theorem IsTail.isEnd (h : IsTail cs) : IsEnd cs :=
  ⟨[], cs, rfl, blanks_nil, h⟩

theorem isEnd_nil : IsEnd [] :=
  IsTail.isEnd (.inl rfl)

theorem isEnd_iff : IsEnd cs ↔ IsTail (dropBlanks cs) := by
  constructor
  · rintro ⟨w, c, rfl, hw, hc⟩
    rw [dropBlanks_append hw (hc.stops rfl)]
    exact hc
  · intro h
    obtain ⟨w, hcs, hw, -⟩ := exists_dropBlanks cs
    exact ⟨w, dropBlanks cs, hcs, hw, h⟩

theorem IsEnd.append (hw : Blanks w) (h : IsEnd rest) : IsEnd (w ++ rest) := by
  obtain ⟨w', c, rfl, hw', hc⟩ := h
  refine ⟨w ++ w', c, (List.append_assoc w w' c).symm, ?_, hc⟩
  intro d hd
  rcases List.mem_append.mp hd with hd | hd
  · exact hw d hd
  · exact hw' d hd

/-- What is neither blank nor a comment does not go on into the end of a line. -/
theorem IsEnd.stops {p : Char → Bool} (h : IsEnd cs) (hblank : ∀ c ∈ cs, isBlank c → p c = false)
    (hcomment : p '#' = false) : Stops p cs := by
  obtain ⟨w, c, rfl, hw, hc⟩ := h
  exact Stops.append (fun d hd => hblank d (List.mem_append_left c hd) (hw d hd))
    (hc.stops hcomment)

/-- In a line, which has no line feed, a comment is any text from a `#` on. -/
theorem comment?_eq_some (h : '\n' ∉ cs) :
    comment? cs = some text ↔ cs = text ∧ ∃ t, text = '#' :: t := by
  unfold comment?
  split
  · rename_i t
    have hfeed : t.contains '\n' = false := by
      simpa using fun hmem => h (List.mem_cons_of_mem _ hmem)
    rw [hfeed]
    constructor
    · rintro ⟨⟩
      exact ⟨rfl, t, rfl⟩
    · rintro ⟨rfl, _⟩
      rfl
  · rename_i hother
    constructor
    · rintro ⟨⟩
    · rintro ⟨rfl, t, rfl⟩
      exact absurd rfl (hother t)

theorem closes_iff (h : '\n' ∉ cs) : closes cs ↔ IsEnd cs := by
  rw [isEnd_iff]
  unfold closes
  split
  · rename_i hnil
    simp [hnil, IsTail]
  · rename_i hne
    rw [Option.isSome_iff_exists]
    simp only [comment?_eq_some (not_mem_dropBlanks h)]
    constructor
    · rintro ⟨_, rfl, ht⟩
      exact .inr ht
    · rintro (hnil | ht)
      · exact absurd hnil hne
      · exact ⟨_, rfl, ht⟩

/-! ## Keys and names -/

/-- A key. -/
def IsKey : List Char → Prop :=
  IsRun isKeyStart isKeyChar

/-- The name of a dependency. -/
def IsName : List Char → Prop :=
  IsRun isNameStart isKeyChar

/-- Keys are names that do not start with a point. -/
theorem IsKey.isName (hk : IsKey k) : IsName k := by
  obtain ⟨c, cs, rfl, hc, hcs⟩ := hk
  have hstart : isNameStart c := by
    simp only [isKeyStart] at hc
    simp only [isNameStart, hc, Bool.true_or]
  exact ⟨c, cs, rfl, hstart, hcs⟩

theorem IsName.chars (h : IsName u) : ∀ c ∈ u, isKeyChar c := by
  refine IsRun.forall h fun c hc => ?_
  simp only [isNameStart, Bool.or_eq_true] at hc
  rcases hc with (hc | hc) | hc <;> simp [isKeyChar, hc]

theorem IsKey.not_mem (hk : IsKey k) (hc : isKeyChar c = false) : c ∉ k := by
  intro hmem
  rw [hk.isName.chars c hmem] at hc
  cases hc

theorem isKeyChar_of_isBlank (h : isBlank c) : isKeyChar c = false := by
  have hle : ∀ a b : Char, (a ≤ b) = (a.toNat ≤ b.toNat) := fun _ _ => rfl
  rw [Bool.eq_false_iff]
  intro hkey
  simp only [isBlank, isKeyChar, isLetter, isDigit, Bool.or_eq_true, Bool.and_eq_true,
    decide_eq_true_eq, beq_iff_eq, hle, ← Char.toNat_inj] at h hkey
  simp at h hkey
  omega

theorem IsName.stops_isBlank (h : IsName u) : Stops isBlank (u ++ rest) :=
  stops_append_of_disjoint (IsRun.ne_nil h) h.chars fun _ _ => isKeyChar_of_isBlank

theorem stops_isKeyChar (hw : Blanks w) (hrest : Stops isKeyChar rest) :
    Stops isKeyChar (w ++ rest) :=
  Stops.append (fun c hc => isKeyChar_of_isBlank (hw c hc)) hrest

/-- A key is read with the blanks behind it. -/
theorem key_eq_some : key cs = some (k, rest) ↔
    ∃ w, cs = k ++ (w ++ rest) ∧ IsKey k ∧ Blanks w ∧ Stops isKeyChar (w ++ rest) ∧
      Stops isBlank rest := by
  unfold key
  rw [Option.map_eq_some_iff]
  constructor
  · rintro ⟨⟨k', behind⟩, hrun, hpair⟩
    obtain ⟨rfl, hrest⟩ := Prod.mk.inj hpair
    obtain ⟨rfl, hk, hstops⟩ := run_eq_some.mp hrun
    obtain ⟨w, rfl, hw, hstopsRest⟩ := dropBlanks_eq.mp hrest
    exact ⟨w, rfl, hk, hw, hstops, hstopsRest⟩
  · rintro ⟨w, rfl, hk, hw, hstops, hrest⟩
    exact ⟨(k, w ++ rest), run_eq_some.mpr ⟨rfl, hk, hstops⟩,
      Prod.ext rfl (dropBlanks_append hw hrest)⟩

/-- The key of a line is what stands in front of the sign of an operator. -/
theorem key_append_sign (op : Operator) (hk : IsKey k) (hw : Blanks w) :
    key (k ++ (w ++ op.sign :: rest)) = some (k, op.sign :: rest) := by
  have hkey : isKeyChar op.sign = false := by cases op <;> decide
  have hblank : isBlank op.sign = false := by cases op <;> decide
  exact key_eq_some.mpr ⟨w, rfl, hk, hw, stops_isKeyChar hw (stops_cons.mpr hkey),
    stops_cons.mpr hblank⟩

/-! ## Names of dependencies -/

/-- What stands behind the reference of a dependency: perhaps a name in brackets, and the
end of the line. -/
inductive NameEnd : List Char → Option String → Prop where
  | plain {cs : List Char} : IsEnd cs → NameEnd cs none
  | named {w₁ w₂ a w₃ rest : List Char} : Blanks w₁ → Blanks w₂ → IsName a → Blanks w₃ →
      IsEnd rest →
      NameEnd (w₁ ++ '[' :: (w₂ ++ (a ++ (w₃ ++ ']' :: rest)))) (some (String.ofList a))

theorem bracketedName?_eq_some : bracketedName? cs = some (u, rest) ↔
    ∃ w₁ w₂, cs = '[' :: (w₁ ++ (u ++ (w₂ ++ ']' :: rest))) ∧ Blanks w₁ ∧ IsName u ∧
      Blanks w₂ := by
  constructor
  · intro h
    unfold bracketedName? at h
    split at h
    · split at h
      · cases h
      · rename_i inner name behind hrun
        split at h
        · rename_i rest' hbracket
          cases h
          obtain ⟨hinner, hname, -⟩ := run_eq_some.mp hrun
          obtain ⟨w₁, rfl, hw₁, -⟩ := dropBlanks_eq.mp hinner
          obtain ⟨w₂, rfl, hw₂, -⟩ := dropBlanks_eq.mp hbracket
          exact ⟨w₁, w₂, rfl, hw₁, hname, hw₂⟩
        · cases h
    · cases h
  · rintro ⟨w₁, w₂, rfl, hw₁, hname, hw₂⟩
    have hinner : dropBlanks (w₁ ++ (u ++ (w₂ ++ ']' :: rest))) = u ++ (w₂ ++ ']' :: rest) :=
      dropBlanks_append hw₁ hname.stops_isBlank
    have hrun : run isNameStart isKeyChar (u ++ (w₂ ++ ']' :: rest)) =
        some (u, w₂ ++ ']' :: rest) :=
      run_eq_some.mpr ⟨rfl, hname, stops_isKeyChar hw₂ (stops_cons.mpr rfl)⟩
    have hbracket : dropBlanks (w₂ ++ ']' :: rest) = ']' :: rest :=
      dropBlanks_append hw₂ (stops_cons.mpr rfl)
    simp only [bracketedName?, hinner, hrun, hbracket]

theorem dependencyEnd_eq_some {name : Option String} (hfeed : '\n' ∉ cs) :
    dependencyEnd cs = some name ↔ NameEnd cs name := by
  constructor
  · intro h
    unfold dependencyEnd at h
    split at h
    · rename_i a rest hname
      obtain ⟨hcloses, hend⟩ := Option.ite_none_right_eq_some.mp h
      cases hend
      obtain ⟨w₂, w₃, hbracket, hw₂, ha, hw₃⟩ := bracketedName?_eq_some.mp hname
      obtain ⟨w₁, rfl, hw₁, -⟩ := dropBlanks_eq.mp hbracket
      have hfeed : '\n' ∉ rest := fun hmem => hfeed (by simp [hmem])
      exact .named hw₁ hw₂ ha hw₃ ((closes_iff hfeed).mp hcloses)
    · obtain ⟨hcloses, hend⟩ := Option.ite_none_right_eq_some.mp h
      cases hend
      exact .plain ((closes_iff hfeed).mp hcloses)
  · intro h
    cases h with
    | plain hend =>
        have hnone : bracketedName? (dropBlanks cs) = none := by
          rcases isEnd_iff.mp hend with hnil | ⟨t, hcomment⟩
          · rw [hnil]
            rfl
          · rw [hcomment]
            rfl
        simp only [dependencyEnd, hnone, (closes_iff hfeed).mpr hend, if_true]
    | @named w₁ w₂ a w₃ rest hw₁ hw₂ ha hw₃ hend =>
        have hfeed : '\n' ∉ rest := fun hmem => hfeed (by simp [hmem])
        have hname : bracketedName? ('[' :: (w₂ ++ (a ++ (w₃ ++ ']' :: rest)))) =
            some (a, rest) := bracketedName?_eq_some.mpr ⟨w₂, w₃, rfl, hw₂, ha, hw₃⟩
        have hbracket : dropBlanks (w₁ ++ '[' :: (w₂ ++ (a ++ (w₃ ++ ']' :: rest)))) =
            '[' :: (w₂ ++ (a ++ (w₃ ++ ']' :: rest))) :=
          dropBlanks_append hw₁ (stops_cons.mpr rfl)
        simp only [dependencyEnd, hbracket, hname, (closes_iff hfeed).mpr hend, if_true]

/-! ## Values -/

/-- A value: no comment in it, no blanks around it, and no character of an operator in
front. -/
structure IsValue (v : List Char) : Prop where
  uncommented : '#' ∉ v
  front : Stops isBlank v
  back : Stops isBlank v.reverse
  unsigned : Stops (fun c => c == '=' || c == '@' || c == '%') v

theorem IsValue.closesBlock_eq_false (hv : IsValue v) : closesBlock v = false := by
  unfold closesBlock
  split
  · have hsign := stops_cons.mp hv.unsigned
    cases hsign
  · rfl

theorem valueText?_eq_some (hfeed : '\n' ∉ cs) (hfront : Stops isBlank cs) :
    valueText? cs = some v ↔ ∃ rest, cs = v ++ rest ∧ IsValue v ∧ IsEnd rest := by
  have hsigned : ∀ text : List Char,
      (text.head? = some '=' ∨ text.head? = some '@' ∨ text.head? = some '%') ↔
        ¬ Stops (fun c => c == '=' || c == '@' || c == '%') text := by
    intro text
    cases text with
    | nil => simp
    | cons c cs => simp [← or_iff_not_imp_left]
  constructor
  · intro h
    obtain ⟨hunsigned, h⟩ := Option.ite_none_left_eq_some.mp h
    obtain ⟨hcloses, hend⟩ := Option.ite_none_right_eq_some.mp h
    rw [hsigned, not_not] at hunsigned
    obtain ⟨w, htext, hw, hback⟩ := dropBlanksEnd_eq.mp (Option.some.inj hend)
    have hcs : cs = v ++ (w ++ cs.dropWhile (· != '#')) := by
      rw [← List.append_assoc, ← htext, List.takeWhile_append_dropWhile]
    have huncommented : '#' ∉ v := by
      intro hmem
      have hmem : '#' ∈ cs.takeWhile (· != '#') := htext ▸ List.mem_append_left w hmem
      simpa using List.mem_takeWhile_imp hmem
    have hrest : '\n' ∉ cs.dropWhile (· != '#') := fun hmem =>
      hfeed ((List.dropWhile_sublist _).subset hmem)
    rw [htext] at hunsigned
    rw [hcs] at hfront
    exact ⟨_, hcs, ⟨huncommented, hfront.of_append, hback, hunsigned.of_append⟩,
      ((closes_iff hrest).mp hcloses).append hw⟩
  · rintro ⟨rest, rfl, hv, w, c, rfl, hw, hc⟩
    have hcomment : Stops (· != '#') c := hc.stops rfl
    have hword : ∀ d ∈ v ++ w, d != '#' := by
      intro d hd
      rw [bne_iff_ne]
      rintro rfl
      rcases List.mem_append.mp hd with hd | hd
      · exact hv.uncommented hd
      · cases hw _ hd
    have hunsigned : Stops (fun c => c == '=' || c == '@' || c == '%') (v ++ w) := by
      cases v with
      | nil =>
          -- Blanks behind nothing would stand in front.
          cases w with
          | nil => exact stops_nil
          | cons d w =>
              have hd := stops_cons.mp hfront
              rw [hw d List.mem_cons_self] at hd
              cases hd
      | cons d v => exact stops_cons.mpr (stops_cons.mp hv.unsigned)
    have hcloses : closes c := (closes_iff fun hmem => hfeed (by simp [hmem])).mpr hc.isEnd
    rw [← List.append_assoc, valueText?]
    simp only [Text.takeWhile_append hword hcomment, Text.dropWhile_append hword hcomment]
    rw [if_neg (by rw [hsigned, not_not]; exact hunsigned), if_pos hcloses]
    exact congrArg some (dropBlanksEnd_eq.mpr ⟨w, rfl, hw, hv.back⟩)

/-- A value is read behind any blanks. -/
theorem valueText?_append (hw : Blanks w) (hv : IsValue v) (hend : IsEnd rest)
    (hfeed : '\n' ∉ w ++ (v ++ rest)) :
    valueText? (dropBlanks (w ++ (v ++ rest))) = some v := by
  rw [valueText?_eq_some (not_mem_dropBlanks hfeed) (Text.stops_dropWhile isBlank _)]
  cases v with
  | nil =>
      exact ⟨_, rfl, hv, (isEnd_iff.mp (hend.append hw)).isEnd⟩
  | cons c v =>
      have hfront : Stops isBlank (c :: v ++ rest) := stops_cons.mpr (stops_cons.mp hv.front)
      rw [dropBlanks_append hw hfront]
      exact ⟨rest, rfl, hv, hend⟩

end Line

end ExerciseDoc
