import ExerciseDoc.Proofs.Line.Exclusive

/-!
# Line — blanks behind a text

Blanks at the end of a line change nothing in most of its parts. A reader that finds a key,
a sign, a word, a name in brackets or a value finds the same with more blanks behind the
text, and what it leaves differs in the same way (`Padded`, `ReadsAlike`). So every shape
without a reference at its end reads a line as it does without these blanks, unless there is
a comment, which has them as a part of its text.
-/

namespace ExerciseDoc.Line

open Text (Reader isBlank isWord inRanges inRanges_iff dropBlanks dropBlanksEnd allBlank run
  Stops stops_nil stops_cons Blanks blanks_nil run_eq_some exists_dropBlanks
  not_mem_dropBlanks dropBlanks_append dropBlanks_eq_nil allBlank_iff)

variable {c : Char} {cs cs' front rest k s : List Char}

/-! ## Blanks and words -/

/-- No range of one table meets a range of the other. -/
def apart (table table' : List (Nat × Nat)) : Bool :=
  table.all fun r => table'.all fun r' => Nat.blt r.2 r'.1 || Nat.blt r'.2 r.1

theorem inRanges_of_apart {table table' : List (Nat × Nat)} (h : apart table table')
    (hc : inRanges table' c) : inRanges table c = false := by
  rw [Bool.eq_false_iff]
  intro hmem
  obtain ⟨r, hr, hlow, hhigh⟩ := inRanges_iff.mp hmem
  obtain ⟨r', hr', hlow', hhigh'⟩ := inRanges_iff.mp hc
  have hmeet := List.all_eq_true.mp (List.all_eq_true.mp h r hr) r' hr'
  simp at hmeet
  omega

/-- Blanks as a table of ranges. -/
def blankRanges : List (Nat × Nat) :=
  [(0x09, 0x0D), (0x20, 0x20), (0x85, 0x85), (0xA0, 0xA0), (0x1680, 0x1680), (0x2000, 0x200A),
    (0x2028, 0x2029), (0x202F, 0x202F), (0x205F, 0x205F), (0x3000, 0x3000)]

theorem inRanges_of_isBlank (h : isBlank c) : inRanges blankRanges c := by
  simp [isBlank] at h
  simp [inRanges, blankRanges]
  omega

/-- No blank is a character of a word. -/
theorem isWord_of_isBlank (h : isBlank c) : isWord c = false :=
  inRanges_of_apart (by decide +kernel : apart Text.wordRanges blankRanges)
    (inRanges_of_isBlank h)

/-! ## Blanks behind a text -/

/-- The second text is the first one with blanks behind it, and there is no comment in it. -/
structure Padded (cs cs' : List Char) : Prop where
  uncommented : '#' ∉ cs
  padding : ∃ s, cs' = cs ++ s ∧ Blanks s

theorem padded_append (h : '#' ∉ cs) (hs : Blanks s) : Padded cs (cs ++ s) :=
  ⟨h, s, rfl, hs⟩

/-- Blanks that are put behind a text leave the front of it as it is, if that ends with
none. -/
theorem eq_append_of_append_blanks (hs : Blanks s) (hback : Stops isBlank front.reverse)
    (h : cs ++ s = front ++ rest) : ∃ behind, cs = front ++ behind ∧ rest = behind ++ s := by
  rcases List.append_eq_append_iff.mp h with ⟨x, rfl, rfl⟩ | ⟨x, hcs, hrest⟩
  · cases x using List.reverseRecOn with
    | nil => exact ⟨[], by simp⟩
    | append_singleton x c =>
        have hc := hs c (by simp)
        rw [← List.append_assoc, List.reverse_concat, stops_cons] at hback
        rw [hback] at hc
        cases hc
  · exact ⟨x, hcs, hrest⟩

namespace Padded

/-- What stands behind a common front differs in the same blanks. -/
theorem exists_behind (h : Padded (front ++ rest) cs') :
    ∃ rest', cs' = front ++ rest' ∧ Padded rest rest' := by
  obtain ⟨huncommented, s, rfl, hs⟩ := h
  exact ⟨rest ++ s, List.append_assoc _ _ _,
    padded_append (fun hmem => huncommented (List.mem_append_right front hmem)) hs⟩

/-- A front of the longer text that ends with no blank is one of the shorter text. -/
theorem exists_before (h : Padded cs (front ++ rest)) (hback : Stops isBlank front.reverse) :
    ∃ behind, cs = front ++ behind ∧ Padded behind rest := by
  obtain ⟨huncommented, s, happend, hs⟩ := h
  obtain ⟨behind, rfl, rfl⟩ := eq_append_of_append_blanks hs hback happend.symm
  exact ⟨behind, rfl,
    padded_append (fun hmem => huncommented (List.mem_append_right front hmem)) hs⟩

theorem uncommented_behind (h : Padded cs cs') : '#' ∉ cs' := by
  obtain ⟨huncommented, s, rfl, hs⟩ := h
  intro hmem
  rcases List.mem_append.mp hmem with hmem | hmem
  · exact huncommented hmem
  · cases hs _ hmem

theorem allBlank_eq (h : Padded cs cs') : allBlank cs' = allBlank cs := by
  obtain ⟨-, s, rfl, hs⟩ := h
  have hs : s.all isBlank = true := List.all_eq_true.mpr hs
  simp [allBlank, hs]

/-- Behind skipped blanks the texts still differ in blanks at their end, or both are empty. -/
theorem dropBlanks (h : Padded cs cs') : Padded (dropBlanks cs) (dropBlanks cs') := by
  obtain ⟨huncommented, s, rfl, hs⟩ := h
  obtain ⟨w, hcs, hw, hstops⟩ := exists_dropBlanks cs
  refine ⟨not_mem_dropBlanks huncommented, ?_⟩
  cases hrest : Text.dropBlanks cs with
  | nil =>
      have hall : Blanks (cs ++ s) :=
        List.forall_mem_append.mpr ⟨dropBlanks_eq_nil.mp hrest, hs⟩
      exact ⟨[], dropBlanks_eq_nil.mpr hall, blanks_nil⟩
  | cons c rest =>
      rw [hrest] at hcs hstops
      refine ⟨s, ?_, hs⟩
      rw [hcs, List.append_assoc]
      exact dropBlanks_append hw (stops_cons.mpr (stops_cons.mp hstops))

/-- Both texts stop what no blank fits, or neither does. -/
theorem stops_iff {p : Char → Bool} (hp : ∀ c, isBlank c → p c = false) (h : Padded cs cs') :
    Stops p cs' ↔ Stops p cs := by
  obtain ⟨-, s, rfl, hs⟩ := h
  cases cs with
  | nil =>
      have hend : Stops p (s ++ []) := Stops.append (fun c hc => hp c (hs c hc)) stops_nil
      simpa using hend
  | cons c rest => simp

theorem dropBlanksEnd_eq (h : Padded cs cs') : dropBlanksEnd cs' = dropBlanksEnd cs := by
  obtain ⟨-, s, rfl, hs⟩ := h
  have hreverse : ∀ c ∈ s.reverse, isBlank c := fun c hc => hs c (List.mem_reverse.mp hc)
  rw [dropBlanksEnd, List.reverse_append, List.dropWhile_append_of_pos hreverse]
  rfl

end Padded

/-! ## Readers of parts -/

theorem comment?_eq_none (h : '#' ∉ cs) : comment? cs = none := by
  unfold comment?
  split
  · exact absurd List.mem_cons_self h
  · rfl

/-- A text without a comment closes a line if it is blank. -/
theorem closes_of_uncommented (h : '#' ∉ cs) : closes cs = allBlank cs := by
  unfold closes
  split
  · rename_i hrest
    exact (allBlank_iff.mpr (dropBlanks_eq_nil.mp hrest)).symm
  · rename_i hrest
    have hblank : allBlank cs = false := by
      rw [Bool.eq_false_iff]
      intro hall
      exact hrest (dropBlanks_eq_nil.mpr (allBlank_iff.mp hall))
    rw [comment?_eq_none (not_mem_dropBlanks h), hblank]
    rfl

theorem Padded.closes_eq (h : Padded cs cs') : closes cs' = closes cs := by
  rw [closes_of_uncommented h.uncommented, closes_of_uncommented h.uncommented_behind,
    h.allBlank_eq]

/-- The reader refuses both texts, or finds the same and leaves texts that differ in blanks
at their end again. -/
def ReadsAlike {α : Type} (p : Reader α) (cs cs' : List Char) : Prop :=
  (p cs = none ∧ p cs' = none) ∨
    ∃ a rest rest', p cs = some (a, rest) ∧ p cs' = some (a, rest') ∧ Padded rest rest'

/-- A reader whose texts end with no blank reads alike. -/
theorem Padded.readsAlike {α : Type} {p : Reader α} {F : α → List Char → Prop}
    (hp : ∀ cs a rest, p cs = some (a, rest) ↔ ∃ front, F a front ∧ cs = front ++ rest)
    (hF : ∀ a front, F a front → Stops isBlank front.reverse) (h : Padded cs cs') :
    ReadsAlike p cs cs' := by
  cases hread : p cs with
  | some found =>
      obtain ⟨a, rest⟩ := found
      obtain ⟨front, hfront, rfl⟩ := (hp _ _ _).mp hread
      obtain ⟨rest', rfl, hrest⟩ := h.exists_behind
      exact .inr ⟨a, rest, rest', hread, (hp _ _ _).mpr ⟨front, hfront, rfl⟩, hrest⟩
  | none =>
      cases hread' : p cs' with
      | none => exact .inl ⟨hread, hread'⟩
      | some found =>
          obtain ⟨a, rest'⟩ := found
          obtain ⟨front, hfront, rfl⟩ := (hp _ _ _).mp hread'
          obtain ⟨rest, rfl, -⟩ := h.exists_before (hF a front hfront)
          rw [(hp _ _ _).mpr ⟨front, hfront, rfl⟩] at hread
          cases hread

/-- A word ends where blanks begin. -/
theorem Padded.run {first more : Char → Bool} (hfirst : ∀ c, isBlank c → first c = false)
    (hmore : ∀ c, isBlank c → more c = false) (h : Padded cs cs') :
    ReadsAlike (run first more) cs cs' := by
  cases hread : Text.run first more cs with
  | some found =>
      obtain ⟨word, rest⟩ := found
      obtain ⟨rfl, hword, hrest⟩ := run_eq_some.mp hread
      obtain ⟨rest', rfl, hpadded⟩ := h.exists_behind
      exact .inr ⟨word, rest, rest', hread,
        run_eq_some.mpr ⟨rfl, hword, (hpadded.stops_iff hmore).mpr hrest⟩, hpadded⟩
  | none =>
      have hnone : Stops first cs := by
        intro c hc
        obtain ⟨tail, rfl⟩ := List.head?_eq_some_iff.mp hc
        by_contra hfirst
        simp [Text.run, hfirst] at hread
      refine .inl ⟨hread, ?_⟩
      have hnone' := (h.stops_iff hfirst).mpr hnone
      cases cs' with
      | nil => rfl
      | cons c tail => simp [Text.run, stops_cons.mp hnone']

theorem isKeyStart_of_isBlank (h : isBlank c) : isKeyStart c = false := by
  have hkey := isKeyChar_of_isBlank h
  simp only [isKeyChar, Bool.or_eq_false_iff] at hkey
  simp [isKeyStart, hkey]

theorem Padded.key (h : Padded cs cs') : ReadsAlike key cs cs' := by
  rcases h.run (fun _ => isKeyStart_of_isBlank) (fun _ => isKeyChar_of_isBlank) with
    ⟨hnone, hnone'⟩ | ⟨k, rest, rest', hk, hk', hrest⟩
  · exact .inl ⟨by simp [Line.key, hnone], by simp [Line.key, hnone']⟩
  · exact .inr ⟨k, Text.dropBlanks rest, Text.dropBlanks rest', by simp [Line.key, hk],
      by simp [Line.key, hk'], hrest.dropBlanks⟩

/-- The tokens of operators end with no blank. -/
theorem Padded.operator {α : Type} {table : List (List Char × α)} (hfree : PrefixFree table)
    (htokens : ∀ x ∈ table, Stops isBlank x.1.reverse) (h : Padded cs cs') :
    ReadsAlike (operator table) cs cs' :=
  h.readsAlike (F := fun a token => (token, a) ∈ table) (fun _ _ _ => operator_eq_some hfree)
    fun a token hmem => htokens (token, a) hmem

theorem Padded.bracketedName? (h : Padded cs cs') : ReadsAlike bracketedName? cs cs' := by
  refine h.readsAlike (F := fun u front => ∃ w₁ w₂, front = '[' :: (w₁ ++ (u ++ (w₂ ++ [']']))) ∧
    Blanks w₁ ∧ IsName u ∧ Blanks w₂) ?_ ?_
  · intro cs u rest
    rw [bracketedName?_eq_some]
    constructor
    · rintro ⟨w₁, w₂, rfl, hparts⟩
      exact ⟨_, ⟨w₁, w₂, rfl, hparts⟩, by simp⟩
    · rintro ⟨_, ⟨w₁, w₂, rfl, hparts⟩, rfl⟩
      exact ⟨w₁, w₂, by simp, hparts⟩
  · rintro u _ ⟨w₁, w₂, rfl, -⟩
    simp [isBlank]

theorem Padded.dependencyEnd_eq (h : Padded cs cs') : dependencyEnd cs' = dependencyEnd cs := by
  rcases h.dropBlanks.bracketedName? with ⟨hnone, hnone'⟩ | ⟨a, rest, rest', ha, ha', hrest⟩
  · simp only [dependencyEnd, hnone, hnone', h.closes_eq]
  · simp only [dependencyEnd, ha, ha', hrest.closes_eq]

theorem Padded.valueText?_eq (h : Padded cs cs') : valueText? cs' = valueText? cs := by
  have htext : ∀ {cs : List Char}, '#' ∉ cs →
      cs.takeWhile (· != '#') = cs ∧ cs.dropWhile (· != '#') = [] := by
    intro cs hcs
    have hall : ∀ c ∈ cs, (c != '#') = true := fun c hc => by
      rw [bne_iff_ne]
      exact ne_of_mem_of_not_mem hc hcs
    exact ⟨List.takeWhile_eq_self_iff.mpr hall, List.dropWhile_eq_nil_iff.mpr hall⟩
  have hhead : ∀ c, isBlank c = false → (cs'.head? = some c ↔ cs.head? = some c) := by
    intro c hc
    obtain ⟨-, s, rfl, hs⟩ := h
    cases cs with
    | nil =>
        cases s with
        | nil => simp
        | cons d s =>
            have hd := hs d List.mem_cons_self
            have hne : d ≠ c := by
              rintro rfl
              rw [hc] at hd
              cases hd
            simp [hne]
    | cons d cs => simp
  simp only [valueText?, htext h.uncommented, htext h.uncommented_behind, h.dropBlanksEnd_eq,
    hhead '=' rfl, hhead '@' rfl, hhead '%' rfl]

/-! ## Shapes without a reference at the end -/

theorem component?_eq_none (hk : key cs = some (k, rest))
    (hsign : ¬ ∃ behind, rest = ['=', ':'] ++ behind) : component? cs = none := by
  unfold component?
  split
  · rename_i hk'
    rw [hk] at hk'
    cases hk'
    exact absurd ⟨_, rfl⟩ hsign
  · rfl

theorem Padded.component?_eq (h : Padded cs cs') : component? cs' = component? cs := by
  rcases h.key with ⟨hnone, hnone'⟩ | ⟨k, rest, rest', hk, hk', hrest⟩
  · simp only [component?, hnone, hnone']
  · by_cases hsign : ∃ behind, rest = ['=', ':'] ++ behind
    · obtain ⟨behind, rfl⟩ := hsign
      obtain ⟨behind', rfl, hbehind⟩ := hrest.exists_behind
      simp only [List.cons_append, List.nil_append] at hk hk'
      rcases hbehind.dropBlanks.run (fun _ => isWord_of_isBlank) (fun _ => isWord_of_isBlank)
        with ⟨hname, hname'⟩ | ⟨name, tail, tail', hname, hname', htail⟩
      · simp only [component?, hk, hk', hname, hname']
      · simp only [component?, hk, hk', hname, hname', htail.closes_eq]
    · have hsign' : ¬ ∃ behind, rest' = ['=', ':'] ++ behind := by
        rintro ⟨behind', rfl⟩
        obtain ⟨behind, rfl, -⟩ := hrest.exists_before (by simp [isBlank])
        exact hsign ⟨behind, rfl⟩
      rw [component?_eq_none hk hsign, component?_eq_none hk' hsign']

theorem commentLine?_eq_none (h : '#' ∉ cs) : commentLine? cs = none := by
  rw [commentLine?, comment?_eq_none (not_mem_dropBlanks h)]
  rfl

theorem Padded.commentLine?_eq (h : Padded cs cs') : commentLine? cs' = commentLine? cs := by
  rw [commentLine?_eq_none h.uncommented, commentLine?_eq_none h.uncommented_behind]

theorem Padded.value?_eq (h : Padded cs cs') : value? cs' = value? cs := by
  rcases h.key with ⟨hnone, hnone'⟩ | ⟨k, rest, rest', hk, hk', hrest⟩
  · simp only [value?, hnone, hnone']
  · have hsigns : ∀ x ∈ valueOperators, Stops isBlank x.1.reverse := by
      simp [valueOperators, isBlank]
    rcases hrest.operator (by decide) hsigns with ⟨hop, hop'⟩ | ⟨op, behind, behind', hop, hop', hbehind⟩
    · simp only [value?, hk, hk', hop, hop']
    · simp only [value?, hk, hk', hop, hop', hbehind.dropBlanks.valueText?_eq]

theorem Padded.openBlock?_eq (h : Padded cs cs') : openBlock? cs' = openBlock? cs := by
  rcases h.key with ⟨hnone, hnone'⟩ | ⟨k, rest, rest', hk, hk', hrest⟩
  · simp only [openBlock?, hnone, hnone']
  · have hsigns : ∀ x ∈ blockOperators, Stops isBlank x.1.reverse := by
      simp [blockOperators, isBlank]
    rcases hrest.operator (by decide) hsigns with ⟨hop, hop'⟩ | ⟨op, behind, behind', hop, hop', hbehind⟩
    · simp only [openBlock?, hk, hk', hop, hop']
    · simp only [openBlock?, hk, hk', hop, hop', hbehind.closes_eq]

theorem Padded.blank?_eq (h : Padded cs cs') : blank? cs' = blank? cs := by
  simp only [blank?, h.allBlank_eq]

end ExerciseDoc.Line
