import ExerciseDoc.Proofs.Line.Exclusive

/-!
# Line — dependencies with a name

The name of a dependency stands in brackets behind its reference, and blanks can stand
between and around the parts. A bracket can belong to a reference, though, and the longest
reference is taken: so one gap anywhere between the reference and the closing bracket is
needed, and it is enough (`classify_named_dependency`).
-/

namespace ExerciseDoc.Line

open Text (isLetter isDigit isBlank Stops stops_cons Blanks)

variable {c : Char} {a u v w w₀ w₁ w₂ w₃ rest : List Char}

/-! ## Schemes -/

/-- The characters of a scheme. -/
def isSchemeChar (c : Char) : Bool :=
  isLetter c || isDigit c || c == '_'

/-- A reference, perhaps behind a scheme and a colon. -/
def IsUri (u : List Char) : Prop :=
  IsReference u ∨ ∃ scheme v, (∀ c ∈ scheme, isSchemeChar c) ∧ IsReference v ∧
    u = scheme ++ ':' :: v

theorem isReferenceChar_of_isKeyChar (h : isKeyChar c) : isReferenceChar c := by
  by_contra hc
  simp only [isReferenceChar, Bool.and_eq_true, bne_iff_ne, ne_eq, not_and_or, not_not] at hc
  rcases hc with ((((((rfl | rfl) | rfl) | rfl) | rfl) | rfl) | rfl) | rfl <;> cases h

theorem isReferenceChar_of_isSchemeChar (h : isSchemeChar c) : isReferenceChar c := by
  apply isReferenceChar_of_isKeyChar
  simp only [isSchemeChar] at h
  simp [isKeyChar, h]

/-- A scheme adds nothing to the language of references. -/
theorem IsUri.isReference (h : IsUri u) : IsReference u := by
  rcases h with hu | ⟨scheme, v, hscheme, hv, rfl⟩
  · exact hu
  · have hfront : ∀ c ∈ scheme ++ [':'], isReferenceChar c := by
      intro c hc
      rcases List.mem_append.mp hc with hc | hc
      · exact isReferenceChar_of_isSchemeChar (hscheme c hc)
      · rw [List.mem_singleton.mp hc]
        rfl
    have h : Continues false (scheme ++ [':'] ++ v) :=
      Continues.append hfront hv.continues (.inr (by simp))
    rw [List.append_assoc] at h
    exact isReference_iff.mpr (.inl h)

/-! ## The shape of a dependency -/

/-- No other shape comes before that of a dependency, or after it. -/
theorem classify_of_dependency {line : List Char} {d : Directive}
    (h : dependency? line = some d) : classify line = some d := by
  rw [classify_eq_byPrecedence, findSome?_read Shape.respects_byPrecedence]
  refine ⟨.dependency, h, ?_⟩
  intro s hs
  cases s <;> cases hs

/-- A dependency names the longest reference behind its blanks. -/
theorem classify_dependency_of_longest {name : Option String} {cs : List Char} (hw : Blanks w)
    (hfront : Stops isBlank cs) (h : Longest IsReference dependencyEnd cs u name) :
    classify ('@' :: (w ++ cs)) = some (.dependency (String.ofList u) name) := by
  apply classify_of_dependency
  rw [dependency?, pastBlanks_of_some hw hfront (reference_eq_some.mpr h)]
  rfl

/-! ## Names in brackets -/

/-- What stands behind the opening bracket: the name, gaps around it, and the closing
bracket. -/
def inBrackets (w₂ a w₃ : List Char) : List Char :=
  w₂ ++ (a ++ (w₃ ++ [']']))

theorem dependencyEnd_inBrackets (h₁ : Gap w₁) (h₂ : Gap w₂) (ha : IsName a) (h₃ : Gap w₃) :
    dependencyEnd (w₁ ++ '[' :: inBrackets w₂ a w₃) = some (some (String.ofList a)) := by
  have hgap : ∀ w, Gap w → '\n' ∉ w := by
    intro w hw hmem
    rcases hw _ hmem with h | h <;> cases h
  have hname : '\n' ∉ a := by
    intro hmem
    have hkey := ha.chars _ hmem
    cases hkey
  have hfeed : '\n' ∉ w₁ ++ '[' :: inBrackets w₂ a w₃ := by
    simp [inBrackets, hgap _ h₁, hgap _ h₂, hgap _ h₃, hname]
  rw [dependencyEnd_eq_some hfeed]
  exact .named h₁.blanks h₂.blanks ha h₃.blanks isEnd_nil

theorem mem_inBrackets (h₂ : Gap w₂) (ha : IsName a) (h₃ : Gap w₃)
    (hc : c ∈ inBrackets w₂ a w₃) : c = ' ' ∨ c = '\t' ∨ isKeyChar c ∨ c = ']' := by
  simp only [inBrackets, List.mem_append, List.mem_singleton] at hc
  rcases hc with hc | hc | hc | hc
  · exact or_assoc.mp (.inl (h₂ c hc))
  · exact .inr (.inr (.inl (ha.chars c hc)))
  · exact or_assoc.mp (.inl (h₃ c hc))
  · exact .inr (.inr (.inr hc))

/-- What is left of it behind some of its characters is no end of a dependency. -/
theorem dependencyEnd_of_suffix (h₂ : Gap w₂) (ha : IsName a) (h₃ : Gap w₃)
    (hne : rest ≠ []) (hsuffix : rest <:+ inBrackets w₂ a w₃) : dependencyEnd rest = none := by
  have hother : ∀ c ∈ rest, c ≠ '\n' ∧ c ≠ '#' ∧ c ≠ '[' := by
    intro c hc
    rcases mem_inBrackets h₂ ha h₃ (hsuffix.subset hc) with rfl | rfl | hkey | rfl
    · decide
    · decide
    · refine ⟨?_, ?_, ?_⟩ <;> (rintro rfl; cases hkey)
    · decide
  have hlast : ']' ∈ rest := by
    obtain ⟨front, hfront⟩ := hsuffix
    have h := congrArg List.getLast? hfront
    rw [List.getLast?_append_of_ne_nil _ hne] at h
    simp [inBrackets, ← List.append_assoc] at h
    exact List.mem_of_getLast? h
  rw [Option.eq_none_iff_forall_ne_some]
  intro name h
  rw [dependencyEnd_eq_some fun hfeed => (hother _ hfeed).1 rfl] at h
  cases h with
  | plain hend =>
      obtain ⟨w, tail, rfl, hw, rfl | ⟨text, rfl⟩⟩ := hend
      · -- The closing bracket is no blank.
        have hblank := hw ']' (by simpa using hlast)
        cases hblank
      · exact (hother '#' (by simp)).2.1 rfl
  | named => exact (hother '[' (by simp)).2.2 rfl

section Names

variable (hu : IsReference u) (h₁ : Gap w₁) (h₂ : Gap w₂) (ha : IsName a) (h₃ : Gap w₃)

include hu h₁ h₂ ha h₃

/-- With a gap somewhere, no longer reference leaves the end of a dependency behind it. -/
theorem longest_of_gap (hgap : ¬ (w₁ = [] ∧ w₂ = [] ∧ w₃ = [])) :
    Longest IsReference dependencyEnd (u ++ (w₁ ++ '[' :: inBrackets w₂ a w₃)) u
      (some (String.ofList a)) := by
  have hend := dependencyEnd_inBrackets h₁ h₂ ha h₃
  cases w₁ with
  | cons c w₁ =>
      have hstops : Stops isPathChar (c :: w₁ ++ '[' :: inBrackets w₂ a w₃) :=
        stops_cons.mpr (h₁.not_isPathChar List.mem_cons_self)
      exact longest_of_stops (fun _ h => h.chars) hu hstops hend
  | nil =>
      refine ⟨⟨_, rfl, hend⟩, hu, ?_⟩
      intro u' rest' happend hu' hsome
      by_contra hlonger
      obtain ⟨x, rfl, hx⟩ : ∃ x, u' = u ++ x ∧ '[' :: inBrackets w₂ a w₃ = x ++ rest' := by
        rcases List.append_eq_append_iff.mp happend with ⟨x, hu', hx⟩ | ⟨x, rfl, -⟩
        · exact ⟨x, hu', hx⟩
        · simp at hlonger
      cases x with
      | nil => simp at hlonger
      | cons d x =>
          rw [List.cons_append, List.cons.injEq] at hx
          obtain ⟨rfl, hinner⟩ := hx
          have hchars : ∀ c ∈ x, isPathChar c := fun c hc => hu'.chars c (by simp [hc])
          -- A reference up to the closing bracket has no gap in it.
          have hrest : rest' ≠ [] := by
            rintro rfl
            have hnone : ∀ w, Gap w → w ⊆ x → w = [] := by
              intro w hw hsub
              by_contra hne
              obtain ⟨c, hc⟩ := List.exists_mem_of_ne_nil w hne
              have hpath := hchars c (hsub hc)
              rw [hw.not_isPathChar hc] at hpath
              cases hpath
            rw [List.append_nil] at hinner
            subst hinner
            exact hgap ⟨rfl, hnone w₂ h₂ fun c hc => by simp [inBrackets, hc],
              hnone w₃ h₃ fun c hc => by simp [inBrackets, hc]⟩
          rw [dependencyEnd_of_suffix h₂ ha h₃ hrest ⟨x, hinner.symm⟩] at hsome
          cases hsome

end Names

/-- Without any gap the brackets and the name belong to the reference. -/
theorem longest_of_joined (hu : IsReference u) (ha : IsName a) :
    Longest IsReference dependencyEnd (u ++ '[' :: inBrackets [] a [])
      (u ++ '[' :: inBrackets [] a []) none := by
  have hchars : ∀ c ∈ '[' :: inBrackets [] a [], isReferenceChar c := by
    intro c hc
    rcases List.mem_cons.mp hc with rfl | hc
    · rfl
    · simp only [inBrackets, List.nil_append, List.mem_append, List.mem_singleton] at hc
      rcases hc with hc | rfl
      · exact isReferenceChar_of_isKeyChar (ha.chars c hc)
      · rfl
  have h := longest_of_stops (fun _ h => h.chars) (hu.append_chars hchars) Text.stops_nil
    (rfl : dependencyEnd [] = some none)
  rwa [List.append_nil] at h

/-- **Dependencies with a name.** Behind a reference without blanks, a name in brackets is the
name of the dependency, with spaces and tabs or without in front of the reference, in front
of the brackets and on both sides of the name. Only where there are none at all from the
reference to the closing bracket, the brackets are part of the reference and the dependency
has no name. -/
theorem classify_named_dependency {w₀ u w₁ w₂ a w₃ : List Char} (hu : IsUri u)
    (hplain : ∀ c ∈ u, isBlank c = false) (ha : IsName a) (h₀ : Gap w₀) (h₁ : Gap w₁)
    (h₂ : Gap w₂) (h₃ : Gap w₃) :
    classify ('@' :: (w₀ ++ (u ++ (w₁ ++ '[' :: (w₂ ++ (a ++ (w₃ ++ [']']))))))) =
      some (if w₁ = [] ∧ w₂ = [] ∧ w₃ = []
        then .dependency (String.ofList (u ++ '[' :: (a ++ [']']))) none
        else .dependency (String.ofList u) (some (String.ofList a))) := by
  have hreference := hu.isReference
  have hfront : Stops isBlank (u ++ (w₁ ++ '[' :: inBrackets w₂ a w₃)) :=
    Text.stops_append_of_disjoint hreference.ne_nil (q := fun c => !isBlank c)
      (fun c hc => by simp [hplain c hc]) (fun c _ hc => by simp [hc])
  split
  · rename_i hjoined
    obtain ⟨rfl, rfl, rfl⟩ := hjoined
    exact classify_dependency_of_longest h₀.blanks hfront (longest_of_joined hreference ha)
  · rename_i hgap
    exact classify_dependency_of_longest h₀.blanks hfront
      (longest_of_gap hreference h₁ h₂ ha h₃ hgap)

/-- A gap behind the opening bracket is enough, and a scheme is part of the reference. -/
theorem classify_named_dependency_inside :
    IsUri "lib:a.py".toList ∧ IsName "_b".toList ∧ Gap [' '] ∧
      classify "@lib:a.py[ _b]".toList = some (.dependency "lib:a.py" (some "_b")) := by
  have hu : IsUri "lib:a.py".toList :=
    .inr ⟨"lib".toList, "a.py".toList, List.all_eq_true.mp rfl,
      isReference_of_chars (by decide) (List.all_eq_true.mp rfl), rfl⟩
  have hplain : ∀ c ∈ "lib:a.py".toList, isBlank c = false := by simp [isBlank]
  have ha : IsName "_b".toList := ⟨'_', ['b'], rfl, rfl, List.all_eq_true.mp rfl⟩
  have hgap : Gap [' '] := by decide
  have hnone : Gap [] := by decide
  have h := classify_named_dependency hu hplain ha hnone hnone hgap hnone
  exact ⟨hu, ha, hgap, h⟩

/-- **A name without a gap is no name.** The reference takes the brackets. -/
theorem name_joined_to_reference :
    IsUri ['u'] ∧ IsName ['a'] ∧
      classify "@u[a]".toList = some (.dependency "u[a]" none) ∧
      classify "@u[a]".toList ≠ some (.dependency "u" (some "a")) := by
  have hu : IsUri ['u'] :=
    .inl (isReference_of_chars (by decide) (List.forall_mem_singleton.mpr rfl))
  have ha : IsName ['a'] := ⟨'a', [], rfl, rfl, List.forall_mem_nil _⟩
  exact ⟨hu, ha, rfl, by decide⟩

end ExerciseDoc.Line
