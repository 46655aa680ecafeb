import ExerciseDoc.Proofs.Line.Grammar
import ExerciseDoc.Proofs.Line.Keyed

/-!
# Line — which shapes exclude each other

A look at the front of a line tells most shapes apart (`look`): nothing but blanks, a comment,
the sign of a dependency, or a key and the characters behind it. Every shape stands in front
of few looks (`Shape.looks`), so two shapes that share none have no line in common. The
shapes that do overlap are seven pairs (`Shape.overlaps`), and only these need an order: any
order of the shapes that keeps it classifies every line alike (`shapes_exclusive`).
-/

namespace ExerciseDoc.Line

open Text (isBlank dropBlanks allBlank)

/-! ## Shapes -/

/-- The nine shapes of a line. -/
inductive Shape where
  | extends
  | fromFile
  | link
  | component
  | dependency
  | comment
  | value
  | openBlock
  | blank
  deriving DecidableEq, Repr

namespace Shape

/-- What a line says by the shape alone. -/
def read : Shape → List Char → Option Directive
  | .extends => extends?
  | .fromFile => fromFile?
  | .link => link?
  | .component => component?
  | .dependency => dependency?
  | .comment => commentLine?
  | .value => value?
  | .openBlock => openBlock?
  | .blank => blank?

/-- The shapes in the order in which a line is tried for them. -/
def byPrecedence : List Shape :=
  [.extends, .fromFile, .link, .component, .dependency, .comment, .value, .openBlock, .blank]

/-- A statement about every shape is one about these nine. -/
theorem forall_mem_byPrecedence {P : Shape → Prop} :
    (∀ s ∈ byPrecedence, P s) ↔ ∀ s, P s := by
  refine ⟨fun h s => h s ?_, fun h s _ => h s⟩
  cases s <;> decide

instance {P : Shape → Prop} [DecidablePred P] : Decidable (∀ s, P s) :=
  decidable_of_iff _ forall_mem_byPrecedence

/-- Whether some line has both shapes; the first one then takes precedence. -/
def overlaps : Shape → Shape → Bool
  | .extends, .fromFile => true
  | .extends, .link => true
  | .extends, .component => true
  | .extends, .value => true
  | .extends, .openBlock => true
  | .link, .value => true
  | .component, .value => true
  | _, _ => false

end Shape

theorem classify_eq_byPrecedence (cs : List Char) :
    classify cs = Shape.byPrecedence.findSome? fun s => s.read cs := by
  rw [classify_eq_findSome?]
  rfl

/-! ## The look of a line -/

/-- What the front of a line shows. -/
inductive Look where
  /-- Nothing but blanks. -/
  | nothing
  /-- `#`, perhaps behind blanks. -/
  | comment
  /-- `@`. -/
  | dependency
  /-- A key and a sign that loads a file. -/
  | file
  /-- A key, a sign and `$`. -/
  | link
  /-- A key, a sign and `:`. -/
  | component
  /-- A key, a sign and `=`. -/
  | block
  /-- Anything else. -/
  | other
  deriving DecidableEq, Repr

/-- What stands behind a key: a sign, and the characters that tell the shapes apart. -/
def lookBehind : List Char → Look
  | _ :: '@' :: _ => .file
  | _ :: '=' :: '@' :: _ => .file
  | _ :: '=' :: _ => .block
  | _ :: '$' :: _ => .link
  | _ :: ':' :: _ => .component
  | _ => .other

def look (cs : List Char) : Look :=
  match key cs with
  | some (_, rest) => lookBehind rest
  | none =>
    match dropBlanks cs with
    | [] => .nothing
    | '#' :: _ => .comment
    | '@' :: _ => .dependency
    | _ => .other

/-- What a line of the shape can show at its front. -/
def Shape.looks : Shape → List Look
  | .extends => [.file, .link, .component, .block, .other]
  | .fromFile => [.file]
  | .link => [.link]
  | .component => [.component]
  | .dependency => [.dependency]
  | .comment => [.comment]
  | .value => [.link, .component, .other]
  | .openBlock => [.block]
  | .blank => [.nothing]

/-- Two shapes that can show one front are a pair that overlaps. -/
theorem Shape.overlaps_of_looks : ∀ s s' : Shape, s ≠ s' → (∃ l ∈ s.looks, l ∈ s'.looks) →
    s.overlaps s' ∨ s'.overlaps s := by
  decide

variable {c : Char} {cs rest k : List Char} {d : Directive}

/-! ## Lines with a key -/

theorem look_of_key (h : key cs = some (k, rest)) : look cs = lookBehind rest := by
  rw [look, h]

/-- What stands behind a key is no comment and no dependency. -/
theorem lookBehind_mem (rest : List Char) : lookBehind rest ∈ Shape.extends.looks := by
  unfold lookBehind
  split <;> decide

theorem look_of_fromFile (h : fromFile? cs = some d) : look cs = .file := by
  unfold fromFile? at h
  split at h
  · cases h
  · rename_i k rest hkey
    split at h
    · cases h
    · rename_i op rest' hop
      obtain ⟨token, htoken, rfl⟩ := operator_file.mp hop
      rw [look_of_key hkey]
      rcases htoken with rfl | ⟨-, rfl⟩
      · rfl
      · rfl

theorem look_of_link (h : link? cs = some d) : look cs = .link := by
  unfold link? at h
  split at h
  · rename_i hkey
    exact look_of_key hkey
  · cases h

theorem look_of_component (h : component? cs = some d) : look cs = .component := by
  unfold component? at h
  split at h
  · rename_i hkey
    exact look_of_key hkey
  · cases h

/-- A value starts neither with `=` nor with `@`. -/
theorem valueText?_of_sign (hc : c = '=' ∨ c = '@') (cs : List Char) :
    valueText? (dropBlanks (c :: cs)) = none := by
  rcases hc with rfl | rfl <;> rfl

theorem look_of_value (h : value? cs = some d) : look cs ∈ Shape.value.looks := by
  unfold value? at h
  split at h
  · cases h
  · rename_i k rest hkey
    split at h
    · cases h
    · rename_i op rest' hop
      obtain ⟨v, hv, -⟩ := Option.map_eq_some_iff.mp h
      have hfront : ∀ c tail, rest' = c :: tail → ¬ (c = '=' ∨ c = '@') := by
        rintro c tail rfl hc
        rw [valueText?_of_sign hc] at hv
        cases hv
      rw [look_of_key hkey, operator_value.mp hop]
      -- Only the looks that need one of the two signs are left out.
      unfold lookBehind
      split
      · rename_i hrest
        exact absurd (.inr rfl) (hfront _ _ (List.cons.inj hrest).2)
      · rename_i hrest
        exact absurd (.inl rfl) (hfront _ _ (List.cons.inj hrest).2)
      · rename_i hrest
        exact absurd (.inl rfl) (hfront _ _ (List.cons.inj hrest).2)
      · decide
      · decide
      · decide

/-- No reference stands behind the sign of a block. -/
theorem closes_of_sign (cs : List Char) : closes ('@' :: cs) = false :=
  rfl

theorem look_of_openBlock (h : openBlock? cs = some d) : look cs = .block := by
  unfold openBlock? at h
  split at h
  · cases h
  · rename_i k rest hkey
    split at h
    · cases h
    · rename_i op rest' hop
      have hcloses := (Option.ite_none_right_eq_some.mp h).1
      rw [look_of_key hkey, operator_block.mp hop]
      unfold lookBehind
      split
      · rename_i hrest
        cases (List.cons.inj hrest).2
      · rename_i hrest
        cases (List.cons.inj hrest).2
        rw [closes_of_sign] at hcloses
        cases hcloses
      · rfl
      · rename_i hrest
        cases (List.cons.inj hrest).2
      · rename_i hrest
        cases (List.cons.inj hrest).2
      · rename_i hblock _ _
        exact absurd rfl (hblock _ _)

theorem look_of_extends (h : extends? cs = some d) : look cs ∈ Shape.extends.looks := by
  obtain ⟨word, w, rest, hword, rfl, hw, -⟩ := of_extends? h
  have hkey : key (word ++ (w ++ '=' :: rest)) = some (word, '=' :: rest) :=
    key_append_sign .assign (isKey_of_extending hword) hw
  rw [look_of_key hkey]
  exact lookBehind_mem _

/-! ## Lines without a key -/

/-- In front of a comment, and of nothing, there is no key. -/
theorem key_eq_none (h : ∀ c rest, dropBlanks cs = c :: rest → c = '#') : key cs = none := by
  cases hkey : key cs with
  | none => rfl
  | some found =>
      obtain ⟨k, rest⟩ := found
      obtain ⟨w, rfl, hk, -⟩ := key_eq_some.mp hkey
      obtain ⟨c, tail, rfl, -, hcomment, hblank⟩ := hk.head
      exact absurd (h c _ (Text.dropBlanks_cons_of_not _ hblank)) hcomment

theorem look_of_comment (h : commentLine? cs = some d) : look cs = .comment := by
  obtain ⟨text, htext, -⟩ := Option.map_eq_some_iff.mp h
  unfold comment? at htext
  split at htext
  · rename_i rest hrest
    have hkey : key cs = none := key_eq_none fun c rest' hrest' => by
      rw [hrest] at hrest'
      exact (List.cons.inj hrest').1.symm
    simp only [look, hkey, hrest]
  · cases htext

theorem look_of_blank (h : blank? cs = some d) : look cs = .nothing := by
  have hblank := (Option.ite_none_right_eq_some.mp h).1
  have hnothing : dropBlanks cs = [] := by
    simpa [dropBlanks, allBlank] using hblank
  have hkey : key cs = none := key_eq_none fun c rest hrest => by
    rw [hnothing] at hrest
    cases hrest
  rw [look, hkey, hnothing]

theorem look_of_dependency (h : dependency? cs = some d) : look cs = .dependency := by
  unfold dependency? at h
  split at h
  · rfl
  · cases h

/-- A line that has a shape shows one of the looks of the shape. -/
theorem Shape.look_mem {s : Shape} (h : s.read cs = some d) : look cs ∈ s.looks := by
  cases s with
  | «extends» => exact look_of_extends h
  | fromFile => exact List.mem_singleton.mpr (look_of_fromFile h)
  | link => exact List.mem_singleton.mpr (look_of_link h)
  | component => exact List.mem_singleton.mpr (look_of_component h)
  | dependency => exact List.mem_singleton.mpr (look_of_dependency h)
  | comment => exact List.mem_singleton.mpr (look_of_comment h)
  | value => exact look_of_value h
  | openBlock => exact List.mem_singleton.mpr (look_of_openBlock h)
  | blank => exact List.mem_singleton.mpr (look_of_blank h)

/-! ## Shapes that overlap -/

/-- Two shapes of one line are a pair that overlaps. -/
theorem overlaps_of_read {s s' : Shape} (hne : s ≠ s') {d' : Directive}
    (h : s.read cs = some d) (h' : s'.read cs = some d') : s.overlaps s' ∨ s'.overlaps s :=
  Shape.overlaps_of_looks s s' hne ⟨look cs, Shape.look_mem h, Shape.look_mem h'⟩

/-- Each pair that overlaps has a line in common. -/
theorem exists_line_of_overlaps {s s' : Shape} (h : s.overlaps s') :
    ∃ line, (s.read line).isSome ∧ (s'.read line).isSome := by
  match s, s', h with
  | .extends, .fromFile, _ => exact ⟨"extends =@x".toList, rfl, rfl⟩
  | .extends, .link, _ => exact ⟨"extends =$x".toList, rfl, rfl⟩
  | .extends, .component, _ => exact ⟨"extends =:x".toList, rfl, rfl⟩
  | .extends, .value, _ => exact ⟨"extends = x".toList, rfl, rfl⟩
  | .extends, .openBlock, _ => exact ⟨"extends ==".toList, rfl, rfl⟩
  | .link, .value, _ => exact ⟨"k =$ x".toList, rfl, rfl⟩
  | .component, .value, _ => exact ⟨"k =: x".toList, rfl, rfl⟩

/-! ## Orders of shapes -/

/-- The order has all shapes, and of two that overlap it has the first one first. -/
structure Shape.Respects (order : List Shape) : Prop where
  all : ∀ s, s ∈ order
  before : ∀ s s' : Shape, s.overlaps s' → order.idxOf s < order.idxOf s'

theorem Shape.respects_byPrecedence : Shape.Respects Shape.byPrecedence where
  all := by decide
  before := by decide

section Orders

variable {order : List Shape} (h : Shape.Respects order)

include h

/-- A line that is tried for the shapes in such an order says what the shape says that no
overlapping one precedes. -/
theorem first_of_findSome? (hfirst : order.findSome? (fun s => s.read cs) = some d) :
    ∃ s : Shape, s.read cs = some d ∧ ∀ s' : Shape, s'.overlaps s → s'.read cs = none := by
  obtain ⟨before, s, after, horder, hs, hbefore⟩ := List.findSome?_eq_some_iff.mp hfirst
  refine ⟨s, hs, fun s' hoverlaps => hbefore s' ?_⟩
  -- The other shape stands in front of this one, so it has been tried before.
  have hindex : order.idxOf s ≤ before.length := by
    rw [horder]
    by_cases hmem : s ∈ before
    · rw [List.idxOf_append_of_mem hmem]
      exact Nat.le_of_lt (List.idxOf_lt_length_of_mem hmem)
    · rw [List.idxOf_append_of_notMem hmem, List.idxOf_cons_self]
      exact Nat.le_refl _
  have htried : s' ∈ order.take before.length :=
    (List.mem_take_iff_idxOf_lt (h.all s')).mpr
      (Nat.lt_of_lt_of_le (h.before s' s hoverlaps) hindex)
  rwa [horder, List.take_left] at htried

/-- What a line says in such an order does not depend on the order. -/
theorem findSome?_read (cs : List Char) :
    order.findSome? (fun s => s.read cs) = some d ↔
      ∃ s : Shape, s.read cs = some d ∧ ∀ s' : Shape, s'.overlaps s → s'.read cs = none := by
  refine ⟨first_of_findSome? h, ?_⟩
  rintro ⟨s, hs, hprecedes⟩
  cases hfirst : order.findSome? (fun s => s.read cs) with
  | none =>
      rw [List.findSome?_eq_none_iff.mp hfirst s (h.all s)] at hs
      cases hs
  | some d' =>
      obtain ⟨s', hs', hprecedes'⟩ := first_of_findSome? h hfirst
      by_cases hsame : s = s'
      · rw [← hs, ← hs', hsame]
      · -- Two shapes of one line overlap, so one of them would have been preceded.
        rcases overlaps_of_read hsame hs hs' with hoverlaps | hoverlaps
        · rw [hprecedes' s hoverlaps] at hs
          cases hs
        · rw [hprecedes s' hoverlaps] at hs'
          cases hs'

end Orders

/-- **Shapes exclude each other.** Two shapes have a line in common, of whatever characters,
exactly if they are one of the seven pairs that overlap: the line that inherits with a file, a
link, a widget, a value and an open block, and a link and a widget with a value. So a line
says the same in every order of the shapes that has the first shape of each pair before the
second. -/
theorem shapes_exclusive :
    (∀ s s' : Shape, s ≠ s' →
      ((∃ line, (s.read line).isSome ∧ (s'.read line).isSome) ↔
        s.overlaps s' ∨ s'.overlaps s)) ∧
    (∀ order : List Shape, Shape.Respects order → ∀ line,
      order.findSome? (fun s => s.read line) = classify line) := by
  constructor
  · intro s s' hne
    constructor
    · rintro ⟨line, hs, hs'⟩
      obtain ⟨d, hd⟩ := Option.isSome_iff_exists.mp hs
      obtain ⟨d', hd'⟩ := Option.isSome_iff_exists.mp hs'
      exact overlaps_of_read hne hd hd'
    · rintro (h | h)
      · exact exists_line_of_overlaps h
      · obtain ⟨line, hs', hs⟩ := exists_line_of_overlaps h
        exact ⟨line, hs, hs'⟩
  · intro order h line
    refine Option.ext fun d => ?_
    rw [classify_eq_byPrecedence, findSome?_read h,
      findSome?_read Shape.respects_byPrecedence]

/-- An order of the shapes that starts like the usual one and is otherwise turned around. -/
def turnedOrder : List Shape :=
  [.extends, .blank, .openBlock, .comment, .dependency, .component, .link, .value, .fromFile]

/-- A link that could be a value, and two shapes without a line in common. -/
theorem shapes_exclusive_turned :
    Shape.link ≠ Shape.component ∧
      (¬ ∃ line, (Shape.link.read line).isSome ∧ (Shape.component.read line).isSome) ∧
      Shape.Respects turnedOrder ∧
      turnedOrder.findSome? (fun s => s.read "k =$ x".toList) = some (.link "k" "x") := by
  have hne : Shape.link ≠ Shape.component := by decide
  have h : Shape.Respects turnedOrder := ⟨by decide, by decide⟩
  refine ⟨hne, ?_, h, ?_⟩
  · rw [shapes_exclusive.1 _ _ hne]
    decide
  · rw [shapes_exclusive.2 _ h]
    rfl

end ExerciseDoc.Line
