import ExerciseDoc.Json.Reader

/-!
# Json — containers

Arrays and objects are read in one way: up to a closing character there is nothing, or
there are elements with a comma between neighbours (`array_eq_container`,
`object_eq_container`). The elements of an object are its entries.
-/

namespace ExerciseDoc.Json

open Text (Reader)

variable {α : Type}

/-- Elements with a comma between neighbours, one at least, up to the closing character. -/
def row (close : Char) (reader : Reader α) : Nat → Reader (List α)
  | 0, _ => none
  | rounds + 1, cs =>
    match reader cs with
    | none => none
    | some (a, cs) =>
      match dropJsonBlanks cs with
      | [] => none
      | c :: cs =>
        if c = ',' then (row close reader rounds cs).map fun (as, rest) => (a :: as, rest)
        else if c = close then some ([a], cs)
        else none

/-- The value that `make` makes of the elements up to the closing character, of which there
may be none. -/
def container (close : Char) (reader : Reader α) (make : List α → Value) : Reader Value :=
  fun cs =>
    let cs := dropJsonBlanks cs
    if cs.head? = some close then some (make [], cs.tail)
    else (row close reader (cs.length + 1) cs).map fun (as, rest) => (make as, rest)

/-! ## Arrays and objects -/

theorem items_eq_row (element : Reader Value) (rounds : Nat) (cs : List Char) :
    items element rounds cs = row ']' element rounds cs := by
  induction rounds generalizing cs with
  | zero => rfl
  | succ rounds ih =>
      rw [items, row]
      cases element cs with
      | none => rfl
      | some read =>
          obtain ⟨v, behind⟩ := read
          dsimp only
          cases dropJsonBlanks behind with
          | nil => rfl
          | cons c tail =>
              by_cases hcomma : c = ','
              · subst hcomma
                exact congrArg (Option.map _) (ih tail)
              · by_cases hclose : c = ']'
                · subst hclose
                  rfl
                · simp [hcomma, hclose]

theorem entries_eq_row (element : Reader Value) (rounds : Nat) (cs : List Char) :
    entries element rounds cs = row '\x7d' (entry element) rounds cs := by
  induction rounds generalizing cs with
  | zero => rfl
  | succ rounds ih =>
      rw [entries, row]
      cases entry element cs with
      | none => rfl
      | some read =>
          obtain ⟨e, behind⟩ := read
          dsimp only
          cases dropJsonBlanks behind with
          | nil => rfl
          | cons c tail =>
              by_cases hcomma : c = ','
              · subst hcomma
                exact congrArg (Option.map _) (ih tail)
              · by_cases hclose : c = '\x7d'
                · subst hclose
                  rfl
                · simp [hcomma, hclose]

theorem array_eq_container (element : Reader Value) :
    array element = container ']' element .list := by
  funext cs
  unfold array container
  cases dropJsonBlanks cs with
  | nil => simp [items_eq_row]
  | cons c tail =>
      by_cases hclose : c = ']'
      · subst hclose
        rfl
      · simp [hclose, items_eq_row]

theorem object_eq_container (element : Reader Value) :
    object element =
      container '\x7d' (entry element) fun es => .mapping (Mapping.ofEntries es) := by
  funext cs
  unfold object container
  cases dropJsonBlanks cs with
  | nil => simp [entries_eq_row]
  | cons c tail =>
      by_cases hclose : c = '\x7d'
      · subst hclose
        rfl
      · simp [hclose, entries_eq_row]

/-! ## Inversion -/

section Inversion

variable {close : Char} {reader : Reader α} {rounds : Nat} {cs rest : List Char} {as : List α}

/-- A row has a first element, and behind a comma or the closing character ends or goes on. -/
theorem row_cases (h : row close reader (rounds + 1) cs = some (as, rest)) :
    ∃ a behind c tail, reader cs = some (a, behind) ∧ dropJsonBlanks behind = c :: tail ∧
      ((c = ',' ∧ ∃ others, as = a :: others ∧ row close reader rounds tail = some (others, rest)) ∨
        (c = close ∧ as = [a] ∧ rest = tail)) := by
  rw [row] at h
  split at h
  · cases h
  · rename_i a behind hreader
    split at h
    · cases h
    · rename_i c tail hbehind
      refine ⟨a, behind, c, tail, hreader, hbehind, ?_⟩
      split at h
      · rename_i hcomma
        obtain ⟨⟨others, _⟩, hothers, hpair⟩ := Option.map_eq_some_iff.mp h
        cases hpair
        exact .inl ⟨hcomma, others, rfl, hothers⟩
      · split at h <;> cases h
        exact .inr ⟨‹_›, rfl, rfl⟩

theorem container_cases {make : List α → Value} {v : Value}
    (h : container close reader make cs = some (v, rest)) :
    (dropJsonBlanks cs = close :: rest ∧ v = make []) ∨
      ∃ rounds as, row close reader rounds (dropJsonBlanks cs) = some (as, rest) ∧ v = make as := by
  unfold container at h
  dsimp only at h
  split at h
  · rename_i hclose
    obtain ⟨tail, htail⟩ := List.head?_eq_some_iff.mp hclose
    rw [htail] at h ⊢
    cases h
    exact .inl ⟨rfl, rfl⟩
  · obtain ⟨⟨as, _⟩, has, hpair⟩ := Option.map_eq_some_iff.mp h
    cases hpair
    exact .inr ⟨_, as, has, rfl⟩

/-- What the reader's elements have in common, the elements of a row have. -/
theorem forall_mem_of_row {P : α → Prop}
    (hreader : ∀ cs a rest, reader cs = some (a, rest) → P a)
    (h : row close reader rounds cs = some (as, rest)) : ∀ a ∈ as, P a := by
  induction rounds generalizing cs as with
  | zero => cases h
  | succ rounds ih =>
      obtain ⟨a, behind, c, tail, ha, -, hbehind⟩ := row_cases h
      have ha := hreader _ _ _ ha
      rcases hbehind with ⟨-, others, rfl, hothers⟩ | ⟨-, rfl, rfl⟩
      · exact List.forall_mem_cons.mpr ⟨ha, ih hothers⟩
      · exact List.forall_mem_singleton.mpr ha

end Inversion

end ExerciseDoc.Json
