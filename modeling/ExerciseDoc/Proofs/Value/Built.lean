import ExerciseDoc.Component
import ExerciseDoc.Key
import ExerciseDoc.Proofs.Json.Progress
import ExerciseDoc.Proofs.Value.Order

/-!
# Value — how values are put together

The readers of literals and of JSON put values together in one way (`Value.Built`): leaves, lists
of values that are built, and mappings made of entries with such values, in no more containers
inside each other than there is room for. What holds of everything that is stored at a key is
proved by induction on this, with no reader in sight.
-/

namespace ExerciseDoc

open Text (Reader)

/-- The value has been put together in room for so many containers inside each other. -/
inductive Value.Built : Nat → Value → Prop where
  | leaf {n : Nat} {v : Value} : v.nesting = 0 → Built n v
  | list {n : Nat} {items : List Value} : (∀ v ∈ items, Built n v) → Built (n + 1) (.list items)
  | mapping {n : Nat} {entries : List (String × Value)} : (∀ e ∈ entries, Built n e.2) →
      Built (n + 1) (.mapping (Mapping.ofEntries entries))

namespace Value

theorem built_text (n : Nat) (s : String) : Built n (.text s) :=
  .leaf (by simp [nesting])

theorem Built.mono {n m : Nat} {v : Value} (h : Built n v) (hle : n ≤ m) : Built m v := by
  induction h generalizing m with
  | leaf h => exact .leaf h
  | list _ ih =>
      obtain ⟨m, rfl⟩ : ∃ k, m = k + 1 := ⟨m - 1, by omega⟩
      exact .list fun v hv => ih v hv (Nat.le_of_succ_le_succ hle)
  | mapping _ ih =>
      obtain ⟨m, rfl⟩ : ∃ k, m = k + 1 := ⟨m - 1, by omega⟩
      exact .mapping fun e he => ih e he (Nat.le_of_succ_le_succ hle)

end Value

/-- Whatever the reader reads is built in so much room. -/
def ReadsBuilt (n : Nat) (reader : Reader Value) : Prop :=
  ∀ cs v rest, reader cs = some (v, rest) → v.Built n

/-! ## Literals -/

namespace Literal

variable {n : Nat} {element : Reader Value}

theorem items_built (h : ReadsBuilt n element) (close : Char) (rounds : Nat)
    {cs rest : List Char} {vs : List Value} {comma : Bool}
    (hread : items element close rounds cs = some ((vs, comma), rest)) :
    ∀ v ∈ vs, v.Built n := by
  induction rounds generalizing cs vs comma with
  | zero => cases hread
  | succ rounds ih =>
      rw [items] at hread
      split at hread
      · cases hread
      · split at hread
        · cases hread
          exact List.forall_mem_nil _
        · split at hread
          · cases hread
          · rename_i v behind helement
            have hv := h _ _ _ helement
            split at hread
            · cases hread
            · split at hread
              · -- A comma: the rest of the items has been read in the rounds that are left.
                obtain ⟨⟨⟨others, _⟩, _⟩, hothers, hpair⟩ := Option.map_eq_some_iff.mp hread
                cases hpair
                exact List.forall_mem_cons.mpr ⟨hv, ih hothers⟩
              · split at hread <;> cases hread
                exact List.forall_mem_singleton.mpr hv

theorem entries_built (h : ReadsBuilt n element) (rounds : Nat) {cs rest : List Char}
    {es : List (String × Value)} (hread : entries element rounds cs = some (es, rest)) :
    ∀ e ∈ es, e.2.Built n := by
  induction rounds generalizing cs es with
  | zero => cases hread
  | succ rounds ih =>
      rw [entries] at hread
      split at hread
      · cases hread
      · split at hread
        · cases hread
          exact List.forall_mem_nil _
        · split at hread
          · split at hread
            · split at hread
              · cases hread
              · rename_i v behind helement
                have hv := h _ _ _ helement
                split at hread
                · cases hread
                · split at hread
                  · obtain ⟨⟨others, _⟩, hothers, hpair⟩ := Option.map_eq_some_iff.mp hread
                    cases hpair
                    exact List.forall_mem_cons.mpr ⟨hv, ih hothers⟩
                  · split at hread <;> cases hread
                    exact List.forall_mem_singleton.mpr hv
            · cases hread
          · cases hread

theorem container_built (h : ReadsBuilt n element) (opening : Char) :
    ReadsBuilt (n + 1) (container element opening) := by
  intro cs v rest hread
  unfold container at hread
  split at hread
  · obtain ⟨⟨⟨vs, _⟩, _⟩, hitems, hpair⟩ := Option.map_eq_some_iff.mp hread
    cases hpair
    exact .list (items_built h _ _ hitems)
  · split at hread
    · obtain ⟨⟨⟨vs, comma⟩, _⟩, hitems, hpair⟩ := Option.map_eq_some_iff.mp hread
      have hvs := items_built h _ _ hitems
      dsimp only at hpair
      -- A single item in round brackets is the item itself.
      split at hpair
      · cases hpair
        exact (List.forall_mem_singleton.mp hvs).mono (Nat.le_succ n)
      · cases hpair
        exact .list hvs
    · obtain ⟨⟨es, _⟩, hentries, hpair⟩ := Option.map_eq_some_iff.mp hread
      cases hpair
      exact .mapping (entries_built h _ hentries)

theorem nesting_of_value? {numeral : Numeral} {v : Value} (h : numeral.value? = some v) :
    v.nesting = 0 := by
  unfold Numeral.value? at h
  dsimp only at h
  split at h
  · unfold wholeValue? at h
    split at h
    · cases h
    · dsimp only at h
      split at h
      · split at h <;> cases h
        simp [Value.nesting]
      · split at h <;> cases h
        simp [Value.nesting]
  · obtain ⟨x, -, rfl⟩ := Option.map_eq_some_iff.mp h
    simp [Value.nesting]

theorem number_built (n : Nat) : ReadsBuilt n number := by
  intro cs v rest hread
  unfold number at hread
  split at hread
  · obtain ⟨v', hv, hpair⟩ := Option.map_eq_some_iff.mp hread
    cases hpair
    exact .leaf (nesting_of_value? hv)
  · cases hread

theorem keyword_built (n : Nat) : ReadsBuilt n keyword := by
  intro cs v rest hread
  obtain ⟨v', hv, hpair⟩ := Option.map_eq_some_iff.mp hread
  cases hpair
  refine .leaf ?_
  unfold keyword? at hv
  split at hv
  · cases hv
    simp [Value.nesting]
  · split at hv
    · cases hv
      simp [Value.nesting]
    · split at hv <;> cases hv
      simp [Value.nesting]

theorem front_built {inner : Char → Reader Value} (h : ∀ c, ReadsBuilt n (inner c)) :
    ReadsBuilt n (front inner) := by
  intro cs v rest hread
  unfold front at hread
  split at hread
  · cases hread
  · split at hread
    · exact h _ _ _ _ hread
    · split at hread
      · obtain ⟨_, -, hpair⟩ := Option.map_eq_some_iff.mp hread
        cases hpair
        exact Value.built_text _ _
      · split at hread
        · exact number_built n _ _ _ hread
        · exact keyword_built n _ _ _ hread

theorem value_built (room : Nat) : ReadsBuilt room (value room) := by
  induction room with
  | zero => exact front_built fun _ _ _ _ h => by cases h
  | succ room ih => exact front_built (container_built ih)

theorem built_of_read? {cs : List Char} {v : Value} (h : read? cs = some v) :
    v.Built maxNesting := by
  unfold read? at h
  split at h
  · rename_i hvalue
    split at h <;> cases h
    exact value_built maxNesting _ _ _ hvalue
  · cases h

theorem built_getD_read? (cs : List Char) (s : String) :
    ((read? cs).getD (.text s)).Built maxNesting := by
  cases hread : read? cs with
  | none => exact Value.built_text _ s
  | some v => exact built_of_read? hread

end Literal

/-! ## JSON -/

namespace Json

variable {n : Nat} {element : Reader Value}

theorem entry_built (h : ReadsBuilt n element) {cs rest : List Char} {e : String × Value}
    (hread : entry element cs = some (e, rest)) : e.2.Built n := by
  unfold entry at hread
  split at hread
  · split at hread
    · cases hread
    · split at hread
      · obtain ⟨⟨v, _⟩, hv, hpair⟩ := Option.map_eq_some_iff.mp hread
        cases hpair
        exact h _ _ _ hv
      · cases hread
  · cases hread

theorem array_built (h : ReadsBuilt n element) : ReadsBuilt (n + 1) (array element) := by
  intro cs v rest hread
  rw [array_eq_container] at hread
  rcases container_cases hread with ⟨-, rfl⟩ | ⟨rounds, vs, hrow, rfl⟩
  · exact .list (List.forall_mem_nil _)
  · exact .list (forall_mem_of_row h hrow)

theorem object_built (h : ReadsBuilt n element) : ReadsBuilt (n + 1) (object element) := by
  intro cs v rest hread
  rw [object_eq_container] at hread
  rcases container_cases hread with ⟨-, rfl⟩ | ⟨rounds, es, hrow, rfl⟩
  · exact .mapping (List.forall_mem_nil _)
  · exact .mapping (forall_mem_of_row (fun _ _ _ => entry_built h) hrow)

theorem word_built {v : Value} (hv : v.nesting = 0) (w : List Char) :
    ReadsBuilt n (word w v) := by
  intro cs v' rest hread
  obtain ⟨_, -, hpair⟩ := Option.map_eq_some_iff.mp hread
  cases hpair
  exact .leaf hv

theorem nesting_of_wholeNumber? {negative : Bool} {ds : List Char} {v : Value}
    (h : wholeNumber? negative ds = some v) : v.nesting = 0 := by
  unfold wholeNumber? at h
  dsimp only at h
  split at h
  · cases h
    simp [Value.nesting]
  · split at h
    · cases h
      simp [Value.nesting]
    · obtain ⟨x, -, rfl⟩ := Option.map_eq_some_iff.mp h
      simp [Value.nesting]

theorem number_built (n : Nat) (negative : Bool) : ReadsBuilt n (number negative) := by
  intro cs v rest hread
  unfold number at hread
  split at hread
  · cases hread
  · split at hread
    · cases hread
    · split at hread
      · cases hread
      · split at hread
        · obtain ⟨v', hv, hpair⟩ := Option.map_eq_some_iff.mp hread
          cases hpair
          exact .leaf (nesting_of_wholeNumber? hv)
        · obtain ⟨v', hv, hpair⟩ := Option.map_eq_some_iff.mp hread
          cases hpair
          obtain ⟨x, -, rfl⟩ := Option.map_eq_some_iff.mp hv
          exact .leaf (by simp [Value.nesting])

theorem front_built {element : Option (Reader Value)}
    (helement : ∀ inner, element = some inner →
      ReadsBuilt n (array inner) ∧ ReadsBuilt n (object inner)) :
    ReadsBuilt n (front element) := by
  intro cs v rest hread
  obtain ⟨c, tail, -, hfront⟩ := fronts_of_front hread
  cases hfront with
  | null h => exact word_built (by simp [Value.nesting]) _ _ _ _ h
  | bool h => exact word_built (by simp [Value.nesting]) _ _ _ _ h
  | text h => exact Value.built_text _ _
  | negative h => exact number_built n _ _ _ _ h
  | number h => exact number_built n _ _ _ _ h
  | array hinner h => exact (helement _ hinner).1 _ _ _ h
  | object hinner h => exact (helement _ hinner).2 _ _ _ h

theorem value_built (room : Nat) : ReadsBuilt room (value room) := by
  induction room with
  | zero => exact front_built fun _ h => by cases h
  | succ room ih =>
      refine front_built fun inner h => ?_
      cases h
      exact ⟨array_built ih, object_built ih⟩

theorem built_of_ofText? {s : String} {v : Value} (h : ofText? s = some v) :
    v.Built maxNesting := by
  unfold ofText? read? at h
  split at h
  · rename_i hvalue
    split at h <;> cases h
    exact value_built maxNesting _ _ _ hvalue
  · cases h

end Json

/-! ## Right-hand sides -/

/-- What is stored is built in as much room as a literal may have. -/
def Incoming.Built (incoming : Incoming) : Prop :=
  incoming.toValue.Built Literal.maxNesting

namespace Incoming.Built

theorem text (s : String) : (Incoming.text s).Built :=
  Value.built_text _ s

theorem line (s : String) : (Incoming.line s).Built :=
  Literal.built_getD_read? _ _

theorem block (s : String) : (Incoming.block s).Built :=
  Literal.built_getD_read? _ _

theorem json {s : String} {v : Value} (h : Json.ofText? s = some v) :
    (Incoming.value v).Built :=
  Value.Built.mono (Json.built_of_ofText? h) (by decide)

/-- The placeholder of a widget is made of two entries. -/
theorem component {name : String} {v : Value} (h : Component.value? name = some v) :
    (Incoming.value v).Built := by
  obtain ⟨selector, -, rfl⟩ := Option.map_eq_some_iff.mp h
  have hform : Value.Built 1 (.mapping []) := @Value.Built.mapping 0 [] (List.forall_mem_nil _)
  have hbuilt : Value.Built 2 (.mapping (Mapping.ofEntries
      [("form", .mapping []), ("selector", .text selector)])) :=
    .mapping (by simp [hform, Value.built_text])
  have hkeys : "form" < "selector" := by decide
  have hroom : 2 ≤ Literal.maxNesting := by decide
  rw [Mapping.ofEntries_of_ascending (List.pairwise_pair.mpr hkeys)] at hbuilt
  exact hbuilt.mono hroom

end Incoming.Built

end ExerciseDoc
