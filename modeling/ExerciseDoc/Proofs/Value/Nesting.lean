import ExerciseDoc.Proofs.Value.Built

/-!
# Value — how deep values nest

Nothing that is done to values makes them nest deeper than what they are made of: an
entry put into a mapping (`nestingOfEntries_insert_le`), lists one behind the other, one
mapping laid over another (`Mapping.nesting_merge_le`). What is put together in a room for
so many containers nests no deeper (`Value.Built.nesting_le`).
-/

namespace ExerciseDoc

/-! ## Lists and mappings -/

namespace Value

@[simp] theorem nesting_text (s : String) : (Value.text s).nesting = 0 := by
  simp [nesting]

@[simp] theorem nesting_list (items : List Value) :
    (Value.list items).nesting = nestingOfItems items + 1 := by
  simp [nesting]

@[simp] theorem nesting_mapping (entries : Mapping) :
    (Value.mapping entries).nesting = nestingOfEntries entries + 1 := by
  simp [nesting]

@[simp] theorem nestingOfItems_cons (v : Value) (items : List Value) :
    nestingOfItems (v :: items) = max v.nesting (nestingOfItems items) := by
  simp [nestingOfItems]

@[simp] theorem nestingOfEntries_nil : nestingOfEntries [] = 0 := by
  simp [nestingOfEntries]

@[simp] theorem nestingOfEntries_cons (key : String) (v : Value) (entries : Mapping) :
    nestingOfEntries ((key, v) :: entries) = max v.nesting (nestingOfEntries entries) := by
  simp [nestingOfEntries]

theorem nestingOfItems_append (items others : List Value) :
    nestingOfItems (items ++ others) = max (nestingOfItems items) (nestingOfItems others) := by
  induction items with
  | nil => simp [nestingOfItems]
  | cons v rest ih => rw [List.cons_append, nestingOfItems_cons, nestingOfItems_cons, ih,
      Nat.max_assoc]

theorem nesting_le_of_mem_items {items : List Value} {v : Value} (h : v ∈ items) :
    v.nesting ≤ nestingOfItems items := by
  induction items with
  | nil => cases h
  | cons u rest ih =>
      rw [nestingOfItems_cons]
      rcases List.mem_cons.mp h with rfl | hrest
      · exact Nat.le_max_left _ _
      · exact Nat.le_trans (ih hrest) (Nat.le_max_right _ _)

theorem nesting_le_of_mem_entries {entries : Mapping} {e : String × Value} (h : e ∈ entries) :
    e.2.nesting ≤ nestingOfEntries entries := by
  induction entries with
  | nil => cases h
  | cons entry rest ih =>
      rw [nestingOfEntries_cons]
      rcases List.mem_cons.mp h with rfl | hrest
      · exact Nat.le_max_left _ _
      · exact Nat.le_trans (ih hrest) (Nat.le_max_right _ _)

variable {n : Nat} {m : Mapping} {key : String} {v : Value}

theorem nestingOfItems_le {items : List Value} (h : ∀ v ∈ items, v.nesting ≤ n) :
    nestingOfItems items ≤ n := by
  induction items with
  | nil => exact Nat.zero_le n
  | cons v rest ih =>
      obtain ⟨hv, hrest⟩ := List.forall_mem_cons.mp h
      exact Nat.max_le.mpr ⟨hv, ih hrest⟩

theorem nestingOfEntries_le (h : ∀ e ∈ m, e.2.nesting ≤ n) : nestingOfEntries m ≤ n := by
  induction m with
  | nil => exact Nat.zero_le n
  | cons entry rest ih =>
      obtain ⟨hentry, hrest⟩ := List.forall_mem_cons.mp h
      exact Nat.max_le.mpr ⟨hentry, ih hrest⟩

theorem nesting_le_of_get? (hm : nestingOfEntries m ≤ n) (h : Entries.get? m key = some v) :
    v.nesting ≤ n := by
  induction m with
  | nil => cases h
  | cons entry rest ih =>
      obtain ⟨k, value⟩ := entry
      rw [nestingOfEntries_cons, Nat.max_le] at hm
      rw [Entries.get?] at h
      split at h
      · exact ih hm.2 h
      · split at h <;> cases h
        exact hm.1

theorem nestingOfEntries_insert_le (hm : nestingOfEntries m ≤ n) (key : String)
    (hv : v.nesting ≤ n) : nestingOfEntries (Entries.insert m key v) ≤ n := by
  induction m with
  | nil => simpa [Entries.insert] using hv
  | cons entry rest ih =>
      obtain ⟨k, value⟩ := entry
      rw [nestingOfEntries_cons, Nat.max_le] at hm
      rw [Entries.insert]
      split
      · rw [nestingOfEntries_cons, Nat.max_le]
        exact ⟨hm.1, ih hm.2⟩
      · split
        · rw [nestingOfEntries_cons, Nat.max_le]
          exact ⟨hv, hm.2⟩
        · rw [nestingOfEntries_cons, nestingOfEntries_cons, Nat.max_le, Nat.max_le]
          exact ⟨hv, hm⟩

theorem nestingOfEntries_ofEntries_le {entries : List (String × Value)}
    (h : nestingOfEntries entries ≤ n) : nestingOfEntries (Mapping.ofEntries entries) ≤ n := by
  have hfold : ∀ m, nestingOfEntries m ≤ n →
      nestingOfEntries (entries.foldl (fun m e => Entries.insert m e.1 e.2) m) ≤ n := by
    induction entries with
    | nil => exact fun m hm => hm
    | cons entry rest ih =>
        rw [nestingOfEntries_cons, Nat.max_le] at h
        exact fun m hm => ih h.2 _ (nestingOfEntries_insert_le hm _ h.1)
  exact hfold [] (by simp)

end Value

/-! ## Mappings laid over each other -/

open Value (nestingOfEntries nestingOfItems)

mutual

theorem Value.nesting_mergedOver_le {n : Nat} (existing : Option Value) (v : Value)
    (hold : ∀ old, existing = some old → old.nesting ≤ n) (hv : v.nesting ≤ n) :
    (Value.mergedOver existing v).nesting ≤ n := by
  match v with
  | .mapping entries =>
      match existing with
      | some (.mapping old) =>
          have hold := hold _ rfl
          rw [Value.mergedOver]
          rw [Value.nesting_mapping] at hold hv ⊢
          obtain ⟨k, rfl⟩ : ∃ k, n = k + 1 := ⟨n - 1, by omega⟩
          have hmerged := Mapping.nesting_merge_le (n := k) old entries (by omega) (by omega)
          omega
      | none | some .null | some (.bool _) | some (.int _) | some (.float _) | some (.text _)
      | some (.list _) => simpa only [Value.mergedOver] using hv
  | .null | .bool _ | .int _ | .float _ | .text _ | .list _ =>
      simpa only [Value.mergedOver] using hv

/-- One mapping laid over another nests no deeper than the deeper one. -/
theorem Mapping.nesting_merge_le {n : Nat} (target incoming : List (String × Value))
    (htarget : nestingOfEntries target ≤ n) (hincoming : nestingOfEntries incoming ≤ n) :
    nestingOfEntries (Mapping.merge target incoming) ≤ n := by
  match incoming with
  | [] => rwa [Mapping.merge_nil]
  | (key, v) :: rest =>
      rw [Value.nestingOfEntries_cons, Nat.max_le] at hincoming
      rw [Mapping.merge]
      have hmerged := Value.nesting_mergedOver_le (Entries.get? target key) v
        (fun _ => Value.nesting_le_of_get? htarget) hincoming.1
      exact Mapping.nesting_merge_le _ rest
        (Value.nestingOfEntries_insert_le htarget key hmerged) hincoming.2

end

/-! ## What is stored -/

/-- What is put together in so much room nests no deeper. -/
theorem Value.Built.nesting_le {n : Nat} {v : Value} (h : v.Built n) : v.nesting ≤ n := by
  induction h with
  | leaf h => exact h ▸ Nat.zero_le _
  | list _ ih =>
      rw [Value.nesting_list]
      exact Nat.succ_le_succ (Value.nestingOfItems_le ih)
  | mapping _ ih =>
      rw [Value.nesting_mapping]
      exact Nat.succ_le_succ (Value.nestingOfEntries_ofEntries_le (Value.nestingOfEntries_le ih))

/-- What is stored nests no deeper than a literal may. -/
def Incoming.Shallow (incoming : Incoming) : Prop :=
  incoming.toValue.nesting ≤ Literal.maxNesting

theorem Incoming.Built.shallow {incoming : Incoming} (h : incoming.Built) : incoming.Shallow :=
  h.nesting_le

end ExerciseDoc
