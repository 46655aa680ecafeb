import ExerciseDoc.Value.Merge
import Mathlib.Data.List.Pairwise

/-!
# Value — the order of entries

The keys of a mapping ascend. Writing at a key and laying another mapping over it keep the
order. What ascends is put together again by writing its entries one behind the other, into
a mapping that has only smaller keys (`insert_of_above`).
-/

namespace ExerciseDoc

namespace Mapping

open Entries (get?)

/-- The keys ascend, so none of them stands twice. -/
def Ascending (m : Mapping) : Prop :=
  m.Pairwise fun a b => a.1 < b.1

theorem mem_of_mem_insert {m : Mapping} {key : String} {value : Value}
    {e : String × Value} (h : e ∈ m.insert key value) : e = (key, value) ∨ e ∈ m := by
  induction m with
  | nil => exact .inl (List.mem_singleton.mp h)
  | cons entry rest ih =>
      obtain ⟨k, v⟩ := entry
      rw [Entries.insert] at h
      split at h
      · rcases List.mem_cons.mp h with rfl | hrest
        · exact .inr List.mem_cons_self
        · exact (ih hrest).imp id (List.mem_cons_of_mem _)
      · split at h
        · exact (List.mem_cons.mp h).imp id (List.mem_cons_of_mem _)
        · exact List.mem_cons.mp h

theorem Ascending.insert {m : Mapping} (h : m.Ascending) (key : String) (value : Value) :
    Ascending (m.insert key value) := by
  induction m with
  | nil => exact List.pairwise_singleton _ _
  | cons entry rest ih =>
      obtain ⟨k, v⟩ := entry
      obtain ⟨hk, hrest⟩ := List.pairwise_cons.mp h
      rw [Entries.insert]
      -- The key belongs further behind, stands at this entry, or belongs in front of it.
      split
      · rename_i hlt
        refine List.pairwise_cons.mpr ⟨?_, ih hrest⟩
        intro e he
        rcases mem_of_mem_insert he with rfl | he
        · exact hlt
        · exact hk e he
      · rename_i hlt
        split
        · rename_i heq
          subst heq
          exact List.pairwise_cons.mpr ⟨hk, hrest⟩
        · rename_i hne
          have hkey : key < k := Entries.string_lt_of_not hlt hne
          refine List.pairwise_cons.mpr ⟨?_, h⟩
          intro e he
          rcases List.mem_cons.mp he with rfl | he
          · exact hkey
          · exact String.lt_trans hkey (hk e he)

theorem Ascending.merge {m : Mapping} (h : m.Ascending) (incoming : Mapping) :
    Ascending (Mapping.merge m incoming) := by
  induction incoming generalizing m with
  | nil =>
      rw [merge_nil]
      exact h
  | cons entry rest ih =>
      obtain ⟨key, value⟩ := entry
      rw [Mapping.merge]
      exact ih (h.insert key _)

/-- A key above all others has no value yet, and is inserted last. -/
theorem get?_of_above {m : Mapping} {key : String} (h : ∀ e ∈ m, e.1 < key) :
    get? m key = none := by
  induction m with
  | nil => rfl
  | cons entry rest ih =>
      obtain ⟨k, v⟩ := entry
      rw [get?, if_pos (h _ List.mem_cons_self)]
      exact ih fun e he => h e (List.mem_cons_of_mem _ he)

/-- A key is found exactly if some entry has it. -/
theorem Ascending.contains_iff {m : Mapping} (h : m.Ascending) (key : String) :
    m.contains key ↔ key ∈ m.map (·.1) := by
  induction m with
  | nil => simp [contains, get?]
  | cons entry rest ih =>
      obtain ⟨k, v⟩ := entry
      obtain ⟨hk, hrest⟩ := List.pairwise_cons.mp h
      unfold contains at ih ⊢
      rw [get?, List.map_cons, List.mem_cons]
      -- The entry stands in front of the key, has it, or stands behind where it would be.
      split
      · rename_i hlt
        have hne : key ≠ k := by
          rintro rfl
          exact String.lt_irrefl _ hlt
        rw [ih hrest]
        simp [hne]
      · rename_i hlt
        split
        · rename_i heq
          simp [heq]
        · rename_i hne
          have hrest : key ∉ rest.map (·.1) := by
            intro hmem
            obtain ⟨e, he, rfl⟩ := List.mem_map.mp hmem
            exact hlt (hk e he)
          simp [hrest, Ne.symm hne]

theorem insert_of_above {m : Mapping} {key : String} (h : ∀ e ∈ m, e.1 < key)
    (value : Value) : m.insert key value = m ++ [(key, value)] := by
  induction m with
  | nil => rfl
  | cons entry rest ih =>
      obtain ⟨k, v⟩ := entry
      rw [Entries.insert, if_pos (h _ List.mem_cons_self)]
      rw [ih fun e he => h e (List.mem_cons_of_mem _ he)]
      rfl

theorem mergedOver_none (value : Value) : Value.mergedOver none value = value := by
  cases value <;> simp [Value.mergedOver]

/-- Entries above all that are there already are put behind them. -/
theorem merge_of_above {m incoming : Mapping} (h : Ascending (m ++ incoming)) :
    merge m incoming = m ++ incoming := by
  induction incoming generalizing m with
  | nil => rw [merge_nil, List.append_nil]
  | cons entry rest ih =>
      obtain ⟨key, value⟩ := entry
      have habove : ∀ e ∈ m, e.1 < key := fun e he =>
        (List.pairwise_append.mp h).2.2 e he _ List.mem_cons_self
      rw [merge, get?_of_above habove, mergedOver_none, insert_of_above habove]
      rw [ih (by rwa [List.append_cons] at h), ← List.append_cons]

/-- Laid over nothing, a mapping is itself. -/
theorem Ascending.nil_merge {m : Mapping} (h : m.Ascending) : Mapping.merge [] m = m :=
  merge_of_above (by simpa using h)

/-- Entries that ascend are the mapping that is made of them. -/
theorem ofEntries_of_ascending {entries : Mapping} (h : entries.Ascending) :
    ofEntries entries = entries := by
  have hfold : ∀ m : Mapping, Ascending (m ++ entries) →
      entries.foldl (fun m e => Entries.insert m e.1 e.2) m = m ++ entries := by
    clear h
    induction entries with
    | nil => exact fun m _ => (List.append_nil m).symm
    | cons entry rest ih =>
        intro m hm
        have habove : ∀ e ∈ m, e.1 < entry.1 := fun e he =>
          (List.pairwise_append.mp hm).2.2 e he _ List.mem_cons_self
        rw [List.foldl_cons, insert_of_above habove, ih _ (by rwa [List.append_cons] at hm),
          ← List.append_cons]
  exact hfold [] h

end Mapping

end ExerciseDoc
