import ExerciseDoc.Proofs.Value.Order
import Mathlib.Data.List.Induction
import Mathlib.Data.List.Sort

/-!
# Value — mappings made of entries

A mapping in ascending order is known by what is found in it (`Ascending.ext`), so the mapping
that is made of entries is the one mapping that has the last value of each key
(`gathers_iff`).
-/

namespace ExerciseDoc.Mapping

open Entries (get?)

/-! ## What is found -/

theorem mem_of_get? {m : Mapping} {key : String} {value : Value}
    (h : get? m key = some value) : (key, value) ∈ m := by
  induction m with
  | nil => cases h
  | cons entry rest ih =>
      obtain ⟨k, v⟩ := entry
      rw [get?] at h
      split at h
      · exact List.mem_cons_of_mem _ (ih h)
      · split at h
        · rename_i heq
          cases h
          rw [heq]
          exact List.mem_cons_self
        · cases h

/-- Where keys ascend, what is found at a key is the entry that has it. -/
theorem Ascending.get?_eq_some {m : Mapping} (h : m.Ascending) {key : String}
    {value : Value} : get? m key = some value ↔ (key, value) ∈ m := by
  refine ⟨mem_of_get?, fun hmem => ?_⟩
  induction m with
  | nil => cases hmem
  | cons entry rest ih =>
      obtain ⟨hk, hrest⟩ := List.pairwise_cons.mp h
      rcases List.mem_cons.mp hmem with rfl | hmem
      · rw [get?, if_neg (String.lt_irrefl _), if_pos rfl]
      · rw [get?, if_pos (hk _ hmem)]
        exact ih hrest hmem

/-- Mappings in which the same is found are one. -/
theorem Ascending.ext {m m' : Mapping} (h : m.Ascending) (h' : m'.Ascending)
    (hget : ∀ key, get? m key = get? m' key) : m = m' := by
  have : Std.Irrefl fun a b : String × Value => a.1 < b.1 := ⟨fun a => String.lt_irrefl a.1⟩
  have : Std.Antisymm fun a b : String × Value => a.1 < b.1 :=
    ⟨fun a b hab hba => absurd (String.lt_trans hab hba) (String.lt_irrefl a.1)⟩
  refine h.eq_of_mem_iff h' fun e => ?_
  rw [← h.get?_eq_some, ← h'.get?_eq_some, hget]

/-! ## Entries -/

/-- What is found in a mapping made of entries is the last value at the key. -/
theorem get?_ofEntries (entries : List (String × Value)) (key : String) :
    get? (ofEntries entries) key = entries.reverse.lookup key := by
  induction entries using List.reverseRecOn with
  | nil => rfl
  | append_singleton front entry ih =>
      obtain ⟨k, v⟩ := entry
      rw [ofEntries, List.foldl_append, List.reverse_append]
      change get? (Entries.insert (ofEntries front) k v) key =
        List.lookup key ((k, v) :: front.reverse)
      rw [List.lookup_cons, Entries.get?_insert]
      by_cases hkey : key = k
      · rw [if_pos hkey, hkey, beq_self_eq_true]
      · rw [if_neg hkey, ih, beq_eq_false_iff_ne.mpr hkey]

theorem ascending_ofEntries (entries : List (String × Value)) :
    (ofEntries entries).Ascending := by
  induction entries using List.reverseRecOn with
  | nil => exact .nil
  | append_singleton front entry ih =>
      rw [ofEntries, List.foldl_append]
      exact ih.insert entry.1 entry.2

/-- The mapping has the keys of the entries, each with the value of its last entry. -/
structure Gathers (entries : List (String × Value)) (m : Mapping) : Prop where
  ascending : m.Ascending
  last : ∀ key, m.get? key = entries.reverse.lookup key

theorem gathers_iff {entries : List (String × Value)} {m : Mapping} :
    Gathers entries m ↔ m = ofEntries entries := by
  constructor
  · intro h
    refine h.ascending.ext (ascending_ofEntries entries) fun key => ?_
    rw [h.last, get?_ofEntries]
  · rintro rfl
    exact ⟨ascending_ofEntries entries, get?_ofEntries entries⟩

end ExerciseDoc.Mapping
