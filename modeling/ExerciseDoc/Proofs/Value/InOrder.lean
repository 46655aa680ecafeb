import ExerciseDoc.Proofs.Value.Built
import ExerciseDoc.Proofs.Value.Entries

/-!
# Value — order at every depth

A value is in order if the keys of every mapping ascend, its own and those inside it
(`Value.InOrder`). Only such values stand for mappings as they are stored, with one entry for
each key. Writing at a key and laying one mapping over another keep the order
(`Mapping.InOrder.merge`), and whatever a reader puts together is in order
(`Value.Built.inOrder`).
-/

namespace ExerciseDoc

/-- The keys of every mapping in the value ascend, however deep it stands. -/
inductive Value.InOrder : Value → Prop where
  | null : InOrder .null
  | bool (b : Bool) : InOrder (.bool b)
  | int (n : Int) : InOrder (.int n)
  | float (x : Binary64) : InOrder (.float x)
  | text (s : String) : InOrder (.text s)
  | list {items : List Value} : (∀ v ∈ items, InOrder v) → InOrder (.list items)
  | mapping {entries : List (String × Value)} : Mapping.Ascending entries →
      (∀ e ∈ entries, InOrder e.2) → InOrder (.mapping entries)

/-- The mapping is in order at every depth. -/
def Mapping.InOrder (m : Mapping) : Prop :=
  Value.InOrder (.mapping m)

namespace Mapping

open Entries (get?)

variable {m : Mapping} {key : String} {v : Value}

theorem InOrder.ascending (h : m.InOrder) : m.Ascending := by
  cases h with
  | mapping hascending _ => exact hascending

theorem InOrder.forall_mem (h : m.InOrder) : ∀ e ∈ m, e.2.InOrder := by
  cases h with
  | mapping _ hentries => exact hentries

theorem inOrder_nil : InOrder [] :=
  .mapping .nil (List.forall_mem_nil _)

theorem InOrder.of_get? (h : m.InOrder) (hv : get? m key = some v) : v.InOrder :=
  h.forall_mem _ (mem_of_get? hv)

theorem InOrder.insert (h : m.InOrder) (key : String) (hv : v.InOrder) :
    InOrder (m.insert key v) := by
  refine .mapping (h.ascending.insert key v) fun e he => ?_
  rcases mem_of_mem_insert he with rfl | hmem
  · exact hv
  · exact h.forall_mem e hmem

theorem inOrder_ofEntries {entries : List (String × Value)} (h : ∀ e ∈ entries, e.2.InOrder) :
    (ofEntries entries).InOrder := by
  induction entries using List.reverseRecOn with
  | nil => exact inOrder_nil
  | append_singleton front entry ih =>
      rw [ofEntries, List.foldl_append]
      have hfront : ∀ e ∈ front, e.2.InOrder := fun e he => h e (List.mem_append_left _ he)
      exact (ih hfront).insert entry.1 (h entry (by simp))

/-- Induction down a mapping in order: what holds of a mapping whenever it holds of the
mappings among its values. -/
@[elab_as_elim]
theorem InOrder.induction {motive : (m : Mapping) → m.InOrder → Prop} (h : m.InOrder)
    (step : ∀ (m : Mapping) (h : m.InOrder),
      (∀ key sub, (hsub : get? m key = some (.mapping sub)) → motive sub (h.of_get? hsub)) →
      motive m h) : motive m h := by
  have hall : ∀ v : Value, v.InOrder → ∀ m (h : Mapping.InOrder m), v = .mapping m →
      motive m h := by
    intro v hv
    induction hv with
    | mapping _ _ ih =>
        rintro _ h ⟨⟩
        exact step _ h fun key sub hsub => ih _ (mem_of_get? hsub) sub (h.of_get? hsub) rfl
    | _ => exact fun _ _ hm => nomatch hm
  exact hall _ h m h rfl

end Mapping

/-! ## One mapping laid over another -/

mutual

theorem Value.InOrder.mergedOver {existing : Option Value} {v : Value}
    (hold : ∀ old, existing = some old → old.InOrder) (hv : v.InOrder) :
    (Value.mergedOver existing v).InOrder := by
  match v with
  | .mapping entries =>
      match existing with
      | some (.mapping old) =>
          rw [Value.mergedOver]
          exact Mapping.InOrder.merge (hold _ rfl) hv
      | none | some .null | some (.bool _) | some (.int _) | some (.float _) | some (.text _)
      | some (.list _) => simpa only [Value.mergedOver] using hv
  | .null | .bool _ | .int _ | .float _ | .text _ | .list _ =>
      simpa only [Value.mergedOver] using hv

theorem Mapping.InOrder.merge {target incoming : List (String × Value)}
    (htarget : Mapping.InOrder target) (hincoming : Mapping.InOrder incoming) :
    Mapping.InOrder (Mapping.merge target incoming) := by
  match incoming with
  | [] => rwa [Mapping.merge_nil]
  | (key, v) :: rest =>
      obtain ⟨hv, hrest⟩ := List.forall_mem_cons.mp hincoming.forall_mem
      rw [Mapping.merge]
      have hmerged : (Value.mergedOver (Entries.get? target key) v).InOrder :=
        Value.InOrder.mergedOver (fun _ => htarget.of_get?) hv
      exact Mapping.InOrder.merge (htarget.insert key hmerged)
        (.mapping (List.pairwise_cons.mp hincoming.ascending).2 hrest)

end

/-! ## What is put together -/

theorem Value.inOrder_of_nesting {v : Value} (h : v.nesting = 0) : v.InOrder := by
  cases v with
  | list | mapping => simp [Value.nesting] at h
  | null => exact .null
  | bool b => exact .bool b
  | int n => exact .int n
  | float x => exact .float x
  | text s => exact .text s

theorem Value.Built.inOrder {n : Nat} {v : Value} (h : v.Built n) : v.InOrder := by
  induction h with
  | leaf h => exact inOrder_of_nesting h
  | list _ ih => exact .list ih
  | mapping _ ih => exact Mapping.inOrder_ofEntries ih

end ExerciseDoc
