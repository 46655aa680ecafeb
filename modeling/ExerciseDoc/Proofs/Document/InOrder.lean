import ExerciseDoc.Proofs.Document.Order
import ExerciseDoc.Proofs.Value.InOrder

/-!
# Document — data in order at every depth

Whatever a line stores has been put together by a reader, so it is in order, and so is what
it is joined to. Every line keeps the data of a document in order, at its top and in every
mapping further down (`fileIn_inOrder`): it is data that the laws of merging hold of.
-/

namespace ExerciseDoc

/-! ## What is stored at a key -/

namespace Key

theorem joined_inOrder {existing v : Value} {incoming : Incoming} {mode : Mode}
    (hold : existing.InOrder) (hincoming : incoming.toValue.InOrder)
    (h : joined existing incoming mode = .ok v) : v.InOrder := by
  unfold joined at h
  split at h
  · split at h <;> cases h
    exact .text _
  · split at h
    · rename_i old _ items hitems
      cases h
      rw [hitems] at hincoming
      -- The items of both lists, in one order or the other.
      cases hold with
      | list hold =>
          cases hincoming with
          | list hincoming =>
              split
              · exact .list fun v hv => (List.mem_append.mp hv).elim (hold v) (hincoming v)
              · exact .list fun v hv => (List.mem_append.mp hv).elim (hincoming v) (hold v)
    · cases h
  · cases h

theorem put_inOrder {incoming : Incoming} (hincoming : incoming.toValue.InOrder)
    (key last : String) (mode : Mode) {m : Mapping} (hm : m.InOrder) :
    (put key last incoming mode m).1.InOrder := by
  rcases put_fst_cases m key last incoming mode with
    hput | ⟨v, hput, rfl | ⟨existing, hexisting, hv⟩⟩ <;> rw [hput]
  · exact hm
  · exact hm.insert last hincoming
  · exact hm.insert last (joined_inOrder (hm.of_get? hexisting) hincoming hv)

theorem Enters.inOrder {root sub : Mapping} {seg : String} (h : Enters root seg sub)
    (hroot : root.InOrder) : sub.InOrder := by
  rcases h with hsub | ⟨-, rfl⟩
  · exact hroot.of_get? hsub
  · exact Mapping.inOrder_nil

theorem focus_inOrder {α : Type} {f : Mapping → Mapping × α}
    (hf : ∀ m, m.InOrder → (f m).1.InOrder) (path : List String) {root : Mapping}
    (hroot : root.InOrder) : (focus f path root).1.InOrder := by
  induction path generalizing root with
  | nil => exact hf root hroot
  | cons seg rest ih =>
      rcases enters_or_blocks root seg with ⟨sub, hsub⟩ | hblocks
      · rw [hsub.focus_cons]
        exact hroot.insert seg (ih (hsub.inOrder hroot))
      · rw [hblocks.focus_cons]
        exact hroot

theorem apply_inOrder {incoming : Incoming} (hincoming : incoming.toValue.InOrder)
    {root : Mapping} (hroot : root.InOrder) (key : String) (mode : Mode) :
    (apply root key incoming mode).1.InOrder := by
  rcases apply_fst_cases root key incoming mode with happly | ⟨parents, last, -, happly⟩ <;>
    rw [happly]
  · exact hroot
  · exact focus_inOrder (fun _ => put_inOrder hincoming key last mode) parents hroot

end Key

/-! ## Documents -/

namespace Document

/-- The data is in order at every depth. -/
def InOrder (doc : Document) : Prop :=
  doc.data.InOrder

theorem inOrder_lasting : Parse.Lasting InOrder InOrder where
  stored := by
    intro doc key incoming mode data warning hbuilt happly h
    have hdata := Key.apply_inOrder hbuilt.inOrder h key mode
    rw [happly] at hdata
    exact hdata
  warned h := h
  commented h := h
  depends h := h
  merged h hfound := Mapping.InOrder.merge h hfound

end Document

namespace Parse

/-- **Every document is in order at every depth.** -/
theorem fileIn_inOrder {ctx : Context} {contents : ByteArray} {doc : Document}
    (h : (fileIn ctx contents).result = .ok doc) : doc.InOrder :=
  Document.inOrder_lasting.fileIn (fun _ => Mapping.inOrder_nil) h

end Parse

end ExerciseDoc
