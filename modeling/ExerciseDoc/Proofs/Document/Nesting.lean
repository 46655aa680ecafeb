import ExerciseDoc.Proofs.Key.Focus
import ExerciseDoc.Proofs.Parse.Opened
import ExerciseDoc.Proofs.Value.Nesting

/-!
# Document — how deep a document nests

What a line stores nests no deeper than a literal may, and stands at the end of a path of
fewer than `maxSegments` mappings. A value that has been joined to another nests no deeper
than the deeper of the two, and neither does a mapping that has been laid over another, so
these two limits bound every document that a parse yields (`nesting_le_of_parse`).
-/

namespace ExerciseDoc

open Value (nestingOfEntries nestingOfItems)

/-! ## What is stored at a key -/

namespace Key

theorem nesting_joined_le {existing v : Value} {incoming : Incoming} {mode : Mode}
    (h : joined existing incoming mode = .ok v) :
    v.nesting ≤ max existing.nesting incoming.toValue.nesting := by
  unfold joined at h
  split at h
  · split at h <;> cases h
    rw [Value.nesting_text]
    exact Nat.zero_le _
  · split at h
    · rename_i old _ items hitems
      cases h
      rw [hitems]
      split
      all_goals
        simp only [Value.nesting_list, Value.nestingOfItems_append]
        omega
    · cases h
  · cases h

theorem nestingOfEntries_put_le {n : Nat} {incoming : Incoming}
    (hincoming : incoming.toValue.nesting ≤ n) (key last : String) (mode : Mode)
    (m : Mapping) :
    nestingOfEntries (put key last incoming mode m).1 ≤ max (nestingOfEntries m) n := by
  have hm : nestingOfEntries m ≤ max (nestingOfEntries m) n := Nat.le_max_left _ _
  rcases put_fst_cases m key last incoming mode with
    hput | ⟨v, hput, rfl | ⟨existing, hexisting, hv⟩⟩ <;> rw [hput]
  · exact hm
  · exact Value.nestingOfEntries_insert_le hm last (by omega)
  · have hexisting : existing.nesting ≤ nestingOfEntries m :=
      Value.nesting_le_of_get? (Nat.le_refl _) hexisting
    have hv := nesting_joined_le hv
    exact Value.nestingOfEntries_insert_le hm last (by omega)

theorem nestingOfEntries_enters_le {root sub : Mapping} {seg : String}
    (h : Enters root seg sub) : nestingOfEntries sub ≤ nestingOfEntries root - 1 := by
  rcases h with h | ⟨-, rfl⟩
  · have hsub := Value.nesting_le_of_get? (Nat.le_refl _) h
    rw [Value.nesting_mapping] at hsub
    omega
  · rw [Value.nestingOfEntries_nil]
    exact Nat.zero_le _

/-- What is done at the end of a path makes the root nest deeper by no more than the path
is long. -/
theorem nestingOfEntries_focus_le {α : Type} {n : Nat} {f : Mapping → Mapping × α}
    (hf : ∀ m, nestingOfEntries (f m).1 ≤ max (nestingOfEntries m) n) (path : List String)
    (root : Mapping) :
    nestingOfEntries (focus f path root).1 ≤ max (nestingOfEntries root) (path.length + n) := by
  induction path generalizing root with
  | nil =>
      rw [List.length_nil, Nat.zero_add]
      exact hf root
  | cons seg rest ih =>
      have hroot : nestingOfEntries root ≤
          max (nestingOfEntries root) ((seg :: rest).length + n) := Nat.le_max_left _ _
      rcases enters_or_blocks root seg with ⟨sub, henters⟩ | hblocks
      · rw [henters.focus_cons]
        refine Value.nestingOfEntries_insert_le hroot seg ?_
        have hsub := ih sub
        have hold := nestingOfEntries_enters_le henters
        rw [Value.nesting_mapping, List.length_cons]
        omega
      · rw [hblocks.focus_cons]
        exact hroot

theorem length_parents_lt {key last : String} {parents : List String}
    (h : place key = .ok (parents, last)) : parents.length < maxSegments := by
  unfold place at h
  dsimp only at h
  split at h
  · cases h
  · rename_i hshort
    split at h <;> cases h
    rw [List.length_dropLast]
    have hpositive : 0 < maxSegments := by decide
    omega

/-- The data of a document nests no deeper after something shallow has been stored at a
key, or at most as deep as a key and a literal together. -/
theorem nestingOfEntries_apply_le {incoming : Incoming} (hincoming : incoming.Shallow)
    (root : Mapping) (key : String) (mode : Mode) :
    nestingOfEntries (apply root key incoming mode).1 ≤
      max (nestingOfEntries root) (maxSegments - 1 + Literal.maxNesting) := by
  rcases apply_fst_cases root key incoming mode with
    happly | ⟨parents, last, hplace, happly⟩ <;> rw [happly]
  · exact Nat.le_max_left _ _
  · have hparents := length_parents_lt hplace
    have hfocus := nestingOfEntries_focus_le
      (nestingOfEntries_put_le hincoming key last mode) parents root
    omega

end Key

/-! ## Documents -/

namespace Document

/-- The data nests no deeper than a key of the greatest length and a literal under it. -/
def Shallow (doc : Document) : Prop :=
  nestingOfEntries doc.data ≤ maxSegments - 1 + Literal.maxNesting

theorem shallow_lasting : Parse.Lasting Shallow Shallow where
  stored := by
    intro doc key incoming mode data warning hincoming happly h
    have hdata := Key.nestingOfEntries_apply_le hincoming.shallow doc.data key mode
    rw [happly] at hdata
    exact Nat.le_trans hdata (Nat.max_le.mpr ⟨h, Nat.le_refl _⟩)
  warned h := h
  commented h := h
  depends h := h
  merged h hfound := Mapping.nesting_merge_le _ _ h hfound

end Document

namespace Parse

/-- **The depth of documents.** Whatever the resolver answers, and whatever the lines of a
file and of its ancestors store, append, prepend and fold in, a document that a parse yields
nests at most 256 containers: 128 for the segments of a key, and 128 for a literal. -/
theorem nesting_le_of_parse {settings : Settings} {source : Location} {doc : Document}
    (h : (parse settings source).result = .ok doc) :
    (Value.mapping doc.data).nesting ≤ 256 := by
  have hshallow : doc.Shallow :=
    Document.shallow_lasting.fileIn (fun _ => Nat.zero_le _) (parse_eq_ok h)
  rw [Value.nesting_mapping]
  exact Nat.succ_le_succ hshallow

/-- Lists that are joined, an object and an ancestor's mapping in one document. -/
theorem nesting_le_of_parse_heir :
    let settings : Settings :=
      ⟨fun _ => some ⟨"a.c.e = \x7b\"f\": ((), [1])\x7d".toUTF8, ⟨0, "b"⟩, 0⟩, [], 64, false⟩
    let source : Location :=
      ⟨"a.b = [1]\na.b + [[[2]]]\na.c % \x7b\"d\": []\x7d\nextends = b".toUTF8, ⟨0, "a"⟩, 0⟩
    ∃ doc, (parse settings source).result = .ok doc ∧ (Value.mapping doc.data).nesting = 6 ∧
      (Value.mapping doc.data).nesting ≤ 256 := by
  intro settings source
  have hnesting : ((parse settings source).result.toOption.map
      fun doc => (Value.mapping doc.data).nesting) = some 6 := by decide +kernel
  obtain ⟨doc, hdoc, hsix⟩ := Option.map_eq_some_iff.mp hnesting
  have hresult := Run.result_of_toOption hdoc
  exact ⟨doc, hresult, hsix, nesting_le_of_parse hresult⟩

end Parse

end ExerciseDoc
